import LinuxEmbedded.Chat.CommandLines

/-
Commands as the help text has a user type them.

Words are separated by any number of blanks; the message of a `send` begins one blank
after the number of the connection, and keeps its own.  A session of such lines runs the
commands it spells, argument for argument.
-/
namespace LinuxEmbedded
namespace Chat
namespace Commands

open Machine LineBuffer
open Framing (Byte)

/-- How many blanks somebody types before the command, before its arguments besides the one
that is needed, and at the end. -/
structure Spacing where
  lead : Nat
  first : Nat
  second : Nat
  trail : Nat

def blanks (n : Nat) : List Byte := List.replicate n space

def minus : Byte := 45

/-- `%d`. -/
def intText (n : Int) : List Byte :=
  if n < 0 then minus :: Decimal.text n.natAbs else Decimal.text n.natAbs

/-- A value of type `int`. -/
def IsInt (n : Int) : Prop := -2 ^ 31 ≤ n ∧ n < 2 ^ 31

/-- Something `strtok` returns as it is. -/
def IsWord (word : List Byte) : Prop := word ≠ [] ∧ (∀ b ∈ word, isBlank b = false) ∧ Plain word

/-- The commands of the help text, with arguments that can be typed. -/
def Typeable : Command → Prop
  | .connect ipAddr portNum => IsWord ipAddr ∧ IsInt portNum
  | .terminate id => IsInt id
  | .send id msg => IsInt id ∧ Accepted msg ∧ newline ∉ msg
  | .usage _ | .messageTooLong | .invalid => False
  | _ => True

def Command.name : Command → Name
  | .help => .help
  | .myip => .myip
  | .myport => .myport
  | .connect _ _ => .connect
  | .list => .list
  | .terminate _ => .terminate
  | .send _ _ | .messageTooLong => .send
  | .exit => .exit
  | .usage name => name
  | .invalid => .invalid

/-- The line for a command, without the newline. -/
def lineText (sp : Spacing) : Command → List Byte
  | .help => blanks sp.lead ++ (cmdHelp ++ blanks sp.trail)
  | .myip => blanks sp.lead ++ (cmdMyip ++ blanks sp.trail)
  | .myport => blanks sp.lead ++ (cmdMyport ++ blanks sp.trail)
  | .connect ipAddr portNum =>
    blanks sp.lead ++ (cmdConnect ++ space :: (blanks sp.first ++
      (ipAddr ++ space :: (blanks sp.second ++ (intText portNum ++ blanks sp.trail)))))
  | .list => blanks sp.lead ++ (cmdList ++ blanks sp.trail)
  | .terminate id =>
    blanks sp.lead ++ (cmdTerminate ++ space :: (blanks sp.first ++
      (intText id ++ blanks sp.trail)))
  | .send id msg =>
    blanks sp.lead ++ (cmdSend ++ space :: (blanks sp.first ++ (intText id ++ space :: msg)))
  | .exit => blanks sp.lead ++ (cmdExit ++ blanks sp.trail)
  | _ => []

/-! ## Words -/

theorem isBlank_iff (b : Byte) : isBlank b = true ↔ b = space := beq_iff_eq

theorem blanks_head? {n : Nat} {b : Byte} (h : (blanks n).head? = some b) : b = space :=
  List.eq_of_mem_replicate (List.mem_of_mem_head? h)

/-- Blanks, a word, and a blank or the end. -/
theorem strtok_word (n : Nat) {word : List Byte} (hword : IsWord word) {rest : List Byte}
    (hend : ∀ b, rest.head? = some b → b = space) :
    strtok (blanks n ++ (word ++ rest)) = some (word, rest.drop 1) := by
  have hskip : strtok (blanks n ++ (word ++ rest)) = strtok (word ++ rest) := by
    induction n with
    | zero => rfl
    | succ n ih =>
      rw [← ih]
      exact Tokens.next_sep ((isBlank_iff space).mpr rfl) _
  obtain ⟨hne, hplain, -⟩ := hword
  rw [hskip]
  cases word with
  | nil => exact absurd rfl hne
  | cons b word =>
    have hall : ∀ c ∈ word, (!isBlank c) = true := by
      intro c hc
      rw [hplain c (List.mem_cons_of_mem b hc)]
      rfl
    have hstop : rest.takeWhile (fun c => !isBlank c) = [] ∧
        rest.dropWhile (fun c => !isBlank c) = rest := by
      cases rest with
      | nil => exact ⟨rfl, rfl⟩
      | cons c rest =>
        have hc : isBlank c = true := (isBlank_iff c).mpr (hend c rfl)
        simp [hc]
    rw [List.cons_append, strtok, Tokens.next_cons (hplain b List.mem_cons_self),
      List.takeWhile_append_of_pos hall, List.dropWhile_append_of_pos hall, hstop.1, hstop.2,
      List.append_nil]

theorem isWord_of_all {word : List Byte} (hne : word ≠ [])
    (h : ∀ b ∈ word, b ≠ space ∧ b ≠ newline ∧ b ≠ nul) : IsWord word := by
  refine ⟨hne, ?_, ?_, ?_⟩
  · intro b hb
    exact Bool.eq_false_iff.mpr fun he => (h b hb).1 ((isBlank_iff b).mp he)
  · exact fun hmem => (h newline hmem).2.1 rfl
  · exact fun hmem => (h nul hmem).2.2 rfl

theorem digit_ne {b : Byte} (h : Decimal.isDigit b = true) :
    b ≠ space ∧ b ≠ newline ∧ b ≠ nul := by
  have hspace : Decimal.isDigit space = false := rfl
  have hnewline : Decimal.isDigit newline = false := rfl
  have hnul : Decimal.isDigit nul = false := rfl
  refine ⟨?_, ?_, ?_⟩
  · rintro rfl
    rw [hspace] at h
    cases h
  · rintro rfl
    rw [hnewline] at h
    cases h
  · rintro rfl
    rw [hnul] at h
    cases h

theorem isWord_intText (n : Int) : IsWord (intText n) := by
  unfold intText
  by_cases hn : n < 0
  · rw [if_pos hn]
    refine isWord_of_all (List.cons_ne_nil _ _) ?_
    intro b hb
    rcases List.mem_cons.mp hb with rfl | hb
    · decide
    · exact digit_ne (Decimal.text_digits hb)
  · rw [if_neg hn]
    exact isWord_of_all (Decimal.text_ne_nil _) fun b hb => digit_ne (Decimal.text_digits hb)

theorem cInt_of_isInt {n : Int} (h : IsInt n) : cInt n = n := by
  obtain ⟨hlow, hhigh⟩ := h
  have hclamp : max (-2 ^ 63 : Int) (min n (2 ^ 63 - 1)) = n := by omega
  rw [cInt, hclamp]
  exact Int.bmod_eq_of_le (by omega) (by omega)

/-- What was printed with `%d` is read back by `atoi`. -/
theorem atoi_intText {n : Int} (h : IsInt n) : atoi (intText n) = n := by
  have hdigits : ∀ b ∈ Decimal.text n.natAbs, Decimal.isDigit b = true :=
    fun b hb => Decimal.text_digits hb
  have hne := Decimal.text_ne_nil n.natAbs
  unfold atoi intText
  by_cases hn : n < 0
  · have hskip : (minus :: Decimal.text n.natAbs).dropWhile isSpace =
        minus :: Decimal.text n.natAbs := List.dropWhile_cons_of_neg (by decide)
    have htake : (Decimal.text n.natAbs).takeWhile Decimal.isDigit = Decimal.text n.natAbs :=
      List.takeWhile_eq_self_iff.mpr hdigits
    have hscan : scanInt (minus :: Decimal.text n.natAbs) =
        if (Decimal.text n.natAbs).takeWhile Decimal.isDigit = [] then none
        else some (cInt (-(Decimal.value
          ((Decimal.text n.natAbs).takeWhile Decimal.isDigit) : Int))) := rfl
    have hvalue : -(n.natAbs : Int) = n := by omega
    rw [if_pos hn, hskip, hscan, htake, if_neg hne, Decimal.value_text, hvalue, cInt_of_isInt h]
    rfl
  · have hskip : (Decimal.text n.natAbs).dropWhile isSpace = Decimal.text n.natAbs := by
      obtain ⟨b, bs, heq⟩ := List.exists_cons_of_ne_nil hne
      rw [heq] at hdigits ⊢
      exact List.dropWhile_cons_of_neg (by
        rw [isDigit_not_space (hdigits b List.mem_cons_self)]
        exact Bool.false_ne_true)
    have hscan := @scanInt_digits _ [] hdigits hne (by simp)
    have hvalue : (n.natAbs : Int) = n := by omega
    rw [List.append_nil, Decimal.value_text, hvalue, cInt_of_isInt h] at hscan
    rw [if_neg hn, hskip, hscan]
    rfl

/-! ## Lines -/

theorem plain_append {xs ys : List Byte} (hx : Plain xs) (hy : Plain ys) : Plain (xs ++ ys) :=
  ⟨fun h => (List.mem_append.mp h).elim hx.1 hy.1, fun h => (List.mem_append.mp h).elim hx.2 hy.2⟩

theorem plain_space {xs : List Byte} (h : Plain xs) : Plain (space :: xs) := by
  have hone : Plain [space] := ⟨by decide, by decide⟩
  exact plain_append hone h

theorem plain_blanks (n : Nat) : Plain (blanks n) := by
  refine ⟨fun h => ?_, fun h => ?_⟩
  · exact absurd (List.eq_of_mem_replicate h) (by decide)
  · exact absurd (List.eq_of_mem_replicate h) (by decide)

/-- The words of the commands. -/
theorem isWord_cmd : IsWord cmdHelp ∧ IsWord cmdMyip ∧ IsWord cmdMyport ∧ IsWord cmdConnect ∧
    IsWord cmdList ∧ IsWord cmdTerminate ∧ IsWord cmdSend ∧ IsWord cmdExit := by
  refine ⟨?_, ?_, ?_, ?_, ?_, ?_, ?_, ?_⟩
  all_goals exact isWord_of_all (by decide) (by decide)

/-- A word with blanks around it. -/
theorem plain_single {word : List Byte} (h : IsWord word) (m n : Nat) :
    Plain (blanks m ++ (word ++ blanks n)) :=
  plain_append (plain_blanks m) (plain_append h.2.2 (plain_blanks n))

theorem strtok_single {word : List Byte} (h : IsWord word) (m n : Nat) :
    strtok (blanks m ++ (word ++ blanks n)) = some (word, (blanks n).drop 1) :=
  strtok_word m h fun _ hb => blanks_head? hb

/-- A word, a blank and more. -/
theorem strtok_more {word : List Byte} (h : IsWord word) (n : Nat) (rest : List Byte) :
    strtok (blanks n ++ (word ++ space :: rest)) = some (word, rest) :=
  strtok_word n h fun _ hb => (Option.some.inj hb).symm

theorem lineText_plain (sp : Spacing) {c : Command} (h : Typeable c) : Plain (lineText sp c) := by
  obtain ⟨hhelp, hmyip, hmyport, hconnect, hlist, hterminate, hsend, hexit⟩ := isWord_cmd
  cases c with
  | help => exact plain_single hhelp _ _
  | myip => exact plain_single hmyip _ _
  | myport => exact plain_single hmyport _ _
  | list => exact plain_single hlist _ _
  | exit => exact plain_single hexit _ _
  | connect ipAddr portNum =>
    exact plain_append (plain_blanks _) (plain_append hconnect.2.2 (plain_space
      (plain_append (plain_blanks _) (plain_append h.1.2.2 (plain_space
        (plain_single (isWord_intText portNum) _ _))))))
  | terminate id =>
    exact plain_append (plain_blanks _) (plain_append hterminate.2.2 (plain_space
      (plain_single (isWord_intText id) _ _)))
  | send id msg =>
    obtain ⟨-, haccepted, hmsg⟩ := h
    exact plain_append (plain_blanks _) (plain_append hsend.2.2 (plain_space
      (plain_append (plain_blanks _) (plain_append (isWord_intText id).2.2 (plain_space
        ⟨hmsg, haccepted.2.2⟩)))))
  | messageTooLong => exact h.elim
  | usage => exact h.elim
  | invalid => exact h.elim

/-- The handler finds the command that was typed, with its arguments. -/
theorem execute_lineText (i : Nat) (sp : Spacing) {c : Command} (h : Typeable c) :
    execute i (lineText sp c) = some ⟨i, c.name, c⟩ := by
  obtain ⟨hhelp, hmyip, hmyport, hconnect, hlist, hterminate, hsend, hexit⟩ := isWord_cmd
  rw [execute, cutLine_plain (lineText_plain sp h)]
  cases c with
  | help =>
    rw [lineText, strtok_single hhelp]
    rfl
  | myip =>
    rw [lineText, strtok_single hmyip]
    rfl
  | myport =>
    rw [lineText, strtok_single hmyport]
    rfl
  | list =>
    rw [lineText, strtok_single hlist]
    rfl
  | exit =>
    rw [lineText, strtok_single hexit]
    rfl
  | connect ipAddr portNum =>
    obtain ⟨hip, hport⟩ := h
    rw [lineText, strtok_more hconnect, Option.map_some]
    show some (Executed.mk i .connect (parse _ .connect)) = _
    rw [parse, strtok_more hip]
    dsimp only
    rw [strtok_single (isWord_intText portNum)]
    dsimp only
    rw [atoi_intText hport]
    rfl
  | terminate id =>
    rw [lineText, strtok_more hterminate, Option.map_some]
    show some (Executed.mk i .terminate (parse _ .terminate)) = _
    rw [parse, strtok_single (isWord_intText id)]
    dsimp only
    rw [atoi_intText h]
    rfl
  | send id msg =>
    obtain ⟨hid, ⟨hne, hlength, -⟩, -⟩ := h
    rw [lineText, strtok_more hsend, Option.map_some]
    show some (Executed.mk i .send (parse _ .send)) = _
    rw [parse, strtok_more (isWord_intText id)]
    dsimp only
    rw [if_neg hne, if_neg (Nat.not_lt_of_le hlength), atoi_intText hid]
    rfl
  | messageTooLong => exact h.elim
  | usage => exact h.elim
  | invalid => exact h.elim

/-! ## Sessions -/

/-- A line somebody types that `fgets` reads in one piece. -/
structure Typed where
  command : Command
  spacing : Spacing
  typeable : Typeable command
  short : (lineText spacing command).length < lineSize

def Typed.text (t : Typed) : List Byte := lineText t.spacing t.command

/-- What is on standard input. -/
def input (ts : List Typed) : List Byte := ts.flatMap fun t => t.text ++ [newline]

/-- The commands of a session, each with the number of its line. -/
def commands (ts : List Typed) (i : Nat) : List Executed :=
  (ts.zipIdx i).map fun p => ⟨p.2, p.1.command.name, p.1.command⟩

theorem input_splitOn (ts : List Typed) :
    (input ts).splitOn newline = ts.map Typed.text ++ [[]] := by
  induction ts with
  | nil => rfl
  | cons t ts ih =>
    have hline : newline ∉ t.text := (lineText_plain t.spacing t.typeable).1
    have hinput : input (t :: ts) = t.text ++ newline :: input ts := by
      rw [input, List.flatMap_cons, List.append_assoc]
      rfl
    rw [hinput, List.splitOn_append_cons_self_of_not_mem hline, ih]
    rfl

theorem script_typed (ts : List Typed) (i : Nat) :
    script i (ts.map Typed.text ++ [[]]) = commands ts i := by
  induction ts generalizing i with
  | nil => rfl
  | cons t ts ih =>
    have hline : lineScript i t.text = [⟨i, t.command.name, t.command⟩] := by
      rw [@lineScript_short i t.text t.short, Typed.text,
        execute_lineText i t.spacing t.typeable]
      rfl
    show lineScript i t.text ++ script (i + 1) (ts.map Typed.text ++ [[]]) = _
    rw [hline, ih]
    rfl

end Commands
end Chat
end LinuxEmbedded
