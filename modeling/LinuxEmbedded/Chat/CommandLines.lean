import LinuxEmbedded.Chat.Commands

/-
Is every line one command?

`script` is what the handler runs when nothing ends the process: a command for every block
of a line that is not blank, until one of them is `exit`.
-/
namespace LinuxEmbedded
namespace Chat
namespace Commands

open Machine LineBuffer
open Framing (Byte)

/-- The command that the first word of a text chooses. -/
def chosen (text : List Byte) : Option Name := (Tokens.first isBlank text).map name

/-- The commands that were run for a line. -/
def ranFor (i : Nat) (os : List Executed) : List Name :=
  (os.filter fun e => e.line = i).map Executed.name

/-- For every line at most one command is run, the one its first word chooses. -/
def OnePerLine (lines : List (List Byte)) (os : List Executed) : Prop :=
  ∀ i, ranFor i os <+: (lines[i]?.bind chosen).toList

/-- In every run each line is one command, and no run goes on for ever. -/
structure LineByLine (input : List Byte) : Prop where
  onePerLine : ∀ as t os, run step (start input) as = some (t, os) →
    OnePerLine (input.splitOn newline) os
  bounded : ∃ n, ∀ as t os, run step (start input) as = some (t, os) → as.length ≤ n

/-- At most one of the blocks of a line has anything but blanks; of an `exit` line, only the
first of these counts, which has to have the whole word. -/
def Fits (line : List Byte) : Prop :=
  ((blocks lineSize line).filter fun b => (Tokens.first isBlank b).isSome).length ≤ 1 ∨
    chosen line = some .exit ∧ (blocks lineSize line).findSome? chosen = some .exit

instance (line : List Byte) : Decidable (Fits line) := inferInstanceAs (Decidable (_ ∨ _))

/-- There is an `exit` line, and all lines up to it fit. -/
def ExitsInTime : List (List Byte) → Prop
  | [] => False
  | line :: lines => Fits line ∧ (chosen line = some .exit ∨ ExitsInTime lines)

/-! ## One line -/

def isExit (n : Name) : Bool := n == .exit

/-- What is run for the blocks of a line. -/
def blockNames (line : List Byte) : List Name :=
  ((blocks lineSize line).filter fun b => (Tokens.first isBlank b).isSome).filterMap chosen

theorem filterMap_chosen (bs : List (List Byte)) :
    (bs.filter fun b => (Tokens.first isBlank b).isSome).filterMap chosen =
      bs.filterMap chosen := by
  rw [List.filterMap_filter]
  congr 1
  funext b
  unfold chosen
  cases Tokens.first isBlank b <;> rfl

theorem lineSize_pos : 0 < lineSize := by decide

/-- A blank line. -/
theorem chosen_of_blank {line : List Byte}
    (h : ((blocks lineSize line).filter fun b => (Tokens.first isBlank b).isSome) = []) :
    chosen line = none := by
  have hnone : ∀ b ∈ blocks lineSize line, Tokens.first isBlank b = none := by
    intro b hb
    have hsome := List.filter_eq_nil_iff.mp h b hb
    simpa using hsome
  have hline : Tokens.first isBlank line = none := by
    rw [← blocks_flatten lineSize_pos line]
    exact Tokens.first_eq_none_iff.mpr (Tokens.seps_flatten hnone)
  rw [chosen, hline]
  rfl

/-- A line with one block that is not blank. -/
theorem chosen_of_one {line b : List Byte}
    (h : ((blocks lineSize line).filter fun b => (Tokens.first isBlank b).isSome) = [b]) :
    chosen line = chosen b := by
  have hfirst := Tokens.first_flatten h
  rw [blocks_flatten lineSize_pos] at hfirst
  rw [chosen, hfirst]
  rfl

theorem findSome?_chosen (bs : List (List Byte)) :
    bs.findSome? chosen = (bs.filterMap chosen).head? := (List.head?_filterMap ..).symm

/-- Of two commands or more at most one is run only if the first is `exit`. -/
theorem upTo_exit_iff {n n' : Name} {names : List Name} {o : Option Name} :
    upTo isExit (n :: n' :: names) <+: o.toList ↔ o = some .exit ∧ n = .exit := by
  by_cases hexit : n = .exit
  · have hcut : upTo isExit (n :: n' :: names) = [.exit] := by
      rw [hexit]
      rfl
    rw [hcut, and_iff_left hexit]
    cases o with
    | none => simp
    | some m => simp [eq_comm]
  · refine iff_of_false (fun hpre => ?_) fun h => hexit h.2
    have hno : isExit n ≠ true := fun he => hexit (by simpa [isExit] using he)
    have htwo : 0 < (upTo isExit (n' :: names)).length := by
      rw [upTo]
      split <;> exact Nat.succ_pos _
    have hone : o.toList.length ≤ 1 := by
      cases o <;> simp
    have hlength := hpre.length_le
    rw [upTo, if_neg hno, List.length_cons] at hlength
    omega

/-- The blocks of a line run the command of the line and no other exactly when the line
fits. -/
theorem fits_iff (line : List Byte) :
    (Fits line ↔ upTo isExit (blockNames line) <+: (chosen line).toList) ∧
      (Fits line → upTo isExit (blockNames line) = (chosen line).toList) := by
  unfold Fits blockNames
  rw [findSome?_chosen, ← filterMap_chosen]
  cases hblocks : (blocks lineSize line).filter fun b => (Tokens.first isBlank b).isSome with
  | nil =>
    rw [chosen_of_blank hblocks]
    exact ⟨iff_of_true (Or.inl (Nat.zero_le 1)) List.prefix_rfl, fun _ => rfl⟩
  | cons b bs =>
    have hall : ∀ c ∈ b :: bs, ∃ n, chosen c = some n := by
      intro c hc
      rw [← hblocks] at hc
      obtain ⟨token, htoken⟩ := Option.isSome_iff_exists.mp (List.mem_filter.mp hc).2
      exact ⟨name token, by rw [chosen, htoken]; rfl⟩
    obtain ⟨n, hn⟩ := hall b List.mem_cons_self
    rw [List.filterMap_cons_some hn]
    cases bs with
    | nil =>
      have hsame : upTo isExit [n] = [n] := by
        rw [upTo]
        split <;> rfl
      rw [chosen_of_one hblocks, hn, List.filterMap_nil, hsame]
      exact ⟨iff_of_true (Or.inl (Nat.le_refl 1)) List.prefix_rfl, fun _ => rfl⟩
    | cons b' bs =>
      obtain ⟨n', hn'⟩ := hall b' (List.mem_cons_of_mem _ List.mem_cons_self)
      have hmany : ¬(b :: b' :: bs).length ≤ 1 := by simp
      rw [List.filterMap_cons_some hn', List.head?_cons, or_iff_right hmany, Option.some_inj,
        upTo_exit_iff]
      refine ⟨Iff.rfl, ?_⟩
      rintro ⟨hline, rfl⟩
      rw [hline]
      rfl

/-! ## All lines -/

/-- What is run for the blocks of line `i`. -/
def lineScript (i : Nat) (line : List Byte) : List Executed :=
  (blocks lineSize line).filterMap (execute i)

def script : Nat → List (List Byte) → List Executed
  | _, [] => []
  | i, line :: lines => lineScript i line ++ script (i + 1) lines

/-- The command ends the loop. -/
def Executed.exits (e : Executed) : Bool := isExit e.name

def Plain (line : List Byte) : Prop := newline ∉ line ∧ nul ∉ line

theorem cutLine_plain {text : List Byte} (h : Plain text) : cutLine text = text := by
  refine List.takeWhile_eq_self_iff.mpr fun b hb => ?_
  have hnewline : b ≠ newline := fun he => h.1 (he ▸ hb)
  have hnul : b ≠ nul := fun he => h.2 (he ▸ hb)
  simp [hnewline, hnul]

/-- The newline at the end is cut off. -/
theorem cutLine_newline (text : List Byte) : cutLine (text ++ [newline]) = cutLine text := by
  have hnone : [newline].takeWhile (fun b => b != newline && b != nul) = [] := rfl
  rw [cutLine, List.takeWhile_append, hnone, List.append_nil]
  split
  · next hall => exact ((List.takeWhile_prefix _).eq_of_length hall).symm
  · rfl

theorem execute_line {i : Nat} {text : List Byte} {e : Executed} (h : execute i text = some e) :
    e.line = i := by
  obtain ⟨p, _, rfl⟩ := Option.map_eq_some_iff.mp h
  rfl

theorem execute_name (i : Nat) {text : List Byte} (h : Plain text) :
    (execute i text).map Executed.name = chosen text := by
  rw [execute, cutLine_plain h, Option.map_map, chosen, Tokens.first, Option.map_map]
  rfl

theorem lineScript_short (i : Nat) {line : List Byte} (h : line.length < lineSize) :
    lineScript i line = (execute i line).toList := by
  rw [lineScript, blocks_short h, List.filterMap_cons]
  cases execute i line <;> rfl

theorem lineScript_long (i : Nat) {line : List Byte} (h : lineSize ≤ line.length) :
    lineScript i line =
      (execute i (line.take lineSize)).toList ++ lineScript i (line.drop lineSize) := by
  rw [lineScript, blocks_long lineSize_pos h, List.filterMap_cons]
  cases execute i (line.take lineSize) <;> rfl

theorem lineScript_line {i : Nat} {line : List Byte} :
    ∀ e ∈ lineScript i line, e.line = i := by
  intro e he
  obtain ⟨b, _, hb⟩ := List.mem_filterMap.mp he
  exact execute_line hb

theorem le_script_line {i : Nat} {lines : List (List Byte)} :
    ∀ e ∈ script i lines, i ≤ e.line := by
  induction lines generalizing i with
  | nil => simp [script]
  | cons line lines ih =>
    intro e he
    rcases List.mem_append.mp he with he | he
    · exact Nat.le_of_eq (lineScript_line e he).symm
    · exact (Nat.le_succ i).trans (ih e he)

theorem lineScript_names (i : Nat) {line : List Byte} (h : Plain line) :
    (lineScript i line).map Executed.name = blockNames line := by
  have hblock : ∀ b ∈ blocks lineSize line, Plain b := by
    intro b hb
    have hmem : ∀ x ∈ b, x ∈ line := by
      intro x hx
      rw [← blocks_flatten lineSize_pos line]
      exact List.mem_flatten_of_mem hb hx
    exact ⟨fun hx => h.1 (hmem _ hx), fun hx => h.2 (hmem _ hx)⟩
  rw [blockNames, filterMap_chosen, lineScript, List.map_filterMap]
  exact List.filterMap_congr fun b hb => execute_name i (hblock b hb)

/-- What one line contributes to the commands for line `k`. -/
theorem ranFor_of_line {i k : Nat} {os : List Executed} (h : ∀ e ∈ os, e.line = i) :
    ranFor k os = if i = k then os.map Executed.name else [] := by
  unfold ranFor
  by_cases hk : i = k
  · rw [if_pos hk, List.filter_eq_self.mpr]
    intro e he
    rw [h e he]
    exact decide_eq_true hk
  · rw [if_neg hk, List.filter_eq_nil_iff.mpr]
    · rfl
    · intro e he
      rw [h e he]
      simpa using hk

theorem ranFor_append (k : Nat) (os os' : List Executed) :
    ranFor k (os ++ os') = ranFor k os ++ ranFor k os' := by
  rw [ranFor, List.filter_append, List.map_append]
  rfl

theorem ranFor_eq_nil {k : Nat} {os : List Executed} (h : ∀ e ∈ os, k < e.line) :
    ranFor k os = [] := by
  rw [ranFor, List.filter_eq_nil_iff.mpr]
  · rfl
  · intro e he
    have hlt := h e he
    simp only [decide_eq_true_eq]
    omega

/-- A line with an `exit` in it is the last one. -/
theorem script_exit {i : Nat} {line : List Byte} (lines : List (List Byte)) (hline : Plain line)
    (hexit : ∃ e ∈ lineScript i line, e.exits = true) :
    (∃ e ∈ upTo Executed.exits (script i (line :: lines)), e.exits = true) ∧
      ∀ k, ranFor (i + k) (upTo Executed.exits (script i (line :: lines))) =
        if k = 0 then upTo isExit (blockNames line) else [] := by
  obtain ⟨e, he, hexits⟩ := hexit
  obtain ⟨hcut, e', he', hexits'⟩ := upTo_append_of_mem he hexits (script (i + 1) lines)
  have hof : ∀ e ∈ upTo Executed.exits (lineScript i line), e.line = i :=
    fun e he => lineScript_line e ((upTo_initial _).subset he)
  rw [script, hcut]
  refine ⟨⟨e', he', hexits'⟩, fun k => ?_⟩
  rw [ranFor_of_line hof, ← lineScript_names i hline]
  by_cases hk : k = 0
  · rw [if_pos (by omega), if_pos hk]
    exact upTo_map Executed.name _
  · rw [if_neg (by omega), if_neg hk]

/-- After a line without one the script goes on with the next. -/
theorem script_goesOn {i : Nat} {line : List Byte} (lines : List (List Byte))
    (hline : Plain line) (hnone : ∀ e ∈ lineScript i line, e.exits = false) :
    ((∃ e ∈ upTo Executed.exits (script i (line :: lines)), e.exits = true) ↔
        ∃ e ∈ upTo Executed.exits (script (i + 1) lines), e.exits = true) ∧
      ranFor i (upTo Executed.exits (script i (line :: lines))) =
        upTo isExit (blockNames line) ∧
      ∀ k, ranFor (i + (k + 1)) (upTo Executed.exits (script i (line :: lines))) =
        ranFor (i + 1 + k) (upTo Executed.exits (script (i + 1) lines)) := by
  have hlater : ∀ e ∈ upTo Executed.exits (script (i + 1) lines), i + 1 ≤ e.line :=
    fun e he => le_script_line e ((upTo_initial _).subset he)
  have hnames : (lineScript i line).map Executed.name = upTo isExit (blockNames line) := by
    rw [← lineScript_names i hline, ← upTo_map Executed.name]
    congr 1
    exact (upTo_eq_self hnone).symm
  rw [script, upTo_append hnone]
  refine ⟨?_, ?_, ?_⟩
  · constructor
    · rintro ⟨e, he, hexits⟩
      rcases List.mem_append.mp he with he | he
      · rw [hnone e he] at hexits
        cases hexits
      · exact ⟨e, he, hexits⟩
    · rintro ⟨e, he, hexits⟩
      exact ⟨e, List.mem_append_right _ he, hexits⟩
  · rw [ranFor_append, ranFor_of_line lineScript_line, if_pos rfl, hnames,
      ranFor_eq_nil fun e he => hlater e he, List.append_nil]
  · intro k
    rw [ranFor_append, ranFor_of_line lineScript_line, if_neg (by omega), List.nil_append,
      show i + (k + 1) = i + 1 + k by omega]

/-- What is run for a line that fits has an `exit` if the line chooses it. -/
theorem exit_of_fits {i : Nat} {line : List Byte} (hline : Plain line) (hfit : Fits line) :
    chosen line = some .exit ↔ ∃ e ∈ lineScript i line, e.exits = true := by
  have hexact := (fits_iff line).2 hfit
  rw [← lineScript_names i hline] at hexact
  have hmem : Name.exit ∈ upTo isExit ((lineScript i line).map Executed.name) ↔
      ∃ e ∈ lineScript i line, e.exits = true := by
    constructor
    · intro hname
      obtain ⟨e, he, hname⟩ := List.mem_map.mp ((upTo_initial _).subset hname)
      exact ⟨e, he, by rw [Executed.exits, hname]; rfl⟩
    · rintro ⟨e, he, hexits⟩
      have hname : isExit e.name = true := hexits
      obtain ⟨_, n, hn, hexit⟩ := upTo_append_of_mem (List.mem_map_of_mem he) hname []
      obtain rfl : n = .exit := by simpa [isExit] using hexit
      exact hn
  rw [← hmem, hexact, Option.mem_toList]

/-- All that is run is one command for each line, and it comes to an `exit`, exactly when the
lines fit up to an `exit` line. -/
theorem script_iff {lines : List (List Byte)} (h : ∀ line ∈ lines, Plain line) (i : Nat) :
    ((∀ k, ranFor (i + k) (upTo Executed.exits (script i lines)) <+:
        (lines[k]?.bind chosen).toList) ∧
      ∃ e ∈ upTo Executed.exits (script i lines), e.exits = true) ↔ ExitsInTime lines := by
  induction lines generalizing i with
  | nil =>
    refine iff_of_false ?_ id
    rintro ⟨_, e, he, _⟩
    cases he
  | cons line lines ih =>
    obtain ⟨hline, hlines⟩ := List.forall_mem_cons.mp h
    have hfits := (fits_iff line).1
    show _ ↔ Fits line ∧ _
    by_cases hexit : ∃ e ∈ lineScript i line, e.exits = true
    · obtain ⟨hends, hran⟩ := script_exit lines hline hexit
      constructor
      · rintro ⟨hall, _⟩
        have hfirst := hall 0
        rw [hran 0, if_pos rfl] at hfirst
        have hfit : Fits line := hfits.mpr hfirst
        exact ⟨hfit, Or.inl ((exit_of_fits hline hfit).mpr hexit)⟩
      · rintro ⟨hfit, _⟩
        refine ⟨fun k => ?_, hends⟩
        rw [hran k]
        cases k with
        | zero => exact hfits.mp hfit
        | succ k => exact List.nil_prefix
    · have hnone : ∀ e ∈ lineScript i line, e.exits = false := by
        intro e he
        rw [← Bool.not_eq_true]
        exact fun hexits => hexit ⟨e, he, hexits⟩
      obtain ⟨hends, hfirst, hran⟩ := script_goesOn lines hline hnone
      have hrest := ih hlines (i + 1)
      rw [hends]
      constructor
      · rintro ⟨hall, hexits⟩
        have hzero := hall 0
        rw [Nat.add_zero, hfirst] at hzero
        refine ⟨hfits.mpr hzero, Or.inr (hrest.mp ⟨fun k => ?_, hexits⟩)⟩
        rw [← hran k]
        exact hall (k + 1)
      · rintro ⟨hfit, hcase⟩
        have hother : chosen line ≠ some .exit := fun he =>
          hexit ((exit_of_fits hline hfit).mp he)
        obtain ⟨hall, hexits⟩ := hrest.mpr (hcase.resolve_left hother)
        refine ⟨fun k => ?_, hexits⟩
        cases k with
        | zero =>
          rw [Nat.add_zero, hfirst]
          exact hfits.mp hfit
        | succ k =>
          rw [hran k]
          exact hall k

/-! ## The loop -/

/-- What the handler would run if nothing else ended the process. -/
def Ui.script (s : Ui) : List Executed := Commands.script s.line (s.input.splitOn newline)

/-- What a turn does. -/
theorem step_cases {s t : Ui} {survives : Bool} {os : List Executed}
    (h : step s survives = some (t, os)) : s.running = true ∧
      (s.input = [] ∧ t = { s with running := survives } ∧ os = [] ∨
        ∃ executed : Option Executed, os = executed.toList ∧
          t.input.length < s.input.length ∧ s.script = executed.toList ++ t.script ∧
          t.running = (survives && executed.all fun e => !e.exits)) := by
  unfold step at h
  by_cases hrunning : s.running = true
  · rw [if_pos hrunning] at h
    refine ⟨hrunning, ?_⟩
    by_cases hne : s.input = []
    · left
      have hgets : gets lineSize newline s.input = none := if_pos hne
      rw [hgets] at h
      obtain ⟨rfl, rfl⟩ := Prod.mk.inj (Option.some.inj h)
      exact ⟨hne, rfl, rfl⟩
    · right
      obtain ⟨piece, rest, line, lines, hgets, hsplit, hline, hlt, hcase⟩ :=
        gets_cases lineSize_pos newline hne
      rw [hgets] at h
      obtain ⟨rfl, rfl⟩ := Prod.mk.inj (Option.some.inj h)
      refine ⟨execute s.line piece, rfl, hlt, ?_, rfl⟩
      unfold Ui.script
      rw [hsplit]
      rcases hcase with ⟨hlong, rfl, hrest⟩ | ⟨hshort, rfl, hrest⟩ | ⟨hshort, rfl, rfl, rfl⟩
      · -- the rest of the line is still line `s.line`
        have hcount : (line.take lineSize).count newline = 0 :=
          List.count_eq_zero.mpr fun hmem => hline (List.mem_of_mem_take hmem)
        rw [hrest, hcount, Nat.add_zero]
        show lineScript s.line line ++ _ = _ ++ (lineScript s.line _ ++ _)
        rw [lineScript_long s.line hlong, List.append_assoc]
      · have hcount : (line ++ [newline]).count newline = 1 := by
          rw [List.count_append, List.count_eq_zero.mpr hline]
          rfl
        have hsame : execute s.line (line ++ [newline]) = execute s.line line := by
          rw [execute, cutLine_newline]
          rfl
        rw [hrest, hcount, hsame]
        show lineScript s.line line ++ _ = _ ++ _
        rw [lineScript_short s.line hshort]
      · have hcount : piece.count newline = 0 := List.count_eq_zero.mpr hline
        have hnone : lineScript s.line [] = [] := rfl
        rw [hcount, Nat.add_zero, List.splitOn_nil]
        show lineScript s.line piece ++ [] = _ ++ (lineScript s.line [] ++ [])
        rw [hnone, lineScript_short s.line hshort]
        rfl
  · rw [if_neg hrunning] at h
    cases h

theorem run_stopped {s t : Ui} (hstopped : s.running = false) {as : List Bool}
    {os : List Executed} (h : run step s as = some (t, os)) : t = s ∧ os = [] := by
  cases as with
  | nil =>
    obtain ⟨rfl, rfl⟩ := Prod.mk.inj (Option.some.inj h)
    exact ⟨rfl, rfl⟩
  | cons a as =>
    obtain ⟨u, _, _, hstep, _⟩ := run_cons_eq_some.mp h
    rw [(step_cases hstep).1] at hstopped
    cases hstopped

/-- Everything that was run is in the script, and the loop goes on after it until an `exit`. -/
theorem run_script {s t : Ui} {as : List Bool} {os : List Executed}
    (h : run step s as = some (t, os)) :
    os <+: upTo Executed.exits s.script ∧
      (t.running = true → s.script = os ++ t.script ∧ ∀ e ∈ os, e.exits = false) := by
  induction as generalizing s os with
  | nil =>
    obtain ⟨rfl, rfl⟩ := Prod.mk.inj (Option.some.inj h)
    exact ⟨List.nil_prefix, fun _ => ⟨rfl, by simp⟩⟩
  | cons a as ih =>
    obtain ⟨u, _, os, hstep, hrun, rfl⟩ := run_cons_eq_some.mp h
    obtain ⟨hpre, hgoes⟩ := ih hrun
    obtain ⟨_, ⟨_, rfl, rfl⟩ | ⟨executed, rfl, _, hscript, hrunning⟩⟩ := step_cases hstep
    · exact ⟨hpre, hgoes⟩
    · rw [hscript]
      cases executed with
      | none => exact ⟨hpre, hgoes⟩
      | some e =>
        show e :: os <+: upTo _ (e :: u.script) ∧ (_ → e :: u.script = e :: os ++ t.script ∧ _)
        rw [upTo]
        by_cases hexits : e.exits = true
        · -- the loop is over, so nothing is run after it
          have hstopped : u.running = false := by
            rw [hrunning, Option.all_some, hexits, Bool.not_true, Bool.and_false]
          obtain ⟨rfl, rfl⟩ := run_stopped hstopped hrun
          rw [if_pos hexits]
          refine ⟨List.prefix_rfl, fun ht => ?_⟩
          rw [hstopped] at ht
          cases ht
        · rw [if_neg hexits]
          refine ⟨List.cons_prefix_cons.mpr ⟨rfl, hpre⟩, fun ht => ?_⟩
          obtain ⟨hrest, hno⟩ := hgoes ht
          exact ⟨by rw [hrest]; rfl, List.forall_mem_cons.mpr ⟨by simpa using hexits, hno⟩⟩

/-- If nothing else ends the process, the script is run, to an `exit` or the end of the
input. -/
theorem exists_run {s : Ui} (hrunning : s.running = true) :
    ∃ n t, run step s (List.replicate n true) = some (t, upTo Executed.exits s.script) ∧
      (t.running = true ∧ t.input = [] ∨
        ∃ e ∈ upTo Executed.exits s.script, e.exits = true) := by
  induction hlength : s.input.length using Nat.strongRecOn generalizing s with
  | _ m ih =>
    by_cases hnil : s.input = []
    · have hscript : s.script = [] := by
        rw [Ui.script, hnil]
        rfl
      exact ⟨0, s, by rw [hscript]; rfl, Or.inl ⟨hrunning, hnil⟩⟩
    · obtain ⟨⟨u, os⟩, hstep⟩ : ∃ r, step s true = some r := by
        obtain ⟨piece, rest, _, _, hgets, _⟩ := gets_cases lineSize_pos newline hnil
        exact ⟨_, by rw [step, if_pos hrunning, hgets]⟩
      obtain ⟨_, ⟨hinput, _⟩ | ⟨executed, rfl, hlt, hscript, hrun⟩⟩ := step_cases hstep
      · exact absurd hinput hnil
      · have hgo := fun hu : u.running = true => ih u.input.length (hlength ▸ hlt) hu rfl
        rw [hscript]
        cases executed with
        | none =>
          obtain ⟨n, t, hrest, hend⟩ := hgo hrun
          exact ⟨n + 1, t, run_cons_eq_some.mpr ⟨u, [], _, hstep, hrest, rfl⟩, hend⟩
        | some e =>
          have hone : upTo Executed.exits ((some e).toList ++ u.script) =
              if e.exits then [e] else e :: upTo Executed.exits u.script := rfl
          rw [hone]
          rw [Option.all_some, Bool.true_and] at hrun
          by_cases hexits : e.exits = true
          · rw [if_pos hexits]
            exact ⟨1, u, run_single hstep, Or.inr ⟨e, List.mem_singleton_self e, hexits⟩⟩
          · rw [if_neg hexits]
            obtain ⟨n, t, hrest, hend⟩ := hgo (by rw [hrun]; simpa using hexits)
            refine ⟨n + 1, t, run_cons_eq_some.mpr ⟨u, [e], _, hstep, hrest, rfl⟩, ?_⟩
            rcases hend with hend | ⟨e', he', hexits'⟩
            · exact Or.inl hend
            · exact Or.inr ⟨e', List.mem_cons_of_mem _ he', hexits'⟩

/-- At the end of the input the loop turns for ever. -/
theorem run_end {s : Ui} (hrunning : s.running = true) (hinput : s.input = []) (n : Nat) :
    run step s (List.replicate n true) = some (s, []) := by
  induction n with
  | zero => rfl
  | succ n ih =>
    have hgets : gets lineSize newline s.input = none := if_pos hinput
    have hstep : step s true = some (s, []) := by
      rw [step, if_pos hrunning, hgets]
      cases s
      cases hrunning
      rfl
    exact run_cons_eq_some.mpr ⟨s, [], [], hstep, ih, rfl⟩

/-- Once the script has an `exit`, every turn reads something. -/
theorem run_length {s t : Ui} {as : List Bool} {os : List Executed}
    (hexit : ∃ e ∈ s.script, e.exits = true) (h : run step s as = some (t, os)) :
    as.length ≤ s.input.length := by
  have hall : as.length + t.input.length ≤ s.input.length := by
    refine run_induction (P := fun as _ t => as.length + t.input.length ≤ s.input.length)
      (Nat.le_of_eq (Nat.zero_add _)) ?_ h
    intro as os u a t os' hrun ih hstep
    obtain ⟨hrunning, ⟨hinput, _⟩ | ⟨_, _, hlt, _⟩⟩ := step_cases hstep
    · -- all was run, and there was no `exit`
      obtain ⟨hscript, hno⟩ := (run_script hrun).2 hrunning
      have hnil : u.script = [] := by
        rw [Ui.script, hinput]
        rfl
      obtain ⟨e, he, hexits⟩ := hexit
      rw [hscript, hnil, List.append_nil] at he
      rw [hno e he] at hexits
      cases hexits
    · rw [List.length_append, List.length_singleton]
      omega
  omega

/-- Each line is one command and the loop ends exactly when the lines fit up to an `exit`
line. -/
theorem lineByLine_iff {input : List Byte} (hnul : nul ∉ input) :
    LineByLine input ↔ ExitsInTime (input.splitOn newline) := by
  have hplain : ∀ line ∈ input.splitOn newline, Plain line := by
    intro line hline
    obtain ⟨hnewline, hmem⟩ := mem_split hline
    exact ⟨hnewline, fun hb => hnul (hmem nul hb)⟩
  have hiff := script_iff hplain 0
  simp only [Nat.zero_add] at hiff
  rw [← hiff]
  constructor
  · rintro ⟨hone, n, hbounded⟩
    obtain ⟨m, t, hrun, hend⟩ := exists_run (s := start input) rfl
    refine ⟨hone _ t _ hrun, ?_⟩
    rcases hend with ⟨hrunning, hinput⟩ | hexit
    · have hlong := hbounded _ t _
        (run_append_eq_some.mpr ⟨t, _, [], hrun, run_end hrunning hinput (n + 1), rfl⟩)
      rw [List.length_append, List.length_replicate, List.length_replicate] at hlong
      omega
    · exact hexit
  · rintro ⟨hone, e, he, hexits⟩
    refine ⟨?_, input.length, ?_⟩
    · intro as t os hrun i
      obtain ⟨rest, hrest⟩ := (run_script hrun).1
      have hi := hone i
      show ranFor i os <+: _
      have happend : upTo Executed.exits (script 0 (input.splitOn newline)) = os ++ rest :=
        hrest.symm
      rw [happend, ranFor_append] at hi
      exact (List.prefix_append _ _).trans hi
    · intro as t os hrun
      exact run_length ⟨e, (upTo_initial _).subset he, hexits⟩ hrun

/-- `hi`, and `exit`. -/
theorem lineByLine_iff_hi : LineByLine [104, 105, 10, 101, 120, 105, 116, 10] :=
  (lineByLine_iff (by decide)).mpr ⟨by decide, Or.inr ⟨by decide, Or.inl (by decide)⟩⟩

/-- A line that ends in the word `exit`, after as many bytes as `fgets` has room for. -/
def longLine : List Byte := List.replicate lineSize 120 ++ cmdExit ++ [newline]

/-- The end of the long line is run as a command, and the loop goes on at the end of an empty
input. -/
theorem longLine_exits :
    (∃ t, run step (start longLine) [true, true] =
        some (t, [⟨0, .invalid, .invalid⟩, ⟨0, .exit, .exit⟩]) ∧ t.running = false) ∧
      ¬LineByLine longLine ∧
      (∀ n, run step (start []) (List.replicate n true) = some (start [], [])) ∧
      ¬LineByLine [] := by
  have hrun : run step (start longLine) [true, true] =
      some (⟨[], 1, false⟩, [⟨0, .invalid, .invalid⟩, ⟨0, .exit, .exit⟩]) := by decide +kernel
  refine ⟨⟨_, hrun, rfl⟩, ?_, run_end rfl rfl, ?_⟩
  · intro h
    have hlength := (h.onePerLine _ _ _ hrun 0).length_le
    have hone : ((longLine.splitOn newline)[0]?.bind chosen).toList.length ≤ 1 := by
      cases (longLine.splitOn newline)[0]?.bind chosen <;> simp
    have htwo : (ranFor 0 [⟨0, .invalid, .invalid⟩, ⟨0, .exit, .exit⟩]).length = 2 := rfl
    omega
  · rintro ⟨_, n, hbounded⟩
    have hlong := hbounded _ _ _ (run_end (s := start []) rfl rfl (n + 1))
    rw [List.length_replicate] at hlong
    omega

end Commands
end Chat
end LinuxEmbedded
