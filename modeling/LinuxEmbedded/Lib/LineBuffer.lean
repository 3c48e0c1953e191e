import Mathlib.Data.List.Basic

/-
Lines read through a buffer.

C's `fgets` returns a line with its newline when both fit, and otherwise as many cells as
there is room for; what is left of the line is returned by the calls after it.
-/
namespace LinuxEmbedded
namespace LineBuffer

variable {α : Type}

/-! ## Blocks -/

/-- The first argument bounds the number of blocks. -/
def blocksLoop (n : Nat) : Nat → List α → List (List α)
  | 0, line => [line]
  | fuel + 1, line =>
    if line.length < n then [line] else line.take n :: blocksLoop n fuel (line.drop n)

/-- A line in blocks of `n` cells; the last one is shorter and may be empty. -/
def blocks (n : Nat) (line : List α) : List (List α) := blocksLoop n line.length line

theorem blocksLoop_eq {n : Nat} (hn : 0 < n) {fuel : Nat} {line : List α}
    (h : line.length ≤ fuel) : blocksLoop n fuel line = blocks n line := by
  have hall : ∀ a b (l : List α), l.length ≤ a → l.length ≤ b →
      blocksLoop n a l = blocksLoop n b l := by
    intro a
    induction a with
    | zero =>
      intro b l ha _
      cases b with
      | zero => rfl
      | succ b => rw [blocksLoop, blocksLoop, if_pos (by omega)]
    | succ a ih =>
      intro b l ha hb
      cases b with
      | zero => rw [blocksLoop, blocksLoop, if_pos (by omega)]
      | succ b =>
        rw [blocksLoop, blocksLoop]
        by_cases hlt : l.length < n
        · rw [if_pos hlt, if_pos hlt]
        · rw [if_neg hlt, if_neg hlt, ih b _ (by rw [List.length_drop]; omega)
            (by rw [List.length_drop]; omega)]
  exact hall fuel line.length line h (Nat.le_refl _)

theorem blocks_short {n : Nat} {line : List α} (h : line.length < n) : blocks n line = [line] := by
  rw [blocks]
  cases hlength : line.length with
  | zero => rfl
  | succ k => rw [blocksLoop, if_pos h]

theorem blocks_long {n : Nat} (hn : 0 < n) {line : List α} (h : n ≤ line.length) :
    blocks n line = line.take n :: blocks n (line.drop n) := by
  have hlength : line.length = line.length - 1 + 1 := by omega
  rw [blocks, hlength, blocksLoop, if_neg (by omega), blocksLoop_eq hn]
  rw [List.length_drop]
  omega

theorem blocks_flatten {n : Nat} (hn : 0 < n) (line : List α) :
    (blocks n line).flatten = line := by
  have hall : ∀ m (l : List α), l.length ≤ m → (blocks n l).flatten = l := by
    intro m
    induction m with
    | zero =>
      intro l hl
      rw [blocks_short (by omega)]
      exact List.append_nil l
    | succ m ih =>
      intro l hl
      by_cases hlt : l.length < n
      · rw [blocks_short hlt]
        exact List.append_nil l
      · rw [blocks_long hn (by omega), List.flatten_cons, ih _ (by rw [List.length_drop]; omega),
          List.take_append_drop]
  exact hall line.length line (Nat.le_refl _)

/-! ## The cells up to a mark -/

/-- The cells up to the first one with `p`, and that one. -/
def upTo (p : α → Bool) : List α → List α
  | [] => []
  | x :: xs => if p x then [x] else x :: upTo p xs

variable {p : α → Bool}

theorem upTo_initial (xs : List α) : upTo p xs <+: xs := by
  induction xs with
  | nil => exact List.prefix_rfl
  | cons x xs ih =>
    rw [upTo]
    split
    · exact ⟨xs, rfl⟩
    · exact List.cons_prefix_cons.mpr ⟨rfl, ih⟩

/-- The mark is not in the first part. -/
theorem upTo_append {xs : List α} (h : ∀ x ∈ xs, p x = false) (ys : List α) :
    upTo p (xs ++ ys) = xs ++ upTo p ys := by
  induction xs with
  | nil => rfl
  | cons x xs ih =>
    obtain ⟨hx, hxs⟩ := List.forall_mem_cons.mp h
    rw [List.cons_append, upTo, if_neg (by simp [hx]), ih hxs]
    rfl

theorem upTo_eq_self {xs : List α} (h : ∀ x ∈ xs, p x = false) : upTo p xs = xs := by
  have happend := upTo_append h []
  rwa [List.append_nil, upTo, List.append_nil] at happend

/-- The mark is in the first part. -/
theorem upTo_append_of_mem {xs : List α} {x : α} (hx : x ∈ xs) (hp : p x = true) (ys : List α) :
    upTo p (xs ++ ys) = upTo p xs ∧ ∃ y ∈ upTo p xs, p y = true := by
  induction xs with
  | nil => cases hx
  | cons z zs ih =>
    rw [List.cons_append, upTo, upTo]
    by_cases hz : p z = true
    · rw [if_pos hz, if_pos hz]
      exact ⟨rfl, z, List.mem_singleton_self z, hz⟩
    · rw [if_neg hz, if_neg hz]
      have hmem : x ∈ zs := by
        rcases List.mem_cons.mp hx with rfl | hmem
        · exact absurd hp hz
        · exact hmem
      obtain ⟨hsame, y, hy, hpy⟩ := ih hmem
      exact ⟨by rw [hsame], y, List.mem_cons_of_mem _ hy, hpy⟩

theorem upTo_map {β : Type} (f : β → α) (xs : List β) :
    (upTo (fun x => p (f x)) xs).map f = upTo p (xs.map f) := by
  induction xs with
  | nil => rfl
  | cons x xs ih =>
    rw [List.map_cons, upTo, upTo]
    by_cases hx : p (f x) = true
    · rw [if_pos hx, if_pos hx]
      rfl
    · rw [if_neg hx, if_neg hx, List.map_cons, ih]

/-! ## Calls -/

variable [DecidableEq α]

/-- One call of `fgets` with room for `n` cells: what is read, and what is left. -/
def gets (n : Nat) (nl : α) (input : List α) : Option (List α × List α) :=
  let piece := (upTo (· == nl) input).take n
  if input = [] then none else some (piece, input.drop piece.length)

/-- The first line of a text, and the lines after it. -/
theorem split_cases (nl : α) (input : List α) :
    ∃ line, nl ∉ line ∧ (input = line ∧ input.splitOn nl = [line] ∨
      ∃ rest, input = line ++ nl :: rest ∧ input.splitOn nl = line :: rest.splitOn nl) := by
  by_cases hmem : nl ∈ input
  · obtain ⟨line, rest, rfl, hline⟩ := List.eq_append_cons_of_mem hmem
    exact ⟨line, hline, Or.inr ⟨rest, rfl, List.splitOn_append_cons_self_of_not_mem hline rest⟩⟩
  · exact ⟨input, hmem, Or.inl ⟨rfl, List.splitOn_eq_singleton hmem⟩⟩

/-- A line has no newline, and its cells are those of the text. -/
theorem mem_split {nl : α} {input line : List α} (h : line ∈ input.splitOn nl) :
    nl ∉ line ∧ ∀ x ∈ line, x ∈ input := by
  induction hlength : input.length using Nat.strongRecOn generalizing input with
  | _ n ih =>
    obtain ⟨first, hfirst, ⟨rfl, hsplit⟩ | ⟨rest, rfl, hsplit⟩⟩ := split_cases nl input
    · rw [hsplit] at h
      obtain rfl := List.mem_singleton.mp h
      exact ⟨hfirst, fun x hx => hx⟩
    · rw [hsplit] at h
      rcases List.mem_cons.mp h with rfl | h
      · exact ⟨hfirst, fun x hx => List.mem_append_left _ hx⟩
      · have hlt : rest.length < n := by
          rw [← hlength, List.length_append, List.length_cons]
          omega
        obtain ⟨hline, hmem⟩ := ih rest.length hlt h rfl
        exact ⟨hline, fun x hx => List.mem_append_right _ (List.mem_cons_of_mem _ (hmem x hx))⟩

section Call

variable {n : Nat} {nl : α} {line : List α} (hline : nl ∉ line)
include hline

theorem not_mark : ∀ x ∈ line, (x == nl) = false := by
  intro x hx
  rw [beq_eq_false_iff_ne]
  rintro rfl
  exact hline hx

/-- In the last line, which has no newline. -/
theorem gets_last (hne : line ≠ []) : gets n nl line = some (line.take n, line.drop n) := by
  have hupTo : upTo (· == nl) line = line := upTo_eq_self (not_mark hline)
  rw [gets, if_neg hne, hupTo]
  by_cases hlong : n ≤ line.length
  · rw [List.length_take, Nat.min_eq_left hlong]
  · rw [List.take_of_length_le (by omega), List.drop_length, List.drop_eq_nil_of_le (by omega)]

/-- In a line that does not fit. -/
theorem gets_long (hlong : n ≤ line.length) (rest : List α) :
    gets n nl (line ++ nl :: rest) = some (line.take n, line.drop n ++ nl :: rest) := by
  have hupTo : upTo (· == nl) (line ++ nl :: rest) = line ++ [nl] := by
    rw [upTo_append (not_mark hline), upTo, if_pos (beq_self_eq_true nl)]
  have hne : line ++ nl :: rest ≠ [] := by simp
  rw [gets, if_neg hne, hupTo, List.take_append_of_le_length hlong, List.length_take,
    Nat.min_eq_left hlong, List.drop_append_of_le_length hlong]

/-- In a line that fits with its newline. -/
theorem gets_short (hshort : line.length < n) (rest : List α) :
    gets n nl (line ++ nl :: rest) = some (line ++ [nl], rest) := by
  have hupTo : upTo (· == nl) (line ++ nl :: rest) = line ++ [nl] := by
    rw [upTo_append (not_mark hline), upTo, if_pos (beq_self_eq_true nl)]
  have hne : line ++ nl :: rest ≠ [] := by simp
  have htake : (line ++ [nl]).take n = line ++ [nl] := by
    refine List.take_of_length_le ?_
    rw [List.length_append, List.length_singleton]
    omega
  have hassoc : line ++ nl :: rest = line ++ [nl] ++ rest := List.append_cons ..
  rw [gets, if_neg hne, hupTo, htake, hassoc, List.drop_left]

end Call

/-- A call returns the first block of the line it is in, with the newline if there is room
for it; the next call goes on after that. -/
theorem gets_cases {n : Nat} (hn : 0 < n) (nl : α) {input : List α} (hne : input ≠ []) :
    ∃ piece rest line lines, gets n nl input = some (piece, rest) ∧
      input.splitOn nl = line :: lines ∧ nl ∉ line ∧ rest.length < input.length ∧
      (n ≤ line.length ∧ piece = line.take n ∧ rest.splitOn nl = line.drop n :: lines ∨
        line.length < n ∧ piece = line ++ [nl] ∧ rest.splitOn nl = lines ∨
        line.length < n ∧ piece = line ∧ lines = [] ∧ rest = []) := by
  obtain ⟨line, hline, hsplit⟩ := split_cases nl input
  have hdrop : nl ∉ line.drop n := fun hmem => hline (List.mem_of_mem_drop hmem)
  rcases hsplit with ⟨rfl, hsplit⟩ | ⟨rest, rfl, hsplit⟩
  · have hpos : 0 < input.length := List.length_pos_of_ne_nil hne
    refine ⟨_, _, input, [], gets_last hline hne, hsplit, hline, ?_, ?_⟩
    · rw [List.length_drop]
      omega
    · by_cases hlong : n ≤ input.length
      · exact Or.inl ⟨hlong, rfl, List.splitOn_eq_singleton hdrop⟩
      · exact Or.inr (Or.inr ⟨by omega, List.take_of_length_le (by omega), rfl,
          List.drop_eq_nil_of_le (by omega)⟩)
  · by_cases hlong : n ≤ line.length
    · refine ⟨_, _, line, rest.splitOn nl, gets_long hline hlong rest, hsplit, hline, ?_,
        Or.inl ⟨hlong, rfl, List.splitOn_append_cons_self_of_not_mem hdrop rest⟩⟩
      rw [List.length_append, List.length_append, List.length_drop]
      omega
    · have hshort : line.length < n := Nat.lt_of_not_le hlong
      refine ⟨_, _, line, rest.splitOn nl, gets_short hline hshort rest, hsplit, hline, ?_,
        Or.inr (Or.inl ⟨hshort, rfl, rfl⟩)⟩
      rw [List.length_append, List.length_cons]
      omega

end LineBuffer
end LinuxEmbedded
