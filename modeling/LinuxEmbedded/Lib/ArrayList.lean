import Mathlib.Data.List.Basic

/-
A list kept in the first cells of an array.

An array of fixed length and a count hold a list: append writes the next cell,
deletion moves the later cells down by one, cell by cell.  What lies past the
count is garbage.
-/
namespace LinuxEmbedded
namespace ArrayList

variable {α : Type}

/-- `l` is in the first `count` cells. -/
structure Holds (cells : List α) (count : Nat) (l : List α) : Prop where
  count_le : count ≤ cells.length
  take_eq : cells.take count = l

/-- Move `n` cells down by one, the first of them into cell `i`. -/
def shiftDown (cells : List α) (i : Nat) : Nat → Option (List α)
  | 0 => some cells
  | n + 1 => cells[i + 1]?.bind fun x => shiftDown (cells.set i x) (i + 1) n

/-- Write cell `i`, if there is one. -/
def store (cells : List α) (i : Nat) (x : α) : Option (List α) :=
  if i < cells.length then some (cells.set i x) else none

/-- The first of the `n` cells from `i` on that satisfies `p`. -/
def search (p : α → Bool) (cells : List α) : Nat → Nat → Option (Option Nat)
  | _, 0 => some none
  | i, n + 1 => cells[i]?.bind fun x => if p x then some (some i) else search p cells (i + 1) n

/-- What a loop over the `n` cells from `i` on finds in them. -/
def scan (cells : List α) : Nat → Nat → Option (List α)
  | _, 0 => some []
  | i, n + 1 => cells[i]?.bind fun x => (scan cells (i + 1) n).map (x :: ·)

variable {cells : List α} {count : Nat} {l : List α}

theorem holds_zero (cells : List α) : Holds cells 0 [] := ⟨Nat.zero_le _, List.take_zero⟩

theorem Holds.length_eq (h : Holds cells count l) : l.length = count := by
  have hle := h.count_le
  rw [← h.take_eq, List.length_take]
  omega

theorem Holds.getElem? (h : Holds cells count l) {i : Nat} (hi : i < count) :
    cells[i]? = l[i]? := by
  rw [← h.take_eq, List.getElem?_take_of_lt hi]

theorem Holds.append (h : Holds cells count l) (hroom : count < cells.length) (x : α) :
    Holds (cells.set count x) (count + 1) (l ++ [x]) := by
  have hlen : count < (cells.set count x).length := by
    rw [List.length_set]
    exact hroom
  refine ⟨hlen, ?_⟩
  rw [List.take_succ_eq_append_getElem hlen, List.getElem_set_self,
    List.take_set_of_le (Nat.le_refl count), h.take_eq]

theorem Holds.set (h : Holds cells count l) (i : Nat) (x : α) :
    Holds (cells.set i x) count (l.set i x) := by
  have hle := h.count_le
  refine ⟨by rw [List.length_set]; exact hle, ?_⟩
  rw [List.take_set, h.take_eq]

/-- A write past the count is not seen. -/
theorem Holds.set_garbage (h : Holds cells count l) {i : Nat} (hi : count ≤ i) (x : α) :
    Holds (cells.set i x) count l := by
  have hle := h.count_le
  refine ⟨by rw [List.length_set]; exact hle, ?_⟩
  rw [List.take_set_of_le hi, h.take_eq]

theorem Holds.map {β : Type} (h : Holds cells count l) (f : α → β) :
    Holds (cells.map f) count (l.map f) := by
  refine ⟨by rw [List.length_map]; exact h.count_le, ?_⟩
  rw [← List.map_take, h.take_eq]

theorem store_of_lt {i : Nat} (hi : i < cells.length) (x : α) :
    store cells i x = some (cells.set i x) := if_pos hi

theorem search_drop {p : α → Bool} :
    ∀ {n i : Nat}, i + n ≤ cells.length →
      search p cells i n = some ((((cells.drop i).take n).findIdx? p).map (i + ·)) := by
  intro n
  induction n with
  | zero =>
    intro i _
    rfl
  | succ n ih =>
    intro i hle
    have hi : i < cells.length := by omega
    have hcell : cells[i]? = some cells[i] := List.getElem?_eq_getElem hi
    rw [search, hcell, List.drop_eq_getElem_cons hi, List.take_succ_cons, List.findIdx?_cons]
    show (if p cells[i] then _ else _) = _
    by_cases hp : p cells[i]
    · rw [if_pos hp, if_pos hp]
      rfl
    · rw [if_neg hp, if_neg hp, ih (by omega), Option.map_map]
      congr 2
      funext j
      show i + 1 + j = i + (j + 1)
      omega

/-- A search over the first cells finds the first element of the list. -/
theorem Holds.search (h : Holds cells count l) (p : α → Bool) :
    ArrayList.search p cells 0 count = some (l.findIdx? p) := by
  rw [search_drop (by rw [Nat.zero_add]; exact h.count_le), List.drop_zero, h.take_eq]
  simp

theorem scan_drop : ∀ {n i : Nat}, i + n ≤ cells.length →
    scan cells i n = some ((cells.drop i).take n) := by
  intro n
  induction n with
  | zero =>
    intro i _
    rfl
  | succ n ih =>
    intro i hle
    have hi : i < cells.length := by omega
    rw [scan, List.getElem?_eq_getElem hi, List.drop_eq_getElem_cons hi, List.take_succ_cons]
    show (scan cells (i + 1) n).map _ = _
    rw [ih (by omega)]
    rfl

/-- A loop over the first cells finds the list. -/
theorem Holds.scan (h : Holds cells count l) : ArrayList.scan cells 0 count = some l := by
  rw [scan_drop (by rw [Nat.zero_add]; exact h.count_le), List.drop_zero, h.take_eq]

/-- The cells after a shift. -/
theorem shiftDown_getElem? {i n : Nat} (hin : i + n < cells.length) :
    ∃ cells', shiftDown cells i n = some cells' ∧ cells'.length = cells.length ∧
      ∀ j, cells'[j]? = if i ≤ j ∧ j < i + n then cells[j + 1]? else cells[j]? := by
  induction n generalizing cells i with
  | zero =>
    refine ⟨cells, rfl, rfl, ?_⟩
    intro j
    rw [if_neg (by omega)]
  | succ n ih =>
    have hi : i + 1 < cells.length := by omega
    have hset : i + 1 + n < (cells.set i cells[i + 1]).length := by
      rw [List.length_set]
      omega
    obtain ⟨cells', hshift, hlen, hget⟩ := ih hset
    refine ⟨cells', ?_, by rw [hlen, List.length_set], ?_⟩
    · show cells[i + 1]?.bind _ = some cells'
      rw [List.getElem?_eq_getElem hi]
      exact hshift
    · intro j
      rw [hget j]
      by_cases hr : i + 1 ≤ j ∧ j < i + 1 + n
      · rw [if_pos hr, if_pos (by omega), List.getElem?_set_ne (by omega)]
      · rw [if_neg hr]
        by_cases hj : i = j
        · -- the cell the first move wrote
          subst hj
          rw [if_pos (by omega), List.getElem?_set_self (by omega),
            List.getElem?_eq_getElem hi]
        · rw [if_neg (by omega), List.getElem?_set_ne hj]

/-- Deletion: the later elements move down and the count drops by one. -/
theorem Holds.shiftDown (h : Holds cells count l) {i : Nat} (hi : i < count) :
    ∃ cells', ArrayList.shiftDown cells i (count - 1 - i) = some cells' ∧
      cells'.length = cells.length ∧ Holds cells' (count - 1) (l.eraseIdx i) := by
  have hle := h.count_le
  obtain ⟨cells', hshift, hlen, hget⟩ :=
    shiftDown_getElem? (show i + (count - 1 - i) < cells.length by omega)
  refine ⟨cells', hshift, hlen, by omega, ?_⟩
  apply List.ext_getElem?
  intro j
  rw [List.getElem?_take, List.getElem?_eraseIdx, hget j]
  have hlength := h.length_eq
  by_cases hj : j < count - 1
  · rw [if_pos hj]
    by_cases hji : j < i
    · rw [if_neg (by omega), if_pos hji, h.getElem? (by omega)]
    · rw [if_pos (by omega), if_neg hji, h.getElem? (by omega)]
  · rw [if_neg hj]
    by_cases hji : j < i
    · omega
    · rw [if_neg hji, List.getElem?_eq_none (by omega)]

end ArrayList
end LinuxEmbedded
