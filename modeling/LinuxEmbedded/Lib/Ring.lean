import Mathlib.Data.List.Range
import Mathlib.Data.Nat.ModEq

/-
Cyclic windows of an array.

`window cells start n` lists the `n` cells from `start` on, wrapping at the end
of the array.  The two ends of a ring buffer move the window: a write just past
its end appends an element, and moving its start by one drops the first.
-/
namespace LinuxEmbedded
namespace Ring

variable {α : Type}

def window (cells : List α) (start n : Nat) : List α :=
  (List.range n).filterMap fun i => cells[(start + i) % cells.length]?

@[simp] theorem window_zero (cells : List α) (start : Nat) : window cells start 0 = [] := rfl

theorem mod_length_lt {cells : List α} {n : Nat} (h : n < cells.length) (i : Nat) :
    i % cells.length < cells.length :=
  Nat.mod_lt _ (Nat.lt_of_le_of_lt (Nat.zero_le n) h)

/-- Two offsets below the capacity address different cells. -/
theorem add_mod_ne {start i n len : Nat} (hi : i < n) (hn : n < len) :
    (start + i) % len ≠ (start + n) % len := by
  intro h
  have hmod : i % len = n % len := Nat.ModEq.add_left_cancel' start h
  rw [Nat.mod_eq_of_lt (Nat.lt_trans hi hn), Nat.mod_eq_of_lt hn] at hmod
  omega

theorem window_length {cells : List α} {start n : Nat} (h : 0 < cells.length) :
    (window cells start n).length = n := by
  induction n with
  | zero => rfl
  | succ n ih =>
    have hlt : (start + n) % cells.length < cells.length := Nat.mod_lt _ h
    rw [window, List.range_succ, List.filterMap_append, List.length_append]
    rw [window] at ih
    simp [ih, List.getElem?_eq_getElem hlt]

theorem getElem?_window {cells : List α} {start n i : Nat} (h : 0 < cells.length)
    (hi : i < n) : (window cells start n)[i]? = cells[(start + i) % cells.length]? := by
  induction n with
  | zero => omega
  | succ n ih =>
    have hlt : (start + n) % cells.length < cells.length := Nat.mod_lt _ h
    have hsplit : window cells start (n + 1) =
        window cells start n ++ [cells[(start + n) % cells.length]] := by
      rw [window, List.range_succ, List.filterMap_append]
      simp [window, List.getElem?_eq_getElem hlt]
    have hlen : (window cells start n).length = n := window_length h
    rw [hsplit]
    by_cases hin : i < n
    · rw [List.getElem?_append_left (by omega), ih hin]
    · have hlast : i = n := by omega
      rw [List.getElem?_append_right (by omega), hlen, hlast, Nat.sub_self,
        List.getElem?_eq_getElem hlt]
      rfl

/-- The first element of a nonempty window and the window after it. -/
theorem window_succ {cells : List α} {start n : Nat} {x : α}
    (hx : cells[start % cells.length]? = some x) :
    window cells start (n + 1) = x :: window cells ((start + 1) % cells.length) n := by
  rw [window, List.range_succ_eq_map, List.filterMap_cons, List.filterMap_map]
  simp only [Nat.add_zero, hx, window]
  congr 1
  refine List.filterMap_congr fun i _ => ?_
  simp only [Function.comp, Nat.mod_add_mod]
  rw [show start + i.succ = start + 1 + i by omega]

/-- Writing the cell just past a window extends it by the written element. -/
theorem window_set_next {cells : List α} {start n : Nat} (x : α) (h : n < cells.length) :
    window (cells.set ((start + n) % cells.length) x) start (n + 1) =
      window cells start n ++ [x] := by
  have hlt : (start + n) % cells.length < cells.length := mod_length_lt h _
  rw [window, List.range_succ, List.filterMap_append]
  congr 1
  · simp only [List.length_set, window]
    refine List.filterMap_congr fun i hi => ?_
    have hne : (start + i) % cells.length ≠ (start + n) % cells.length :=
      add_mod_ne (List.mem_range.mp hi) h
    rw [List.getElem?_set_ne (Ne.symm hne)]
  · simp [List.length_set, hlt]

end Ring
end LinuxEmbedded
