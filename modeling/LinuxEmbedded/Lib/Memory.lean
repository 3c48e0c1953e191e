import Mathlib.Data.List.Basic

/-
A flat memory: the cells at the addresses from some base on.

A window of it is loaded as a list, stored over, or filled with one value.
-/
namespace LinuxEmbedded
namespace Memory

variable {B : Type}

/-- The `n` cells from address `a` on. -/
def load (m : Nat → B) (a n : Nat) : List B := (List.range' a n).map m

/-- Write `bs` to the cells from address `a` on. -/
def store (m : Nat → B) (a : Nat) (bs : List B) : Nat → B :=
  fun i => if a ≤ i then (bs[i - a]?).getD (m i) else m i

/-- Write `b` to each of the `n` cells from address `a` on. -/
def fill (m : Nat → B) (a n : Nat) (b : B) : Nat → B :=
  fun i => if a ≤ i ∧ i < a + n then b else m i

variable {m m' : Nat → B} {a n : Nat}

@[simp] theorem length_load : (load m a n).length = n := by
  rw [load, List.length_map, List.length_range']

theorem getElem?_load {i : Nat} (h : i < n) : (load m a n)[i]? = some (m (a + i)) := by
  rw [load, List.getElem?_map, List.getElem?_range' h, Nat.one_mul]
  rfl

/-- Two adjacent windows are one. -/
theorem load_add (k : Nat) : load m a (n + k) = load m a n ++ load m (a + n) k := by
  rw [load, load, load, ← List.map_append, List.range'_append_1]

/-- Two windows are equal when their cells are. -/
theorem load_eq_load_iff {a' : Nat} :
    load m a n = load m' a' n ↔ ∀ i < n, m (a + i) = m' (a' + i) := by
  constructor
  · intro h i hi
    have hget : (load m a n)[i]? = (load m' a' n)[i]? := by rw [h]
    rw [getElem?_load hi, getElem?_load hi] at hget
    exact Option.some.inj hget
  · intro h
    refine List.ext_getElem? fun i => ?_
    by_cases hi : i < n
    · rw [getElem?_load hi, getElem?_load hi, h i hi]
    · rw [List.getElem?_eq_none (by simp; omega), List.getElem?_eq_none (by simp; omega)]

theorem load_eq_iff {bs : List B} (h : bs.length = n) :
    load m a n = bs ↔ ∀ i < n, bs[i]? = some (m (a + i)) := by
  constructor
  · rintro rfl i hi
    exact getElem?_load hi
  · intro hbs
    refine List.ext_getElem? fun i => ?_
    by_cases hi : i < n
    · rw [getElem?_load hi, hbs i hi]
    · rw [List.getElem?_eq_none (by simp; omega), List.getElem?_eq_none (by omega)]

theorem store_inside {bs : List B} {i : Nat} (h : i < bs.length) :
    store m a bs (a + i) = bs[i] := by
  rw [store, if_pos (Nat.le_add_right a i), Nat.add_sub_cancel_left,
    List.getElem?_eq_getElem h, Option.getD_some]

/-- A window reads back what was stored to it. -/
theorem load_store (bs : List B) : load (store m a bs) a bs.length = bs := by
  refine (load_eq_iff rfl).mpr fun i hi => ?_
  rw [store_inside hi, List.getElem?_eq_getElem hi]

/-- A window filled with one value. -/
theorem load_replicate {b : B} (h : ∀ i < n, m (a + i) = b) :
    load m a n = List.replicate n b := by
  refine (load_eq_iff List.length_replicate).mpr fun i hi => ?_
  rw [h i hi, List.getElem?_replicate_of_lt hi]

end Memory
end LinuxEmbedded
