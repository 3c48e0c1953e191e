import LinuxEmbedded.Lib.ForkJoin
import LinuxEmbedded.Lib.Mutex
import Mathlib.Algebra.BigOperators.Group.Finset.Basic
import Mathlib.Data.Fintype.BigOperators

/-
A cell that threads add to inside a mutex.

An addition reads the cell and writes it later.  As long as both happen inside the
mutex, the cell is what all threads have added, whatever the order.
-/
namespace LinuxEmbedded
namespace LockedCell

variable {T M : Type} [Fintype T] [AddCommMonoid M]

/-- What the threads have added, what those inside have read, and the cell. -/
structure Ledger (added : T → M) (read : T → Option M) (inside : T → Bool) (holder : Option T)
    (cell : M) : Prop where
  exclusive : Mutex.Exclusive inside holder
  fresh : ∀ t x, read t = some x → inside t = true ∧ x = cell
  total : cell = ∑ t, added t

variable {added : T → M} {read : T → Option M} {inside : T → Bool} {holder : Option T} {cell : M}

theorem ledger_start : Ledger (fun _ : T => (0 : M)) (fun _ => none) (fun _ => false) none 0 where
  exclusive _ := ⟨fun h => (nomatch h), fun h => (nomatch h)⟩
  fresh _ _ h := nomatch h
  total := Finset.sum_const_zero.symm

variable [DecidableEq T]

theorem Ledger.enter (h : Ledger added read inside none cell) (t : T) :
    Ledger added read (Function.update inside t true) (some t) cell where
  exclusive := h.exclusive.enter t
  fresh t' x hx := by
    have hinside := (h.fresh t' x hx).1
    rw [h.exclusive.not_inside t'] at hinside
    cases hinside
  total := h.total

theorem Ledger.load (h : Ledger added read inside holder cell) {t : T} (ht : inside t = true) :
    Ledger added (Function.update read t (some cell)) inside holder cell where
  exclusive := h.exclusive
  fresh t' x hx := by
    by_cases he : t' = t
    · rw [he, Function.update_self] at hx
      rw [he]
      exact ⟨ht, (Option.some.inj hx).symm⟩
    · rw [Function.update_of_ne he] at hx
      exact h.fresh t' x hx
  total := h.total

/-- The value read is still the cell's when the sum is written. -/
theorem Ledger.store (h : Ledger added read inside holder cell) {t : T} {x : M}
    (hx : read t = some x) (d : M) :
    Ledger (Function.update added t (added t + d)) (Function.update read t none) inside holder
      (x + d) where
  exclusive := h.exclusive
  fresh t' y hy := by
    by_cases he : t' = t
    · rw [he, Function.update_self] at hy
      cases hy
    · rw [Function.update_of_ne he] at hy
      exact absurd (h.exclusive.unique (h.fresh t' y hy).1 (h.fresh t x hx).1) he
  total := by
    have hsplit := Finset.add_sum_erase Finset.univ added (Finset.mem_univ t)
    have hother : ∑ t' ∈ Finset.univ.erase t, Function.update added t (added t + d) t' =
        ∑ t' ∈ Finset.univ.erase t, added t' := by
      apply Finset.sum_congr rfl
      intro t' ht'
      rw [Function.update_of_ne (Finset.ne_of_mem_erase ht')]
    rw [← Finset.add_sum_erase Finset.univ _ (Finset.mem_univ t), hother, Function.update_self,
      (h.fresh t x hx).2, h.total, ← hsplit, add_right_comm]

theorem Ledger.leave (h : Ledger added read inside holder cell) {t : T} (ht : inside t = true)
    (hread : read t = none) :
    Ledger added read (Function.update inside t false) none cell where
  exclusive := h.exclusive.leave ht
  fresh t' x hx := by
    have hne : t' ≠ t := by
      rintro rfl
      rw [hread] at hx
      cases hx
    exact absurd (h.exclusive.unique (h.fresh t' x hx).1 ht) hne
  total := h.total

/-! ## The threads of a program -/

variable {n : Nat} {W G : Type}

/-- How the threads of a program use a cell and its mutex. -/
structure Use (n : Nat) (W G M : Type) where
  added : Fin n → Option W → M
  read : Option W → Option M
  inside : Option W → Bool
  mutex : G → Option (Fin n)
  cell : G → M

variable (U : Use n W G M)

def Books (threads : Fin n → Option W) (g : G) : Prop :=
  Ledger (fun t => U.added t (threads t)) (fun t => U.read (threads t))
    (fun t => U.inside (threads t)) (U.mutex g) (U.cell g)

/-- A step of a thread, as the cell sees it. -/
inductive Section (t : Fin n) (w w' : Option W) (g g' : G) : Prop where
  | aside (added : U.added t w' = U.added t w) (read : U.read w' = U.read w)
      (inside : U.inside w' = U.inside w) (mutex : U.mutex g' = U.mutex g)
      (cell : U.cell g' = U.cell g)
  | enter (added : U.added t w' = U.added t w) (read : U.read w' = U.read w)
      (inside : U.inside w' = true) (free : U.mutex g = none) (mutex : U.mutex g' = some t)
      (cell : U.cell g' = U.cell g)
  | load (added : U.added t w' = U.added t w) (read : U.read w' = some (U.cell g))
      (was : U.inside w = true) (inside : U.inside w' = true) (mutex : U.mutex g' = U.mutex g)
      (cell : U.cell g' = U.cell g)
  | store {x d : M} (added : U.added t w' = U.added t w + d) (had : U.read w = some x)
      (read : U.read w' = none) (inside : U.inside w' = U.inside w)
      (mutex : U.mutex g' = U.mutex g) (cell : U.cell g' = x + d)
  | leave (added : U.added t w' = U.added t w) (had : U.read w = none) (read : U.read w' = none)
      (was : U.inside w = true) (inside : U.inside w' = false) (mutex : U.mutex g' = none)
      (cell : U.cell g' = U.cell g)

variable {U} {threads : Fin n → Option W} {g g' : G} {t : Fin n} {w : Option W}

/-- Every kind of step keeps the books. -/
theorem Books.step (h : Books U threads g) (hsection : Section U t (threads t) w g g') :
    Books U (Function.update threads t w) g' := by
  unfold Books
  rw [ForkJoin.view_update U.added, ForkJoin.view_update fun _ => U.read,
    ForkJoin.view_update fun _ => U.inside]
  cases hsection with
  | aside added read inside mutex cell =>
    rw [added, read, inside, mutex, cell, Function.update_eq_self, Function.update_eq_self,
      Function.update_eq_self]
    exact h
  | enter added read inside free mutex cell =>
    unfold Books at h
    rw [free] at h
    rw [added, read, inside, mutex, cell, Function.update_eq_self, Function.update_eq_self]
    exact h.enter t
  | load added read was inside mutex cell =>
    rw [added, read, inside.trans was.symm, mutex, cell, Function.update_eq_self,
      Function.update_eq_self]
    exact Ledger.load h was
  | @store x d added had read inside mutex cell =>
    rw [added, read, inside, mutex, cell, Function.update_eq_self]
    exact Ledger.store h had d
  | leave added had read was inside mutex cell =>
    rw [added, read.trans had.symm, inside, mutex, cell, Function.update_eq_self,
      Function.update_eq_self]
    exact Ledger.leave h was had

/-- Whoever is inside can go on, or nobody is: then the thread itself can. -/
theorem Books.exists_go (h : Books U threads g) {Go : Fin n → W → Prop} {w : W}
    (hw : threads t = some w) (hnone : U.inside none = false)
    (hinside : ∀ t' w', threads t' = some w' → U.inside (some w') = true → Go t' w')
    (hfree : U.mutex g = none → Go t w) : ∃ t' w', threads t' = some w' ∧ Go t' w' := by
  cases hmutex : U.mutex g with
  | none => exact ⟨t, w, hw, hfree hmutex⟩
  | some t' =>
    have hin : U.inside (threads t') = true := (h.exclusive t').mpr hmutex
    cases hw' : threads t' with
    | none =>
      rw [hw', hnone] at hin
      cases hin
    | some w' =>
      rw [hw'] at hin
      exact ⟨t', w', hw', hinside t' w' hw' hin⟩

end LockedCell
end LinuxEmbedded
