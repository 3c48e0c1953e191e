import Mathlib.Logic.Function.Basic

/-
Mutual exclusion: the threads inside a critical section are the one that holds
the mutex.
-/
namespace LinuxEmbedded
namespace Mutex

variable {X : Type} {inside : X → Bool} {holder : Option X}

def Exclusive (inside : X → Bool) (holder : Option X) : Prop :=
  ∀ x, inside x = true ↔ holder = some x

/-- Two threads inside are one thread. -/
theorem Exclusive.unique (h : Exclusive inside holder) {x y : X} (hx : inside x = true)
    (hy : inside y = true) : x = y := by
  have hx := (h x).mp hx
  have hy := (h y).mp hy
  rw [hx] at hy
  exact Option.some.inj hy

theorem Exclusive.not_inside (h : Exclusive inside none) (x : X) : inside x = false := by
  by_cases hx : inside x = true
  · exact absurd ((h x).mp hx) (by simp)
  · simpa using hx

variable [DecidableEq X]

theorem Exclusive.enter (h : Exclusive inside none) (x : X) :
    Exclusive (Function.update inside x true) (some x) := by
  intro y
  by_cases hy : y = x
  · rw [hy, Function.update_self]
    simp
  · rw [Function.update_of_ne hy, h.not_inside y]
    simpa using fun he => hy he.symm

theorem Exclusive.leave (h : Exclusive inside holder) {x : X} (hx : inside x = true) :
    Exclusive (Function.update inside x false) none := by
  intro y
  by_cases hy : y = x
  · rw [hy, Function.update_self]
    simp
  · rw [Function.update_of_ne hy]
    constructor
    · intro hin
      exact absurd (h.unique hin hx) hy
    · intro hn
      cases hn

/-- A thread that stays on its side of the lock. -/
theorem Exclusive.stay (h : Exclusive inside holder) {x : X} {b : Bool} (hx : inside x = b) :
    Exclusive (Function.update inside x b) holder := by
  rw [← hx, Function.update_eq_self]
  exact h

end Mutex
end LinuxEmbedded
