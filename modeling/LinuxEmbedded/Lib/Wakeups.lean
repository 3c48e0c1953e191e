import LinuxEmbedded.Lib.Machine

/-
Items guarded by one condition variable.

`n` threads take items; a thread that finds none blocks.  Whoever stores an item
owes a signal, and pays it before anyone else looks: a signal unblocks at least
one thread if one is blocked.  A blocked thread may also wake for no reason.  The
count of items never exceeds the number of threads that are awake to take them,
as long as somebody is blocked and no signal is owed.
-/
namespace LinuxEmbedded
namespace Wakeups

structure State where
  items : Nat
  blocked : Nat
  owed : Bool
  deriving DecidableEq, Repr

def start : State := ⟨0, 0, false⟩

inductive Act where
  /-- A store; it may have replaced an item. -/
  | store (replaced : Bool)
  | signal (unblocked : Nat)
  | take
  | block
  | wake
  deriving DecidableEq, Repr

def step (n : Nat) (s : State) : Act → Option (State × List Empty)
  | .store replaced =>
    if s.owed then none
    else some ({ s with items := if replaced then s.items else s.items + 1, owed := true }, [])
  | .signal unblocked =>
    if s.owed = true ∧ unblocked ≤ s.blocked ∧ (0 < s.blocked → 0 < unblocked) then
      some ({ s with blocked := s.blocked - unblocked, owed := false }, [])
    else none
  | .take =>
    if s.owed = false ∧ 0 < s.items then some ({ s with items := s.items - 1 }, []) else none
  | .block =>
    if s.owed = false ∧ s.items = 0 ∧ s.blocked < n then
      some ({ s with blocked := s.blocked + 1 }, [])
    else none
  | .wake => if 0 < s.blocked then some ({ s with blocked := s.blocked - 1 }, []) else none

/-- Items for the threads that are awake, and one more while a signal is owed. -/
def Covered (n : Nat) (s : State) : Prop :=
  s.blocked ≤ n ∧ (0 < s.blocked → s.items + s.blocked ≤ n + s.owed.toNat)

theorem covered_start (n : Nat) : Covered n start :=
  ⟨Nat.zero_le n, fun h => absurd h (Nat.lt_irrefl 0)⟩

theorem Covered.step {n : Nat} {s t : State} {a : Act} {os : List Empty} (h : Covered n s)
    (hstep : step n s a = some (t, os)) : Covered n t := by
  obtain ⟨hle, hcover⟩ := h
  cases a with
  | store replaced =>
    obtain ⟨ho, ht⟩ := Option.ite_none_left_eq_some.mp hstep
    rw [← (Prod.mk.inj (Option.some.inj ht)).1]
    have hfalse : s.owed = false := by simpa using ho
    rw [hfalse] at hcover
    refine ⟨hle, ?_⟩
    intro hb
    have hcover := hcover hb
    cases replaced <;> simp at hcover ⊢ <;> omega
  | signal unblocked =>
    obtain ⟨⟨ho, hu, hpos⟩, ht⟩ := Option.ite_none_right_eq_some.mp hstep
    rw [← (Prod.mk.inj (Option.some.inj ht)).1]
    rw [ho] at hcover
    refine ⟨Nat.le_trans (Nat.sub_le _ _) hle, ?_⟩
    intro hb
    have hb : 0 < s.blocked - unblocked := hb
    have hcover := hcover (by omega)
    have hpos := hpos (by omega)
    simp at hcover ⊢
    omega
  | take =>
    obtain ⟨_, ht⟩ := Option.ite_none_right_eq_some.mp hstep
    rw [← (Prod.mk.inj (Option.some.inj ht)).1]
    refine ⟨hle, ?_⟩
    intro hb
    have hcover := hcover hb
    show s.items - 1 + s.blocked ≤ n + s.owed.toNat
    omega
  | block =>
    obtain ⟨⟨_, hzero, hlt⟩, ht⟩ := Option.ite_none_right_eq_some.mp hstep
    rw [← (Prod.mk.inj (Option.some.inj ht)).1]
    refine ⟨hlt, ?_⟩
    intro _
    show s.items + (s.blocked + 1) ≤ n + s.owed.toNat
    omega
  | wake =>
    obtain ⟨hg, ht⟩ := Option.ite_none_right_eq_some.mp hstep
    rw [← (Prod.mk.inj (Option.some.inj ht)).1]
    refine ⟨Nat.le_trans (Nat.sub_le _ _) hle, ?_⟩
    intro hb
    have hcover := hcover hg
    show s.items + (s.blocked - 1) ≤ n + s.owed.toNat
    omega

theorem reachable_covered {n : Nat} {s : State} (h : Machine.Reachable (step n) start s) :
    Covered n s :=
  h.invariant (I := Covered n) (fun _ _ _ _ hI hstep => hI.step hstep) (covered_start n)

end Wakeups
end LinuxEmbedded
