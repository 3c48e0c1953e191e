import LinuxEmbedded.Lib.Machine

/-
The parent and the child of `processSignal.c`, and the signals between them.

The child answers every SIGUSR1 with a SIGUSR2, for which the parent waits in `pause`.
A signal is pending once at most, and is handled at any later moment; handled outside
`pause`, it wakes nobody.  `n` is `COUNT_SIG`.
-/
namespace LinuxEmbedded
namespace Exercises
namespace ProcessSignal

inductive Parent where
  /-- Before `signal(SIGUSR2, sigusr2_handler)`. -/
  | starting
  /-- Before the `pause` that waits for the answer to `i` signals, and in it. -/
  | toPause (i : Nat)
  | inPause (i : Nat)
  | toKill (i : Nat)
  | toKillChild
  | toWait
  | exited
  | terminated
  deriving DecidableEq

inductive Child where
  /-- Before `signal(SIGUSR1, sigusr1_handler)`. -/
  | starting
  /-- Before the first `kill(getppid(), SIGUSR2)`. -/
  | ready
  /-- Before `pause` in the loop, and in it. -/
  | looping
  | paused
  /-- In `sigusr1_handler`; `first` says that it came before the first `kill`. -/
  | handling (first : Bool)
  | replying (first : Bool)
  | killed
  | terminated
  deriving DecidableEq

structure State where
  parent : Parent
  child : Child
  /-- SIGUSR1 is pending for the child, SIGUSR2 for the parent. -/
  usr1 : Bool
  usr2 : Bool
  deriving DecidableEq

def start : State := ⟨.starting, .starting, false, false⟩

inductive Act where
  | parent
  | child
  | deliverUsr1
  | deliverUsr2
  deriving DecidableEq

inductive Event where
  /-- The child prints "Received signal from parent". -/
  | received
  /-- A signal was sent while it was pending. -/
  | merged
  | handledOutsidePause
  | parentTerminated
  | childTerminated
  deriving DecidableEq

def Parent.alive : Parent → Bool
  | .exited | .terminated => false
  | _ => true

def Child.alive : Child → Bool
  | .killed | .terminated => false
  | _ => true

/-- `kill(childPid, SIGUSR1)`. -/
def sendUsr1 (s : State) : State × List Event :=
  if s.child.alive then ({ s with usr1 := true }, if s.usr1 then [.merged] else []) else (s, [])

/-- `kill(getppid(), SIGUSR2)`; without its parent the child belongs to another process. -/
def sendUsr2 (s : State) : State × List Event :=
  if s.parent.alive then ({ s with usr2 := true }, if s.usr2 then [.merged] else []) else (s, [])

/-- Where `pause` returns to. -/
def afterPause (n i : Nat) : Parent := if i < n then .toKill i else .toKillChild

def parentStep (s : State) : Option (State × List Event) :=
  match s.parent with
  | .starting => some ({ s with parent := .toPause 0 }, [])
  | .toPause i => some ({ s with parent := .inPause i }, [])
  | .toKill i => some (sendUsr1 { s with parent := .toPause (i + 1) })
  | .toKillChild =>
    some ({ s with parent := .toWait, child := if s.child.alive then .killed else s.child }, [])
  | .toWait => if s.child.alive then none else some ({ s with parent := .exited }, [])
  | .inPause _ | .exited | .terminated => none

def childStep (s : State) : Option (State × List Event) :=
  match s.child with
  | .starting => some ({ s with child := .ready }, [])
  | .ready => some (sendUsr2 { s with child := .looping })
  | .looping => some ({ s with child := .paused }, [])
  | .handling first => some ({ s with child := .replying first }, [.received])
  | .replying first => some (sendUsr2 { s with child := if first then .ready else .looping })
  | .paused | .killed | .terminated => none

/-- The child handles SIGUSR1, which is blocked in its handler. -/
def deliverUsr1 (s : State) : Option (State × List Event) :=
  if s.usr1 then
    match s.child with
    | .starting => some ({ s with child := .terminated, usr1 := false }, [.childTerminated])
    | .ready => some ({ s with child := .handling true, usr1 := false }, [])
    | .looping | .paused => some ({ s with child := .handling false, usr1 := false }, [])
    | .handling _ | .replying _ | .killed | .terminated => none
  else none

/-- The parent handles SIGUSR2. -/
def deliverUsr2 (n : Nat) (s : State) : Option (State × List Event) :=
  if s.usr2 then
    match s.parent with
    | .starting => some ({ s with parent := .terminated, usr2 := false }, [.parentTerminated])
    | .inPause i => some ({ s with parent := afterPause n i, usr2 := false }, [])
    | .toPause _ | .toKill _ | .toKillChild | .toWait =>
      some ({ s with usr2 := false }, [.handledOutsidePause])
    | .exited | .terminated => none
  else none

def step (n : Nat) (s : State) : Act → Option (State × List Event)
  | .parent => parentStep s
  | .child => childStep s
  | .deliverUsr1 => deliverUsr1 s
  | .deliverUsr2 => deliverUsr2 n s

/-! ## Where the one signal is -/

def received (os : List Event) : Nat := os.countP (· = .received)

/-- The answers of the child that woke nobody. -/
def lost (os : List Event) : Nat :=
  os.countP fun e => e = .handledOutsidePause || e = .parentTerminated

/-- No signal merged with a pending one, and no SIGUSR1 came before its handler. -/
def Clean (os : List Event) : Prop := .merged ∉ os ∧ .childTerminated ∉ os

instance (os : List Event) : Decidable (Clean os) := inferInstanceAs (Decidable (_ ∧ _))

def AtPause (i : Nat) (p : Parent) : Prop := p = .toPause i ∨ p = .inPause i

def Idle (c : Child) : Prop := c = .looping ∨ c = .paused

/-- The phases of a run: how often the child has printed, and how many answers were lost. -/
inductive Phase (n : Nat) : State → Nat → Nat → Prop where
  | opening {p c} (parent : p = .starting ∨ AtPause 0 p) (child : c = .starting ∨ c = .ready) :
    Phase n ⟨p, c, false, false⟩ 0 0
  | asked {i p c} (bound : i < n) (parent : AtPause (i + 1) p) (child : Idle c) :
    Phase n ⟨p, c, true, false⟩ i 0
  | handling {i p} (bound : i < n) (parent : AtPause (i + 1) p) :
    Phase n ⟨p, .handling false, false, false⟩ i 0
  | replying {i p} (bound : i < n) (parent : AtPause (i + 1) p) :
    Phase n ⟨p, .replying false, false, false⟩ (i + 1) 0
  | answered {i p c} (bound : i ≤ n) (parent : AtPause i p ∨ i = 0 ∧ p = .starting)
      (child : Idle c) :
    Phase n ⟨p, c, false, true⟩ i 0
  | turn {i c} (bound : i < n) (child : Idle c) : Phase n ⟨.toKill i, c, false, false⟩ i 0
  | closing {c} (child : Idle c) : Phase n ⟨.toKillChild, c, false, false⟩ n 0
  | gone {p} (parent : p = .toWait ∨ p = .exited) : Phase n ⟨p, .killed, false, false⟩ n 0
  | lost {i p c} (bound : i ≤ n) (parent : AtPause i p ∨ i = 0 ∧ p = .terminated)
      (child : Idle c) :
    Phase n ⟨p, c, false, false⟩ i 1

variable {n : Nat} {s t : State} {r l : Nat} {os : List Event}

theorem AtPause.alive {i : Nat} {p : Parent} (h : AtPause i p) : p.alive = true := by
  rcases h with rfl | rfl <;> rfl

theorem Idle.alive {c : Child} (h : Idle c) : c.alive = true := by
  rcases h with rfl | rfl <;> rfl

/-- Of two places around a `pause`, the parent goes from the first to the second. -/
theorem AtPause.step {i : Nat} {p : Parent} {c : Child} {usr1 usr2 : Bool}
    (h : AtPause i p) (hstep : parentStep ⟨p, c, usr1, usr2⟩ = some (t, os)) :
    t = ⟨.inPause i, c, usr1, usr2⟩ ∧ os = [] := by
  rcases h with rfl | rfl
  · obtain ⟨rfl, rfl⟩ := Prod.mk.inj (Option.some.inj hstep)
    exact ⟨rfl, rfl⟩
  · cases hstep

theorem Idle.step {p : Parent} {c : Child} {usr1 usr2 : Bool} (h : Idle c)
    (hstep : childStep ⟨p, c, usr1, usr2⟩ = some (t, os)) :
    t = ⟨p, .paused, usr1, usr2⟩ ∧ os = [] := by
  rcases h with rfl | rfl
  · obtain ⟨rfl, rfl⟩ := Prod.mk.inj (Option.some.inj hstep)
    exact ⟨rfl, rfl⟩
  · cases hstep

theorem Phase.parent (h : Phase n s r l) (hstep : parentStep s = some (t, os)) :
    Phase n t (r + received os) (l + ProcessSignal.lost os) ∧ Clean os := by
  cases h with
  | opening parent child =>
    rcases parent with rfl | parent
    · obtain ⟨rfl, rfl⟩ := Prod.mk.inj (Option.some.inj hstep)
      exact ⟨.opening (Or.inr (Or.inl rfl)) child, by decide⟩
    · obtain ⟨rfl, rfl⟩ := parent.step hstep
      exact ⟨.opening (Or.inr (Or.inr rfl)) child, by decide⟩
  | asked bound parent child =>
    obtain ⟨rfl, rfl⟩ := parent.step hstep
    exact ⟨.asked bound (Or.inr rfl) child, by decide⟩
  | handling bound parent =>
    obtain ⟨rfl, rfl⟩ := parent.step hstep
    exact ⟨.handling bound (Or.inr rfl), by decide⟩
  | replying bound parent =>
    obtain ⟨rfl, rfl⟩ := parent.step hstep
    exact ⟨.replying bound (Or.inr rfl), by decide⟩
  | answered bound parent child =>
    rcases parent with parent | ⟨rfl, rfl⟩
    · obtain ⟨rfl, rfl⟩ := parent.step hstep
      exact ⟨.answered bound (Or.inl (Or.inr rfl)) child, by decide⟩
    · obtain ⟨rfl, rfl⟩ := Prod.mk.inj (Option.some.inj hstep)
      exact ⟨.answered bound (Or.inl (Or.inl rfl)) child, by decide⟩
  | @turn _ c bound child =>
    have hsend : sendUsr1 ⟨.toPause (r + 1), c, false, false⟩ = (t, os) :=
      Option.some.inj hstep
    rw [sendUsr1, if_pos child.alive] at hsend
    obtain ⟨rfl, rfl⟩ := Prod.mk.inj hsend
    exact ⟨.asked bound (Or.inl rfl) child, (by decide : Clean [])⟩
  | closing child =>
    obtain ⟨rfl, rfl⟩ := Prod.mk.inj (Option.some.inj hstep)
    rw [if_pos child.alive]
    exact ⟨.gone (Or.inl rfl), by decide⟩
  | gone parent =>
    rcases parent with rfl | rfl
    · obtain ⟨rfl, rfl⟩ := Prod.mk.inj (Option.some.inj hstep)
      exact ⟨.gone (Or.inr rfl), by decide⟩
    · cases hstep
  | lost bound parent child =>
    rcases parent with parent | ⟨rfl, rfl⟩
    · obtain ⟨rfl, rfl⟩ := parent.step hstep
      exact ⟨.lost bound (Or.inl (Or.inr rfl)) child, by decide⟩
    · cases hstep

theorem Phase.child (h : Phase n s r l) (hstep : childStep s = some (t, os)) :
    Phase n t (r + received os) (l + ProcessSignal.lost os) ∧ Clean os := by
  cases h with
  | @opening p c parent child =>
    have halive : p.alive = true := by
      rcases parent with rfl | parent
      · rfl
      · exact parent.alive
    rcases child with rfl | rfl
    · obtain ⟨rfl, rfl⟩ := Prod.mk.inj (Option.some.inj hstep)
      exact ⟨.opening parent (Or.inr rfl), by decide⟩
    · have hsend : sendUsr2 ⟨p, .looping, false, false⟩ = (t, os) := Option.some.inj hstep
      rw [sendUsr2, if_pos halive] at hsend
      obtain ⟨rfl, rfl⟩ := Prod.mk.inj hsend
      refine ⟨.answered (Nat.zero_le n) ?_ (Or.inl rfl), (by decide : Clean [])⟩
      exact parent.elim (fun h => Or.inr ⟨rfl, h⟩) Or.inl
  | asked bound parent child =>
    obtain ⟨rfl, rfl⟩ := child.step hstep
    exact ⟨.asked bound parent (Or.inr rfl), by decide⟩
  | handling bound parent =>
    obtain ⟨rfl, rfl⟩ := Prod.mk.inj (Option.some.inj hstep)
    exact ⟨.replying bound parent, by decide⟩
  | @replying i p bound parent =>
    have hsend : sendUsr2 ⟨p, .looping, false, false⟩ = (t, os) := Option.some.inj hstep
    rw [sendUsr2, if_pos parent.alive] at hsend
    obtain ⟨rfl, rfl⟩ := Prod.mk.inj hsend
    exact ⟨.answered bound (Or.inl parent) (Or.inl rfl), (by decide : Clean [])⟩
  | answered bound parent child =>
    obtain ⟨rfl, rfl⟩ := child.step hstep
    exact ⟨.answered bound parent (Or.inr rfl), by decide⟩
  | turn bound child =>
    obtain ⟨rfl, rfl⟩ := child.step hstep
    exact ⟨.turn bound (Or.inr rfl), by decide⟩
  | closing child =>
    obtain ⟨rfl, rfl⟩ := child.step hstep
    exact ⟨.closing (Or.inr rfl), by decide⟩
  | gone parent => cases hstep
  | lost bound parent child =>
    obtain ⟨rfl, rfl⟩ := child.step hstep
    exact ⟨.lost bound parent (Or.inr rfl), by decide⟩

theorem Phase.deliverUsr1 (h : Phase n s r l)
    (hstep : ProcessSignal.deliverUsr1 s = some (t, os)) :
    Phase n t (r + received os) (l + ProcessSignal.lost os) ∧ Clean os := by
  obtain ⟨hpending, hstep⟩ := Option.ite_none_right_eq_some.mp hstep
  cases h with
  | asked bound parent child =>
    rcases child with rfl | rfl
    · obtain ⟨rfl, rfl⟩ := Prod.mk.inj (Option.some.inj hstep)
      exact ⟨.handling bound parent, by decide⟩
    · obtain ⟨rfl, rfl⟩ := Prod.mk.inj (Option.some.inj hstep)
      exact ⟨.handling bound parent, by decide⟩
  | _ => cases hpending

/-- The answer wakes the parent in its `pause`, and is lost anywhere else. -/
theorem Phase.deliverUsr2 (h : Phase n s r l)
    (hstep : ProcessSignal.deliverUsr2 n s = some (t, os)) :
    Phase n t (r + received os) (l + ProcessSignal.lost os) ∧ Clean os := by
  obtain ⟨hpending, hstep⟩ := Option.ite_none_right_eq_some.mp hstep
  cases h with
  | @answered _ p c bound parent child =>
    rcases parent with (rfl | rfl) | ⟨rfl, rfl⟩
    · obtain ⟨rfl, rfl⟩ := Prod.mk.inj (Option.some.inj hstep)
      exact ⟨.lost bound (Or.inl (Or.inl rfl)) child, by decide⟩
    · obtain ⟨rfl, rfl⟩ := Prod.mk.inj (Option.some.inj hstep)
      refine ⟨?_, by decide⟩
      show Phase n ⟨afterPause n r, c, false, false⟩ r 0
      by_cases hi : r < n
      · rw [afterPause, if_pos hi]
        exact .turn hi child
      · rw [afterPause, if_neg hi, Nat.le_antisymm bound (Nat.le_of_not_lt hi)]
        exact .closing child
    · obtain ⟨rfl, rfl⟩ := Prod.mk.inj (Option.some.inj hstep)
      exact ⟨.lost bound (Or.inr ⟨rfl, rfl⟩) child, by decide⟩
  | _ => cases hpending

/-- One step. -/
theorem Phase.step {a : Act} (h : Phase n s r l) (hstep : step n s a = some (t, os)) :
    Phase n t (r + received os) (l + ProcessSignal.lost os) ∧ Clean os := by
  cases a with
  | parent => exact h.parent hstep
  | child => exact h.child hstep
  | deliverUsr1 => exact h.deliverUsr1 hstep
  | deliverUsr2 => exact h.deliverUsr2 hstep

theorem received_append (os os' : List Event) :
    received (os ++ os') = received os + received os' :=
  List.countP_append

theorem lost_append (os os' : List Event) : lost (os ++ os') = lost os + lost os' :=
  List.countP_append

theorem Clean.append {os' : List Event} (h : Clean os) (h' : Clean os') : Clean (os ++ os') :=
  ⟨fun hmem => (List.mem_append.mp hmem).elim h.1 h'.1,
    fun hmem => (List.mem_append.mp hmem).elim h.2 h'.2⟩

theorem Phase.run {as : List Act}
    (hrun : Machine.run (ProcessSignal.step n) ProcessSignal.start as = some (s, os)) :
    Phase n s (received os) (ProcessSignal.lost os) ∧ Clean os := by
  refine Machine.run_induction
    (P := fun _ os s => Phase n s (received os) (ProcessSignal.lost os) ∧ Clean os)
    ⟨.opening (Or.inl rfl) (Or.inl rfl), by decide⟩ ?_ hrun
  rintro _ os s a t os' - ⟨hphase, hclean⟩ hstep
  rw [received_append, lost_append]
  obtain ⟨hnext, hclean'⟩ := hphase.step hstep
  exact ⟨hnext, hclean.append hclean'⟩

/-! ## Runs are short -/

def Parent.left (n : Nat) : Parent → Nat
  | .starting => 7 * n + 4
  | .toPause i => 7 * (n - i) + 3
  | .inPause i | .toKill i => 7 * (n - i) + 2
  | .toKillChild => 2
  | .toWait => 1
  | .exited | .terminated => 0

def Child.left : Child → Nat
  | .starting => 4
  | .ready => 3
  | .looping => 1
  | .handling first => if first then 6 else 4
  | .replying first => if first then 5 else 3
  | .paused | .killed | .terminated => 0

/-- A pending signal is still worth the steps of its handler. -/
def rank (n : Nat) (s : State) : Nat :=
  s.parent.left n + s.child.left + (if s.usr1 then 5 else 0) + if s.usr2 then 1 else 0

theorem rank_sendUsr1 (s : State) : rank n (sendUsr1 s).1 ≤ rank n s + 5 := by
  rw [sendUsr1]
  split
  · simp only [rank, if_true]
    omega
  · exact Nat.le_add_right _ _

theorem rank_sendUsr2 (s : State) : rank n (sendUsr2 s).1 ≤ rank n s + 1 := by
  rw [sendUsr2]
  split
  · simp only [rank, if_true]
    omega
  · exact Nat.le_add_right _ _

theorem rank_parent (hbound : ∀ i, s.parent = .toKill i → i < n)
    (hstep : parentStep s = some (t, os)) : rank n t < rank n s := by
  obtain ⟨p, c, usr1, usr2⟩ := s
  cases p with
  | starting =>
    obtain ⟨rfl, -⟩ := Prod.mk.inj (Option.some.inj hstep)
    simp only [rank, Parent.left]
    omega
  | toPause i =>
    obtain ⟨rfl, -⟩ := Prod.mk.inj (Option.some.inj hstep)
    simp only [rank, Parent.left]
    omega
  | toKill i =>
    have hi : i < n := hbound i rfl
    have hsend := rank_sendUsr1 (n := n) ⟨.toPause (i + 1), c, usr1, usr2⟩
    rw [show sendUsr1 ⟨.toPause (i + 1), c, usr1, usr2⟩ = (t, os) from
      Option.some.inj hstep] at hsend
    simp only [rank, Parent.left] at hsend ⊢
    omega
  | toKillChild =>
    obtain ⟨rfl, -⟩ := Prod.mk.inj (Option.some.inj hstep)
    have hkilled : (if c.alive then Child.killed else c).left ≤ c.left := by
      split
      · exact Nat.zero_le _
      · exact Nat.le_refl _
    simp only [rank, Parent.left]
    omega
  | toWait =>
    obtain ⟨-, hstep⟩ := Option.ite_none_left_eq_some.mp hstep
    obtain ⟨rfl, -⟩ := Prod.mk.inj (Option.some.inj hstep)
    simp only [rank, Parent.left]
    omega
  | inPause i => cases hstep
  | exited => cases hstep
  | terminated => cases hstep

theorem rank_child (hstep : childStep s = some (t, os)) : rank n t < rank n s := by
  obtain ⟨p, c, usr1, usr2⟩ := s
  cases c with
  | starting =>
    obtain ⟨rfl, -⟩ := Prod.mk.inj (Option.some.inj hstep)
    simp only [rank, Child.left]
    omega
  | ready =>
    have hsend := rank_sendUsr2 (n := n) ⟨p, .looping, usr1, usr2⟩
    rw [show sendUsr2 ⟨p, .looping, usr1, usr2⟩ = (t, os) from Option.some.inj hstep] at hsend
    simp only [rank, Child.left] at hsend ⊢
    omega
  | looping =>
    obtain ⟨rfl, -⟩ := Prod.mk.inj (Option.some.inj hstep)
    simp only [rank, Child.left]
    omega
  | handling first =>
    obtain ⟨rfl, -⟩ := Prod.mk.inj (Option.some.inj hstep)
    cases first <;> simp only [rank, Child.left, if_true, Bool.false_eq_true, if_false] <;> omega
  | replying first =>
    have hsend := rank_sendUsr2 (n := n) ⟨p, if first then .ready else .looping, usr1, usr2⟩
    rw [show sendUsr2 ⟨p, if first then .ready else .looping, usr1, usr2⟩ = (t, os) from
      Option.some.inj hstep] at hsend
    cases first <;>
      simp only [rank, Child.left, if_true, Bool.false_eq_true, if_false] at hsend ⊢ <;> omega
  | paused => cases hstep
  | killed => cases hstep
  | terminated => cases hstep

theorem rank_deliverUsr1 (hstep : deliverUsr1 s = some (t, os)) : rank n t < rank n s := by
  obtain ⟨hpending, hstep⟩ := Option.ite_none_right_eq_some.mp hstep
  obtain ⟨p, c, usr1, usr2⟩ := s
  obtain rfl : usr1 = true := hpending
  cases c with
  | starting | ready | looping | paused =>
    obtain ⟨rfl, -⟩ := Prod.mk.inj (Option.some.inj hstep)
    simp only [rank, Child.left, if_true, Bool.false_eq_true, if_false]
    omega
  | handling first => cases hstep
  | replying first => cases hstep
  | killed => cases hstep
  | terminated => cases hstep

theorem left_afterPause (n i : Nat) : (afterPause n i).left n ≤ (Parent.inPause i).left n := by
  rw [afterPause]
  split
  · exact Nat.le_refl _
  · exact Nat.le_add_left 2 _

theorem rank_deliverUsr2 (hstep : deliverUsr2 n s = some (t, os)) : rank n t < rank n s := by
  obtain ⟨hpending, hstep⟩ := Option.ite_none_right_eq_some.mp hstep
  obtain ⟨p, c, usr1, usr2⟩ := s
  obtain rfl : usr2 = true := hpending
  cases p with
  | inPause i =>
    obtain ⟨rfl, -⟩ := Prod.mk.inj (Option.some.inj hstep)
    have hleft := left_afterPause n i
    simp only [rank, if_true, Bool.false_eq_true, if_false]
    omega
  | starting | toPause | toKill | toKillChild | toWait =>
    obtain ⟨rfl, -⟩ := Prod.mk.inj (Option.some.inj hstep)
    simp only [rank, Parent.left, if_true, Bool.false_eq_true, if_false]
    omega
  | exited => cases hstep
  | terminated => cases hstep

theorem Phase.bound (h : Phase n s r l) (i : Nat) (hi : s.parent = .toKill i) : i < n := by
  cases h with
  | turn bound => exact Parent.toKill.inj hi ▸ bound
  | opening parent => rcases parent with rfl | rfl | rfl <;> cases hi
  | asked _ parent => rcases parent with rfl | rfl <;> cases hi
  | handling _ parent => rcases parent with rfl | rfl <;> cases hi
  | replying _ parent => rcases parent with rfl | rfl <;> cases hi
  | answered _ parent => rcases parent with (rfl | rfl) | ⟨-, rfl⟩ <;> cases hi
  | closing => cases hi
  | gone parent => rcases parent with rfl | rfl <;> cases hi
  | lost _ parent => rcases parent with (rfl | rfl) | ⟨-, rfl⟩ <;> cases hi

theorem Phase.rank_lt {a : Act} (h : Phase n s r l)
    (hstep : ProcessSignal.step n s a = some (t, os)) : rank n t < rank n s := by
  cases a with
  | parent => exact rank_parent h.bound hstep
  | child => exact rank_child hstep
  | deliverUsr1 => exact rank_deliverUsr1 hstep
  | deliverUsr2 => exact rank_deliverUsr2 hstep

theorem length_add_rank_le {as : List Act}
    (hrun : Machine.run (step n) start as = some (s, os)) :
    as.length + rank n s ≤ 7 * n + 8 := by
  refine (Machine.run_induction (P := fun as os s =>
    Phase n s (received os) (lost os) ∧ as.length + rank n s ≤ 7 * n + 8)
    ⟨.opening (Or.inl rfl) (Or.inl rfl), ?_⟩ ?_ hrun).2
  · show 0 + (7 * n + 4 + 4 + 0 + 0) ≤ 7 * n + 8
    omega
  · rintro as os s a t os' - ⟨hphase, hle⟩ hstep
    have hlt := hphase.rank_lt hstep
    rw [received_append, lost_append, List.length_append, List.length_singleton]
    exact ⟨(hphase.step hstep).1, by omega⟩

/-! ## Where a run ends -/

/-- A stuck state is the end of the program, or the answer was lost. -/
theorem Phase.stuck (h : Phase n s r l) (hstuck : ∀ a, ProcessSignal.step n s a = none) :
    s.parent = .exited ↔ l = 0 := by
  have hparent : parentStep s = none := hstuck .parent
  have hchild : childStep s = none := hstuck .child
  have husr1 : ProcessSignal.deliverUsr1 s = none := hstuck .deliverUsr1
  have husr2 : ProcessSignal.deliverUsr2 n s = none := hstuck .deliverUsr2
  cases h with
  | opening _ child => rcases child with rfl | rfl <;> cases hchild
  | asked _ _ child => rcases child with rfl | rfl <;> cases husr1
  | handling => cases hchild
  | replying => cases hchild
  | answered _ parent => rcases parent with (rfl | rfl) | ⟨-, rfl⟩ <;> cases husr2
  | turn => cases hparent
  | closing => cases hparent
  | gone parent =>
    rcases parent with rfl | rfl
    · cases hparent
    · exact iff_of_true rfl rfl
  | lost _ parent =>
    refine iff_of_false ?_ Nat.one_ne_zero
    rcases parent with (rfl | rfl) | ⟨-, rfl⟩ <;> exact nofun

/-- A parent that exits was answered every time. -/
theorem Phase.exited (h : Phase n s r l) (hexited : s.parent = .exited) :
    r = n ∧ l = 0 ∧ s.child = .killed := by
  cases h with
  | gone => exact ⟨rfl, rfl, rfl⟩
  | opening parent => rcases parent with rfl | rfl | rfl <;> cases hexited
  | asked _ parent => rcases parent with rfl | rfl <;> cases hexited
  | handling _ parent => rcases parent with rfl | rfl <;> cases hexited
  | replying _ parent => rcases parent with rfl | rfl <;> cases hexited
  | answered _ parent => rcases parent with (rfl | rfl) | ⟨-, rfl⟩ <;> cases hexited
  | turn => cases hexited
  | closing => cases hexited
  | lost _ parent => rcases parent with (rfl | rfl) | ⟨-, rfl⟩ <;> cases hexited

theorem Phase.received_le (h : Phase n s r l) : r ≤ n := by
  cases h with
  | opening => exact Nat.zero_le n
  | asked bound | handling bound | turn bound => exact Nat.le_of_lt bound
  | replying bound => exact bound
  | answered bound | lost bound => exact bound
  | closing | gone => exact Nat.le_refl _

/-- Whatever the order of the steps, every run comes to an end, no two signals merge, and the
parent exits with the child killed after `n` receipts unless an answer reached it outside
`pause`. -/
theorem exits_iff_none_lost {as : List Act}
    (hrun : Machine.run (step n) start as = some (s, os)) :
    as.length ≤ 7 * n + 8 ∧ received os ≤ n ∧ Clean os ∧
      (s.parent = .exited → received os = n ∧ s.child = .killed) ∧
      ((∀ a, step n s a = none) → (s.parent = .exited ↔ lost os = 0)) := by
  obtain ⟨hphase, hclean⟩ := Phase.run hrun
  have hlength := length_add_rank_le hrun
  refine ⟨by omega, hphase.received_le, hclean, fun hexited => ?_, hphase.stuck⟩
  obtain ⟨hreceived, -, hkilled⟩ := hphase.exited hexited
  exact ⟨hreceived, hkilled⟩

/-- The child answers the third SIGUSR1 before the parent is back in `pause`. -/
def earlyAnswer : List Act :=
  [.parent, .parent, .child, .child, .deliverUsr2] ++
    (List.replicate 2 [.parent, .parent, .deliverUsr1, .child, .child, .deliverUsr2]).flatten ++
    [.parent, .deliverUsr1, .child, .child, .deliverUsr2, .parent, .child]

theorem exits_iff_none_lost_earlyAnswer :
    ∃ s os, Machine.run (step 5) start earlyAnswer = some (s, os) ∧ received os = 3 ∧
      (∀ a, step 5 s a = none) ∧ s.parent ≠ .exited := by
  have hmap : (Machine.run (step 5) start earlyAnswer).map
      (fun q => (q.1, received q.2, lost q.2)) =
      some (⟨.inPause 3, .paused, false, false⟩, 3, 1) := by
    decide +kernel
  obtain ⟨⟨s, os⟩, hrun, hq⟩ := Option.map_eq_some_iff.mp hmap
  obtain ⟨rfl, hrest⟩ := Prod.mk.inj hq
  obtain ⟨hreceived, hlost⟩ := Prod.mk.inj hrest
  have hstuck : ∀ a, step 5 ⟨.inPause 3, .paused, false, false⟩ a = none := by
    rintro (_ | _ | _ | _) <;> rfl
  refine ⟨_, os, hrun, hreceived, hstuck, fun hexited => ?_⟩
  have hnone := ((exits_iff_none_lost hrun).2.2.2.2 hstuck).mp hexited
  exact nomatch hlost.symm.trans hnone

end ProcessSignal
end Exercises
end LinuxEmbedded
