import LinuxEmbedded.Gateway.Sbuffer
import LinuxEmbedded.Lib.Mutex
import LinuxEmbedded.Lib.Wakeups
import Mathlib.Data.Fintype.Card

/-
Producers and consumers of the ring buffer at the grain of their pthread calls.

`SbufferThreads` makes every mutex-protected section one step.  Here the lock, the
work, the signal and the unlock are steps of their own, a signal says which
sleepers it wakes, and a woken consumer has to come back for the mutex like
everyone else.  Nothing waits on `not_full`.
-/
namespace LinuxEmbedded
namespace Gateway
namespace SbufferWakeup

variable {T P C : Type}

/-- Where a thread looping on `sbuffer_push` is. -/
inductive ProducerPc (T : Type) where
  | outside
  | atLock (data : SensorData T)
  | locked (data : SensorData T)
  /-- The record is stored and `not_empty` is not signalled yet. -/
  | stored
  | signalled

/-- Where a thread looping on `sbuffer_pop` is. -/
inductive ConsumerPc where
  | outside
  | atLock
  /-- At the test of the loop, with the mutex. -/
  | testing
  /-- In `pthread_cond_wait`, not signalled. -/
  | asleep
  /-- In `pthread_cond_wait`, coming back for the mutex. -/
  | woken
  /-- Past the loop, with the mutex. -/
  | leaving
  deriving DecidableEq

inductive Thread (P C : Type) where
  | producer (p : P)
  | consumer (c : C)
  deriving DecidableEq

structure State (T P C : Type) where
  sb : Sbuffer T
  shutdownFlag : Bool
  /-- The thread that holds `sb->mutex`. -/
  holder : Option (Thread P C)
  producers : P → ProducerPc T
  consumers : C → ConsumerPc

def start (sb : Sbuffer T) : State T P C where
  sb := sb
  shutdownFlag := false
  holder := none
  producers _ := .outside
  consumers _ := .outside

inductive Act (T P C : Type) where
  | callPush (p : P) (data : SensorData T)
  | lockPush (p : P)
  | store (p : P)
  | signal (p : P) (woken : Finset C)
  | unlockPush (p : P)
  | callPop (c : C)
  | lockPop (c : C)
  | popSection (c : C)
  | unlockPop (c : C)
  | spurious (c : C)
  | shutdown

variable [DecidableEq P] [DecidableEq C] [Fintype C]

namespace State

def moveProducer (s : State T P C) (p : P) (pc : ProducerPc T) : State T P C :=
  { s with producers := Function.update s.producers p pc }

def moveConsumer (s : State T P C) (c : C) (pc : ConsumerPc) : State T P C :=
  { s with consumers := Function.update s.consumers c pc }

def wake (s : State T P C) (woken : Finset C) : State T P C :=
  { s with consumers := fun c => if c ∈ woken then .woken else s.consumers c }

/-- The consumers blocked unsignalled on `not_empty`. -/
def blocked (s : State T P C) : Finset C :=
  Finset.univ.filter fun c => s.consumers c = .asleep

/-- The other consumers. -/
def awake (s : State T P C) : Finset C :=
  Finset.univ.filter fun c => s.consumers c ≠ .asleep

end State

/-- `pthread_cond_signal`: at least one waiter wakes if there is one. -/
def Signals (blocked woken : Finset C) : Prop :=
  woken ⊆ blocked ∧ (blocked.Nonempty → woken.Nonempty)

instance (blocked woken : Finset C) : Decidable (Signals blocked woken) :=
  inferInstanceAs (Decidable (_ ∧ _))

def step (s : State T P C) : Act T P C → Option (State T P C × List (Message T))
  | .callPush p data =>
    match s.producers p with
    | .outside => some (s.moveProducer p (.atLock data), [])
    | _ => none
  | .lockPush p =>
    match s.producers p, s.holder with
    | .atLock data, none =>
      some ({ s.moveProducer p (.locked data) with holder := some (.producer p) }, [])
    | _, _ => none
  | .store p =>
    match s.producers p with
    | .locked data =>
      (sbufferPushBody s.sb data).map fun q => ({ s.moveProducer p .stored with sb := q.1 }, q.2)
    | _ => none
  | .signal p woken =>
    match s.producers p with
    | .stored =>
      if Signals s.blocked woken then some ((s.moveProducer p .signalled).wake woken, [])
      else none
    | _ => none
  | .unlockPush p =>
    match s.producers p with
    | .signalled => some ({ s.moveProducer p .outside with holder := none }, [])
    | _ => none
  | .callPop c =>
    match s.consumers c with
    | .outside => some (s.moveConsumer c .atLock, [])
    | _ => none
  | .lockPop c =>
    match s.consumers c, s.holder with
    | .atLock, none | .woken, none =>
      some ({ s.moveConsumer c .testing with holder := some (.consumer c) }, [])
    | _, _ => none
  | .popSection c =>
    match s.consumers c with
    | .testing =>
      (sbufferPopSection .ok s.shutdownFlag s.sb).map fun q =>
        match q.1 with
        | .waits => ({ s.moveConsumer c .asleep with sb := q.2.1, holder := none }, q.2.2)
        | .returns _ _ => ({ s.moveConsumer c .leaving with sb := q.2.1 }, q.2.2)
    | _ => none
  | .unlockPop c =>
    match s.consumers c with
    | .leaving => some ({ s.moveConsumer c .outside with holder := none }, [])
    | _ => none
  | .spurious c =>
    match s.consumers c with
    | .asleep => some (s.moveConsumer c .woken, [])
    | _ => none
  | .shutdown => some ({ s with shutdownFlag := true }, [])

/-! ## What one step can do -/

/-- The moves of the threads over a consistent buffer. -/
inductive Moves (s : State T P C) : Act T P C → State T P C → Prop where
  | callPush {p data} (at_ : s.producers p = .outside) :
    Moves s (.callPush p data) (s.moveProducer p (.atLock data))
  | lockPush {p data} (at_ : s.producers p = .atLock data) (free : s.holder = none) :
    Moves s (.lockPush p) { s.moveProducer p (.locked data) with holder := some (.producer p) }
  | storeRoom {p data} (at_ : s.producers p = .locked data) (room : s.sb.count < s.sb.size) :
    Moves s (.store p) { s.moveProducer p .stored with sb := s.sb.pushRoom data }
  | storeFull {p data} (at_ : s.producers p = .locked data) :
    Moves s (.store p) { s.moveProducer p .stored with sb := s.sb.pushFull data }
  | signal {p woken} (at_ : s.producers p = .stored) (wakes : Signals s.blocked woken) :
    Moves s (.signal p woken) ((s.moveProducer p .signalled).wake woken)
  | unlockPush {p} (at_ : s.producers p = .signalled) :
    Moves s (.unlockPush p) { s.moveProducer p .outside with holder := none }
  | callPop {c} (at_ : s.consumers c = .outside) :
    Moves s (.callPop c) (s.moveConsumer c .atLock)
  | lockPop {c} (at_ : s.consumers c = .atLock ∨ s.consumers c = .woken)
      (free : s.holder = none) :
    Moves s (.lockPop c) { s.moveConsumer c .testing with holder := some (.consumer c) }
  | sleep {c} (at_ : s.consumers c = .testing) (empty : s.sb.count = 0) :
    Moves s (.popSection c) { s.moveConsumer c .asleep with holder := none }
  | giveUp {c} (at_ : s.consumers c = .testing) :
    Moves s (.popSection c) (s.moveConsumer c .leaving)
  | take {c} (at_ : s.consumers c = .testing) (stored : s.sb.count ≠ 0) :
    Moves s (.popSection c) { s.moveConsumer c .leaving with sb := s.sb.takeTail }
  | unlockPop {c} (at_ : s.consumers c = .leaving) :
    Moves s (.unlockPop c) { s.moveConsumer c .outside with holder := none }
  | spurious {c} (at_ : s.consumers c = .asleep) :
    Moves s (.spurious c) (s.moveConsumer c .woken)
  | shutdown : Moves s .shutdown { s with shutdownFlag := true }

theorem step_moves {s t : State T P C} {a : Act T P C} {os : List (Message T)}
    (h : s.sb.Inv) (hstep : step s a = some (t, os)) : Moves s a t := by
  cases a with
  | store p =>
    cases hp : s.producers p with
    | locked data =>
      simp only [step, hp] at hstep
      have hle := h.count_le
      by_cases hc : s.sb.count = s.sb.size
      · obtain ⟨record, -, hbody⟩ := Sbuffer.sbufferPushBody_of_full h hc data
        rw [hbody] at hstep
        rw [← (Prod.mk.inj (Option.some.inj hstep)).1]
        exact .storeFull hp
      · have hlt : s.sb.count < s.sb.size := by omega
        rw [Sbuffer.sbufferPushBody_of_room h hlt data] at hstep
        rw [← (Prod.mk.inj (Option.some.inj hstep)).1]
        exact .storeRoom hp hlt
    | _ => simp [step, hp] at hstep
  | popSection c =>
    cases hc : s.consumers c with
    | testing =>
      have hpop : sbufferPopSection .ok s.shutdownFlag s.sb =
        sbufferPop .ok s.shutdownFlag s.sb := rfl
      simp only [step, hc, hpop] at hstep
      rcases Sbuffer.sbufferPop_cases h s.shutdownFlag with
        ⟨hempty, _, he⟩ | ⟨_, _, he⟩ | ⟨hstored, data, _, he⟩
      · rw [he] at hstep
        rw [← (Prod.mk.inj (Option.some.inj hstep)).1]
        exact .sleep hc hempty
      · rw [he] at hstep
        rw [← (Prod.mk.inj (Option.some.inj hstep)).1]
        exact .giveUp hc
      · rw [he] at hstep
        rw [← (Prod.mk.inj (Option.some.inj hstep)).1]
        exact .take hc hstored
    | _ => simp [step, hc] at hstep
  | signal p woken =>
    cases hp : s.producers p with
    | stored =>
      simp only [step, hp] at hstep
      obtain ⟨hwakes, ht⟩ := Option.ite_none_right_eq_some.mp hstep
      rw [← (Prod.mk.inj (Option.some.inj ht)).1]
      exact .signal hp hwakes
    | _ => simp [step, hp] at hstep
  | lockPush p =>
    cases hp : s.producers p <;> cases hfree : s.holder <;> simp [step, hp, hfree] at hstep
    rw [← hstep.1]
    exact .lockPush hp hfree
  | lockPop c =>
    cases hc : s.consumers c <;> cases hfree : s.holder <;> simp [step, hc, hfree] at hstep
    · rw [← hstep.1]
      exact .lockPop (Or.inl hc) hfree
    · rw [← hstep.1]
      exact .lockPop (Or.inr hc) hfree
  | callPush p data =>
    cases hp : s.producers p <;> simp [step, hp] at hstep
    rw [← hstep.1]
    exact .callPush hp
  | unlockPush p =>
    cases hp : s.producers p <;> simp [step, hp] at hstep
    rw [← hstep.1]
    exact .unlockPush hp
  | callPop c =>
    cases hc : s.consumers c <;> simp [step, hc] at hstep
    rw [← hstep.1]
    exact .callPop hc
  | unlockPop c =>
    cases hc : s.consumers c <;> simp [step, hc] at hstep
    rw [← hstep.1]
    exact .unlockPop hc
  | spurious c =>
    cases hc : s.consumers c <;> simp [step, hc] at hstep
    rw [← hstep.1]
    exact .spurious hc
  | shutdown =>
    rw [← (Prod.mk.inj (Option.some.inj hstep)).1]
    exact .shutdown

/-! ## The blocked consumers after a move -/

section Blocked

variable {s : State T P C} {c : C}

omit [DecidableEq P] [DecidableEq C] in
@[simp] theorem mem_blocked : c ∈ s.blocked ↔ s.consumers c = .asleep := by
  rw [State.blocked, Finset.mem_filter]
  exact ⟨fun h => h.2, fun h => ⟨Finset.mem_univ c, h⟩⟩

omit [DecidableEq P] in
theorem blocked_stay {pc : ConsumerPc} (hc : s.consumers c ≠ .asleep) (hpc : pc ≠ .asleep) :
    (s.moveConsumer c pc).blocked = s.blocked := by
  ext d
  rw [mem_blocked, mem_blocked]
  by_cases hd : d = c
  · subst hd
    simp [State.moveConsumer, hc, hpc]
  · simp [State.moveConsumer, hd]

omit [DecidableEq P] in
theorem blocked_sleep : (s.moveConsumer c .asleep).blocked = insert c s.blocked := by
  ext d
  rw [mem_blocked, Finset.mem_insert, mem_blocked]
  by_cases hd : d = c
  · subst hd
    simp [State.moveConsumer]
  · simp [State.moveConsumer, hd]

omit [DecidableEq P] in
theorem blocked_spurious : (s.moveConsumer c .woken).blocked = s.blocked.erase c := by
  ext d
  rw [mem_blocked, Finset.mem_erase, mem_blocked]
  by_cases hd : d = c
  · subst hd
    simp [State.moveConsumer]
  · simp [State.moveConsumer, hd]

omit [DecidableEq P] in
theorem blocked_wake (woken : Finset C) : (s.wake woken).blocked = s.blocked \ woken := by
  ext d
  rw [mem_blocked, Finset.mem_sdiff, mem_blocked]
  by_cases hd : d ∈ woken <;> simp [State.wake, hd]

omit [DecidableEq P] [DecidableEq C] in
theorem awake_card (s : State T P C) :
    s.blocked.card + s.awake.card = Fintype.card C :=
  Finset.card_filter_add_card_filter_not _

end Blocked

/-! ## Who is inside the mutex, and who owes a signal -/

def ProducerPc.inside : ProducerPc T → Bool
  | .locked _ | .stored | .signalled => true
  | _ => false

def ConsumerPc.inside : ConsumerPc → Bool
  | .testing | .leaving => true
  | _ => false

def State.inside (s : State T P C) : Thread P C → Bool
  | .producer p => (s.producers p).inside
  | .consumer c => (s.consumers c).inside

omit [DecidableEq P] [DecidableEq C] [Fintype C] in
theorem inside_producer {s : State T P C} {p : P} {pc : ProducerPc T}
    (hp : s.producers p = pc) : s.inside (.producer p) = pc.inside := by
  rw [State.inside, hp]

omit [DecidableEq P] [DecidableEq C] [Fintype C] in
theorem inside_consumer {s : State T P C} {c : C} {pc : ConsumerPc}
    (hc : s.consumers c = pc) : s.inside (.consumer c) = pc.inside := by
  rw [State.inside, hc]

def State.Owed (s : State T P C) : Prop := ∃ p, s.producers p = .stored

omit [Fintype C] in
theorem inside_moveProducer (s : State T P C) (p : P) (pc : ProducerPc T) :
    (s.moveProducer p pc).inside = Function.update s.inside (.producer p) pc.inside := by
  funext x
  cases x with
  | producer p' =>
    by_cases hp : p' = p
    · subst hp
      simp [State.inside, State.moveProducer]
    · simp [State.inside, State.moveProducer, hp]
  | consumer c => simp [State.inside, State.moveProducer]

omit [Fintype C] in
theorem inside_moveConsumer (s : State T P C) (c : C) (pc : ConsumerPc) :
    (s.moveConsumer c pc).inside = Function.update s.inside (.consumer c) pc.inside := by
  funext x
  cases x with
  | producer p => simp [State.inside, State.moveConsumer]
  | consumer c' =>
    by_cases hc : c' = c
    · subst hc
      simp [State.inside, State.moveConsumer]
    · simp [State.inside, State.moveConsumer, hc]

omit [DecidableEq P] in
/-- A signal moves sleepers to other sleepers. -/
theorem inside_wake {s : State T P C} {woken : Finset C} (h : woken ⊆ s.blocked) :
    (s.wake woken).inside = s.inside := by
  funext x
  cases x with
  | producer p => rfl
  | consumer c =>
    by_cases hc : c ∈ woken
    · have hasleep : s.consumers c = .asleep := mem_blocked.mp (h hc)
      simp [State.inside, State.wake, hc, hasleep, ConsumerPc.inside]
    · simp [State.inside, State.wake, hc]

omit [DecidableEq C] [Fintype C] in
theorem owed_stay {s : State T P C} {p : P} {pc : ProducerPc T}
    (hp : s.producers p ≠ .stored) (hpc : pc ≠ .stored) :
    (s.moveProducer p pc).Owed ↔ s.Owed := by
  constructor
  · intro ⟨p', h⟩
    by_cases he : p' = p
    · subst he
      have h : Function.update s.producers p' pc p' = .stored := h
      rw [Function.update_self] at h
      exact absurd h hpc
    · have h : Function.update s.producers p pc p' = .stored := h
      rw [Function.update_of_ne he] at h
      exact ⟨p', h⟩
  · intro ⟨p', h⟩
    have he : p' ≠ p := fun he => hp (he ▸ h)
    refine ⟨p', ?_⟩
    show Function.update s.producers p pc p' = .stored
    rw [Function.update_of_ne he]
    exact h

/-! ## The threads refine the counts of items and sleepers -/

structure Refines (s : State T P C) (q : Wakeups.State) : Prop where
  inv : s.sb.Inv
  exclusive : Mutex.Exclusive s.inside s.holder
  items : q.items = s.sb.count
  blocked : q.blocked = s.blocked.card
  owed : q.owed = true ↔ s.Owed

omit [DecidableEq P] [DecidableEq C] in
/-- The thread inside is not about to signal, so no signal is owed. -/
theorem Refines.not_owed {s : State T P C} {q : Wakeups.State} (h : Refines s q)
    {x : Thread P C} (hx : s.inside x = true)
    (hnot : ∀ p, x = .producer p → s.producers p ≠ .stored) : q.owed = false := by
  by_cases ho : q.owed = true
  · obtain ⟨p, hp⟩ := h.owed.mp ho
    have hin : s.inside (.producer p) = true := inside_producer hp
    exact absurd hp (hnot p (h.exclusive.unique hx hin))
  · simpa using ho

theorem refines_store {s : State T P C} {q : Wakeups.State} (h : Refines s q) {p : P}
    {data : SensorData T} (hp : s.producers p = .locked data) {sb : Sbuffer T} (hinv : sb.Inv)
    (replaced : Bool) (hcount : sb.count = if replaced then s.sb.count else s.sb.count + 1) :
    ∃ q', Wakeups.step (Fintype.card C) q (.store replaced) = some (q', []) ∧
      Refines { s.moveProducer p .stored with sb } q' := by
  have hin : s.inside (.producer p) = true := inside_producer hp
  have howed : q.owed = false := by
    apply h.not_owed hin
    intro p' he
    cases he
    rw [hp]
    intro hc
    cases hc
  refine ⟨_, if_neg (by rw [howed]; exact Bool.false_ne_true), hinv, ?_, ?_, h.blocked, ?_⟩
  · show Mutex.Exclusive (s.moveProducer p .stored).inside s.holder
    rw [inside_moveProducer]
    exact h.exclusive.stay hin
  · show (if replaced = true then q.items else q.items + 1) = sb.count
    rw [hcount, h.items]
  · constructor
    · intro _
      exact ⟨p, Function.update_self ..⟩
    · intro _
      rfl

theorem refines_signal {s : State T P C} {q : Wakeups.State} (h : Refines s q) {p : P}
    (hp : s.producers p = .stored) {woken : Finset C} (hwakes : Signals s.blocked woken) :
    ∃ q', Wakeups.step (Fintype.card C) q (.signal woken.card) = some (q', []) ∧
      Refines ((s.moveProducer p .signalled).wake woken) q' := by
  have hin : s.inside (.producer p) = true := inside_producer hp
  obtain ⟨hsub, hsome⟩ := hwakes
  have hguard : q.owed = true ∧ woken.card ≤ q.blocked ∧ (0 < q.blocked → 0 < woken.card) := by
    rw [h.blocked]
    exact ⟨h.owed.mpr ⟨p, hp⟩, Finset.card_le_card hsub,
      fun hb => (hsome (Finset.card_pos.mp hb)).card_pos⟩
  have hblocked : (s.moveProducer p .signalled).blocked = s.blocked := rfl
  refine ⟨_, if_pos hguard, h.inv, ?_, h.items, ?_, ?_⟩
  · rw [inside_wake (hblocked ▸ hsub), inside_moveProducer]
    exact h.exclusive.stay hin
  · rw [blocked_wake, hblocked, Finset.card_sdiff_of_subset hsub, ← h.blocked]
  · constructor
    · intro hf
      cases hf
    · intro ⟨p', hp'⟩
      -- another producer that owes a signal would be inside as well
      have hp' : Function.update s.producers p .signalled p' = .stored := hp'
      by_cases he : p' = p
      · rw [he, Function.update_self] at hp'
        cases hp'
      · rw [Function.update_of_ne he] at hp'
        have hin' : s.inside (.producer p') = true := inside_producer hp'
        have hsame := h.exclusive.unique hin' hin
        cases hsame
        exact absurd rfl he

section Consumer

variable {s : State T P C} {q : Wakeups.State} {c : C}

omit [DecidableEq P] [DecidableEq C] in
theorem Refines.not_owed_of_testing (h : Refines s q) (hc : s.consumers c = .testing) :
    q.owed = false := by
  apply h.not_owed (inside_consumer hc)
  intro p he
  cases he

theorem refines_sleep (h : Refines s q) (hc : s.consumers c = .testing)
    (hempty : s.sb.count = 0) :
    ∃ q', Wakeups.step (Fintype.card C) q .block = some (q', []) ∧
      Refines { s.moveConsumer c .asleep with holder := none } q' := by
  have hout : c ∉ s.blocked := by
    rw [mem_blocked, hc]
    intro he
    cases he
  have hguard : q.owed = false ∧ q.items = 0 ∧ q.blocked < Fintype.card C := by
    refine ⟨h.not_owed_of_testing hc, h.items.trans hempty, ?_⟩
    rw [h.blocked]
    exact Finset.card_lt_univ_of_notMem hout
  refine ⟨_, if_pos hguard, h.inv, ?_, h.items, ?_, h.owed⟩
  · show Mutex.Exclusive (s.moveConsumer c .asleep).inside none
    rw [inside_moveConsumer]
    exact h.exclusive.leave (inside_consumer hc)
  · show q.blocked + 1 = (s.moveConsumer c .asleep).blocked.card
    rw [blocked_sleep, Finset.card_insert_of_notMem hout, h.blocked]

theorem refines_take (h : Refines s q) (hc : s.consumers c = .testing)
    (hstored : s.sb.count ≠ 0) :
    ∃ q', Wakeups.step (Fintype.card C) q .take = some (q', []) ∧
      Refines { s.moveConsumer c .leaving with sb := s.sb.takeTail } q' := by
  have hguard : q.owed = false ∧ 0 < q.items := by
    rw [h.items]
    exact ⟨h.not_owed_of_testing hc, Nat.pos_of_ne_zero hstored⟩
  refine ⟨_, if_pos hguard, h.inv.takeTail hstored, ?_, ?_, ?_, h.owed⟩
  · show Mutex.Exclusive (s.moveConsumer c .leaving).inside s.holder
    rw [inside_moveConsumer]
    have hin : s.inside (.consumer c) = true := inside_consumer hc
    exact h.exclusive.stay hin
  · show q.items - 1 = s.sb.count - 1
    rw [h.items]
  · show q.blocked = (s.moveConsumer c .leaving).blocked.card
    rw [blocked_stay (by rw [hc]; decide) (by decide), h.blocked]

theorem refines_spurious (h : Refines s q) (hc : s.consumers c = .asleep) :
    ∃ q', Wakeups.step (Fintype.card C) q .wake = some (q', []) ∧
      Refines (s.moveConsumer c .woken) q' := by
  have hmem : c ∈ s.blocked := mem_blocked.mpr hc
  have hguard : 0 < q.blocked := by
    rw [h.blocked]
    exact Finset.card_pos.mpr ⟨c, hmem⟩
  have hin : s.inside (.consumer c) = false := inside_consumer hc
  refine ⟨_, if_pos hguard, h.inv, ?_, h.items, ?_, h.owed⟩
  · rw [inside_moveConsumer]
    exact h.exclusive.stay hin
  · show q.blocked - 1 = (s.moveConsumer c .woken).blocked.card
    rw [blocked_spurious, Finset.card_erase_of_mem hmem, h.blocked]

end Consumer

/-! A thread that only comes and goes changes no count. -/

theorem refines_producer {s : State T P C} {q : Wakeups.State} (h : Refines s q) {p : P}
    {pc : ProducerPc T} {holder : Option (Thread P C)} (hp : s.producers p ≠ .stored)
    (hpc : pc ≠ .stored)
    (hx : Mutex.Exclusive (Function.update s.inside (.producer p) pc.inside) holder) :
    Refines { s.moveProducer p pc with holder } q where
  inv := h.inv
  exclusive := by
    show Mutex.Exclusive (s.moveProducer p pc).inside holder
    rw [inside_moveProducer]
    exact hx
  items := h.items
  blocked := h.blocked
  owed := h.owed.trans (owed_stay hp hpc).symm

theorem refines_consumer {s : State T P C} {q : Wakeups.State} (h : Refines s q) {c : C}
    {pc : ConsumerPc} {holder : Option (Thread P C)} (hc : s.consumers c ≠ .asleep)
    (hpc : pc ≠ .asleep)
    (hx : Mutex.Exclusive (Function.update s.inside (.consumer c) pc.inside) holder) :
    Refines { s.moveConsumer c pc with holder } q where
  inv := h.inv
  exclusive := by
    show Mutex.Exclusive (s.moveConsumer c pc).inside holder
    rw [inside_moveConsumer]
    exact hx
  items := h.items
  blocked := by
    show q.blocked = (s.moveConsumer c pc).blocked.card
    rw [blocked_stay hc hpc, h.blocked]
  owed := h.owed

/-- Every move of the threads is a move of the counts, or none. -/
theorem moves_refine {s t : State T P C} {a : Act T P C} {q : Wakeups.State}
    (h : Refines s q) (hmove : Moves s a t) :
    ∃ bs q', Machine.run (Wakeups.step (Fintype.card C)) q bs = some (q', []) ∧
      Refines t q' := by
  cases hmove with
  | storeRoom hp hroom =>
    obtain ⟨q', hq, hR⟩ := refines_store h hp (h.inv.pushRoom hroom _) false rfl
    exact ⟨_, q', Machine.run_single hq, hR⟩
  | storeFull hp =>
    obtain ⟨q', hq, hR⟩ := refines_store h hp (h.inv.pushFull _) true rfl
    exact ⟨_, q', Machine.run_single hq, hR⟩
  | signal hp hwakes =>
    obtain ⟨q', hq, hR⟩ := refines_signal h hp hwakes
    exact ⟨_, q', Machine.run_single hq, hR⟩
  | sleep hc hempty =>
    obtain ⟨q', hq, hR⟩ := refines_sleep h hc hempty
    exact ⟨_, q', Machine.run_single hq, hR⟩
  | take hc hstored =>
    obtain ⟨q', hq, hR⟩ := refines_take h hc hstored
    exact ⟨_, q', Machine.run_single hq, hR⟩
  | spurious hc =>
    obtain ⟨q', hq, hR⟩ := refines_spurious h hc
    exact ⟨_, q', Machine.run_single hq, hR⟩
  | @callPush p _ hp =>
    have hin : s.inside (.producer p) = false := inside_producer hp
    exact ⟨[], q, rfl, refines_producer h (by rw [hp]; simp) (by simp) (h.exclusive.stay hin)⟩
  | @lockPush p _ hp hfree =>
    have hx : Mutex.Exclusive s.inside none := hfree ▸ h.exclusive
    exact ⟨[], q, rfl, refines_producer h (by rw [hp]; simp) (by simp) (hx.enter _)⟩
  | @unlockPush p hp =>
    have hin : s.inside (.producer p) = true := inside_producer hp
    exact ⟨[], q, rfl, refines_producer h (by rw [hp]; simp) (by simp) (h.exclusive.leave hin)⟩
  | @callPop c hc =>
    have hin : s.inside (.consumer c) = false := inside_consumer hc
    exact ⟨[], q, rfl, refines_consumer h (by rw [hc]; simp) (by simp) (h.exclusive.stay hin)⟩
  | @lockPop c hc hfree =>
    have hx : Mutex.Exclusive s.inside none := hfree ▸ h.exclusive
    have hawake : s.consumers c ≠ .asleep := by
      rcases hc with hc | hc <;> rw [hc] <;> simp
    exact ⟨[], q, rfl, refines_consumer h hawake (by simp) (hx.enter _)⟩
  | @giveUp c hc =>
    have hin : s.inside (.consumer c) = true := inside_consumer hc
    exact ⟨[], q, rfl, refines_consumer h (by rw [hc]; simp) (by simp) (h.exclusive.stay hin)⟩
  | @unlockPop c hc =>
    have hin : s.inside (.consumer c) = true := inside_consumer hc
    exact ⟨[], q, rfl, refines_consumer h (by rw [hc]; simp) (by simp) (h.exclusive.leave hin)⟩
  | shutdown =>
    exact ⟨[], q, rfl, h.inv, h.exclusive, h.items, h.blocked, h.owed⟩

omit [DecidableEq P] [DecidableEq C] in
theorem refines_start {sb : Sbuffer T} (hinv : sb.Inv) (hcount : sb.count = 0) :
    Refines (start sb : State T P C) Wakeups.start where
  inv := hinv
  exclusive := by
    intro x
    cases x <;> simp [State.inside, start, ProducerPc.inside, ConsumerPc.inside]
  items := hcount.symm
  blocked := by
    have hnone : (start sb : State T P C).blocked = ∅ := by
      ext c
      rw [mem_blocked]
      simp [start]
    rw [hnone]
    rfl
  owed := by
    simp [Wakeups.start, State.Owed, start]

/-- In every state reached with the mutex free, the stored records do not
outnumber the consumers that are awake if any is blocked; with a consumer at all,
a nonempty buffer finds one awake. -/
theorem no_wakeup_lost {N : Nat} {block : Option (List (SensorData T))} {sb : Sbuffer T}
    {s : State T P C} (hN : 1 ≤ N) (hblock : ∀ b, block = some b → b.length = N)
    (hinit : sbufferInit .ok (N : Int) block = some sb)
    (hreach : Machine.Reachable step (start sb) s) (hfree : s.holder = none) :
    (0 < s.blocked.card → s.sb.count ≤ s.awake.card ∧
      s.awake.card = Fintype.card C - s.blocked.card) ∧
    (0 < Fintype.card C → (∀ c, s.consumers c = .asleep) → s.sb.count = 0) := by
  obtain ⟨hinv, _, hcount⟩ := Sbuffer.sbufferInit_inv hN hblock hinit
  obtain ⟨as, os, hrun⟩ := hreach
  obtain ⟨bs, q, hq, hR⟩ := Machine.run_refines (R := Refines)
    (fun u q a t os' hR hstep => by
      rw [List.filterMap_none]
      exact moves_refine hR (step_moves hR.inv hstep))
    (refines_start hinv hcount) hrun
  have hcovered := (Wakeups.reachable_covered ⟨bs, _, hq⟩).2
  have howed : q.owed = false := by
    by_cases ho : q.owed = true
    · obtain ⟨p, hp⟩ := hR.owed.mp ho
      have hx : Mutex.Exclusive s.inside none := hfree ▸ hR.exclusive
      have hin := hx.not_inside (.producer p)
      rw [State.inside, hp] at hin
      cases hin
    · simpa using ho
  rw [howed, hR.blocked, hR.items, Bool.toNat_false] at hcovered
  have hcard := awake_card s
  refine ⟨fun hb => ?_, fun hpos hall => ?_⟩
  · have hle := hcovered hb
    omega
  · have hblocked : s.blocked = Finset.univ := by
      ext c
      simp [hall c]
    rw [hblocked, Finset.card_univ] at hcovered
    have hle := hcovered hpos
    omega

/- Two consumers fall asleep on a buffer of one slot, and a push wakes one of them. -/
def oneWoken : List (Act Unit Unit (Fin 2)) :=
  let first : Fin 2 := ⟨0, Nat.two_pos⟩
  let second : Fin 2 := ⟨1, Nat.one_lt_two⟩
  [.callPop first, .lockPop first, .popSection first, .callPop second, .lockPop second,
    .popSection second, .callPush () ⟨1, (), 5⟩, .lockPush (), .store (), .signal () {second},
    .unlockPush ()]

/-- The record is stored, one consumer is asleep, and the other comes back for it. -/
theorem no_wakeup_lost_one_asleep :
    ∃ (s : State Unit Unit (Fin 2)) (os : List (Message Unit)),
      Machine.run step (start ⟨[⟨0, (), 0⟩], 1, 0, 0, 0⟩) oneWoken = some (s, os) ∧
      s.holder = none ∧ s.consumers ⟨0, Nat.two_pos⟩ = .asleep ∧
      s.consumers ⟨1, Nat.one_lt_two⟩ = .woken ∧ s.sb.count = 1 ∧
      (0 < s.blocked.card → s.sb.count ≤ s.awake.card ∧
        s.awake.card = Fintype.card (Fin 2) - s.blocked.card) ∧
      (0 < Fintype.card (Fin 2) → (∀ c, s.consumers c = .asleep) → s.sb.count = 0) := by
  have hblock := length_of_allocated (rfl : [(⟨0, (), 0⟩ : SensorData Unit)].length = 1)
  refine ⟨_, _, rfl, rfl, rfl, rfl, rfl, ?_⟩
  exact no_wakeup_lost (Nat.le_refl 1) hblock rfl ⟨oneWoken, _, rfl⟩ rfl

end SbufferWakeup
end Gateway
end LinuxEmbedded
