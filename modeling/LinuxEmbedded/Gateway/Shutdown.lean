import LinuxEmbedded.Gateway.Sbuffer
import LinuxEmbedded.Lib.Machine
import LinuxEmbedded.Lib.Mutex
import Mathlib.Data.Fintype.Card

/-
The gateway from the start of its threads to the end of `main`, at the grain of
its pthread calls.

`main` runs `run_keep_alive`, the shutdown sequence and `sbuffer_free`.  The
connection manager and any number of consumers are detached and never joined.
SIGINT can interrupt any thread at any time, and its handler runs in that thread.
Every thread is a program: at each point it does one thing to the shared state
and goes on to the next point.  Using a destroyed mutex or the freed array is
undefined behaviour, and the run ends there.
-/
namespace LinuxEmbedded
namespace Gateway
namespace Shutdown

variable {T C : Type}

inductive Thread (C : Type) where
  | main
  | connectionManager
  | consumer (c : C)
  deriving DecidableEq

/-- A `pthread_mutex_t`. -/
structure PthreadMutex (C : Type) where
  holder : Option (Thread C)
  destroyed : Bool
  deriving DecidableEq

def PthreadMutex.fresh : PthreadMutex C := ⟨none, false⟩

/-- The number of polls, `max_wait * 10`. -/
def maxPolls : Nat := 100

/-- Where `main` is. -/
inductive MainPc where
  /-- At the test of `run_keep_alive`. -/
  | keepAlive
  | sleeping
  | sweepLock
  | sweeping
  | flagLock
  | flagging
  | flagUnlock
  | wakeLock
  | broadcasting
  | wakeUnlock
  /-- At the test of the polling loop. -/
  | polling (i : Nat)
  | pollLock (i : Nat)
  | pollRead (i : Nat)
  | pollUnlock (i bufferCount : Nat)
  | destroying
  /-- At the call of `sbuffer_free`. -/
  | freeing
  | freeLock
  | clearing
  | freeUnlock
  | freeDestroying (destroyRetries : Nat)
  | freed
  | exiting
  | exited
  deriving DecidableEq

/-- What `connection_manager` does under `conn_mutex`, and how many ready clients
the pass has left. -/
inductive Section where
  | track (ready : Nat)
  | touch (ready : Nat)
  | remove (ready : Nat)
  | cleanup
  deriving DecidableEq

/-- Where `connection_manager` is. -/
inductive ConnectionPc (T : Type) where
  | starting
  /-- At the test of the main loop. -/
  | head
  | selecting
  /-- At the test of `handle_new_connection`. -/
  | newConnection (listening : Bool) (ready : Nat)
  /-- At the test of `handle_client_data`. -/
  | clientData (ready : Nat)
  /-- In its loop. -/
  | serving (ready : Nat)
  | pushLock (data : SensorData T) (ready : Nat)
  | pushing (data : SensorData T) (ready : Nat)
  | signalling (ready : Nat)
  | pushUnlock (ready : Nat)
  | connLock (sec : Section)
  | inSection (sec : Section)
  | closing
  | ended

/-- Where `data_manager` or `storage_manager` is.  The two tests of
`storage_manager` in a row are one test. -/
inductive ConsumerPc where
  | starting
  /-- At the test of the main loop. -/
  | head
  /-- At the test of the pop loop. -/
  | popping (popRetries : Nat)
  | popLock (popRetries : Nat)
  /-- At the test of the wait loop, with the mutex. -/
  | testing (popRetries : Nat)
  /-- About to wait, with the mutex. -/
  | waiting (popRetries : Nat)
  /-- Blocked on `not_empty`. -/
  | asleep (popRetries : Nat)
  /-- Back from `not_empty`, and waiting for the mutex. -/
  | woken (popRetries : Nat)
  | popUnlock (popRetries : Nat) (popped : Bool)
  /-- `sbuffer_pop` has returned -1. -/
  | popFailed (popRetries : Nat)
  | working
  | cleanup
  | ended
  deriving DecidableEq

inductive Pc (T : Type) where
  | main (p : MainPc)
  | connection (p : ConnectionPc T)
  | consumer (p : ConsumerPc)

/-- Where a thread is in `sigint_handler`. -/
inductive HandlerPc where
  | idle
  | flagLock
  | flagging
  | flagUnlock
  | logging
  deriving DecidableEq

/-- What one point of a program does. -/
inductive Effect (T C : Type) where
  | skip
  | setFlag
  | lockConn
  | unlockConn
  | destroyConn
  | lockSb
  | unlockSb
  | destroySb
  | store (data : SensorData T)
  | take
  | signal (woken : Option C)
  | broadcast
  | beginFree
  | clear
  | free
  | accepted
  | removed

structure State (T C : Type) where
  sb : Sbuffer T
  sbMutex : PthreadMutex C
  connMutex : PthreadMutex C
  shutdownFlag : Bool
  clientCount : Nat
  pc : Thread C → Pc T
  handler : Thread C → HandlerPc
  /-- Undefined behaviour has been reached. -/
  undefined : Bool

def startPc : Thread C → Pc T
  | .main => .main .keepAlive
  | .connectionManager => .connection .starting
  | .consumer _ => .consumer .starting

def start (sb : Sbuffer T) : State T C where
  sb := sb
  sbMutex := .fresh
  connMutex := .fresh
  shutdownFlag := false
  clientCount := 0
  pc := startPc
  handler _ := .idle
  undefined := false

/-- What the kernel and the libraries answer. -/
inductive Answer (T C : Type) where
  | none
  /-- `storage_manager` returns early when it cannot open the database. -/
  | opened (ok : Bool)
  /-- `select` reports the listening socket and this many clients. -/
  | select (listening : Bool) (ready : Nat)
  /-- `select` reports nothing or fails. -/
  | nothing
  | accept (ok : Bool)
  /-- `read` returns a reading, or end of file or an error. -/
  | read (data : Option (SensorData T))
  | woken (c : Option C)

inductive Act (T C : Type) where
  | run (t : Thread C) (answer : Answer T C)
  | sigint (t : Thread C)
  | handle (t : Thread C)
  /-- A spurious wakeup. -/
  | wake (c : C)

inductive Event (C : Type) where
  /-- A step inside `sbuffer_push` or `sbuffer_pop`. -/
  | inSbuffer (t : Thread C)
  /-- Such a step that finds `size == 0` and `buffer == NULL`. -/
  | onFreed (t : Thread C)
  /-- `conn_mutex` is locked or unlocked. -/
  | onConnMutex (t : Thread C)
  | connDestroyed
  | freeBegun
  deriving DecidableEq

/-! ## The programs -/

/-- `main` from `run_keep_alive` on. -/
def mainNext (s : State T C) : MainPc → Option (Effect T C × MainPc)
  | .keepAlive => some (.skip, if s.shutdownFlag then .flagLock else .sleeping)
  | .sleeping => some (.skip, .sweepLock)
  | .sweepLock => some (.lockConn, .sweeping)
  | .sweeping => some (.unlockConn, .keepAlive)
  | .flagLock => some (.lockConn, .flagging)
  | .flagging => some (.setFlag, .flagUnlock)
  | .flagUnlock => some (.unlockConn, .wakeLock)
  | .wakeLock => some (.lockSb, .broadcasting)
  | .broadcasting => some (.broadcast, .wakeUnlock)
  | .wakeUnlock => some (.unlockSb, .polling 0)
  | .polling i => some (.skip, if i < maxPolls then .pollLock i else .destroying)
  | .pollLock i => some (.lockSb, .pollRead i)
  | .pollRead i => some (.skip, .pollUnlock i s.sb.count)
  | .pollUnlock i bufferCount =>
    some (.unlockSb, if bufferCount = 0 then .destroying else .polling (i + 1))
  | .destroying => some (.destroyConn, .freeing)
  | .freeing => some (.beginFree, .freeLock)
  | .freeLock => some (.lockSb, .clearing)
  | .clearing => some (.clear, .freeUnlock)
  | .freeUnlock => some (.unlockSb, .freeDestroying 0)
  | .freeDestroying destroyRetries =>
    if destroyRetries < maxRetries then
      some (.destroySb,
        if s.sbMutex.holder = none then .freed else .freeDestroying (destroyRetries + 1))
    else some (.skip, .freed)
  | .freed => some (.free, .exiting)
  | .exiting => some (.skip, .exited)
  | .exited => none

/-- `connection_manager` from its main loop on. -/
def connectionNext (s : State T C) (answer : Answer T C) :
    ConnectionPc T → Option (Effect T C × ConnectionPc T)
  | .starting => some (.skip, .head)
  | .head => some (.skip, if s.shutdownFlag then .connLock .cleanup else .selecting)
  | .selecting =>
    match answer with
    | .select listening ready =>
      if ready ≤ s.clientCount then some (.skip, .newConnection listening ready) else none
    | .nothing => some (.skip, .head)
    | _ => none
  | .newConnection listening ready =>
    if s.shutdownFlag then some (.skip, .clientData ready)
    else if listening then
      match answer with
      | .accept true =>
        if s.clientCount < maxSensors then some (.accepted, .connLock (.track ready))
        else some (.skip, .clientData ready)
      | .accept false => some (.skip, .clientData ready)
      | _ => none
    else some (.skip, .clientData ready)
  | .clientData ready => some (.skip, if s.shutdownFlag then .head else .serving ready)
  | .serving 0 => some (.skip, .head)
  | .serving (ready + 1) =>
    match answer with
    | .read (some data) => some (.skip, .pushLock data ready)
    | .read none => some (.skip, .connLock (.remove ready))
    | _ => none
  | .pushLock data ready => some (.lockSb, .pushing data ready)
  | .pushing data ready => some (.store data, .signalling ready)
  | .signalling ready =>
    match answer with
    | .woken c => some (.signal c, .pushUnlock ready)
    | _ => none
  | .pushUnlock ready => some (.unlockSb, .connLock (.touch ready))
  | .connLock sec => some (.lockConn, .inSection sec)
  | .inSection (.track ready) => some (.unlockConn, .clientData ready)
  | .inSection (.touch ready) => some (.unlockConn, .serving ready)
  | .inSection (.remove ready) => some (.removed, .serving ready)
  | .inSection .cleanup => some (.unlockConn, .closing)
  | .closing => some (.skip, .ended)
  | .ended => none

/-- The loop of `data_manager` and `storage_manager` with `sbuffer_pop`. -/
def consumerNext (s : State T C) (answer : Answer T C) :
    ConsumerPc → Option (Effect T C × ConsumerPc)
  | .starting =>
    match answer with
    | .opened ok => some (.skip, if ok then .head else .ended)
    | _ => none
  | .head => some (.skip, if s.shutdownFlag then .cleanup else .popping 0)
  | .popping popRetries =>
    some (.skip, if popRetries < maxRetries then .popLock popRetries else .head)
  | .popLock popRetries => some (.lockSb, .testing popRetries)
  | .testing popRetries =>
    if s.sb.count = 0 ∧ s.shutdownFlag = false then some (.skip, .waiting popRetries)
    else if s.sb.count = 0 then some (.skip, .popUnlock popRetries false)
    else some (.take, .popUnlock popRetries true)
  | .waiting popRetries => some (.unlockSb, .asleep popRetries)
  | .asleep _ => none
  | .woken popRetries => some (.lockSb, .testing popRetries)
  | .popUnlock popRetries popped =>
    some (.unlockSb, if popped then .working else .popFailed popRetries)
  | .popFailed popRetries =>
    some (.skip, if s.shutdownFlag then .cleanup else .popping (popRetries + 1))
  | .working => some (.skip, .head)
  | .cleanup => some (.skip, .ended)
  | .ended => none

def next (s : State T C) (answer : Answer T C) : Pc T → Option (Effect T C × Pc T)
  | .main p => (mainNext s p).map fun q => (q.1, .main q.2)
  | .connection p => (connectionNext s answer p).map fun q => (q.1, .connection q.2)
  | .consumer p => (consumerNext s answer p).map fun q => (q.1, .consumer q.2)

/-- `sigint_handler`. -/
def handlerNext : HandlerPc → Option (Effect T C × HandlerPc)
  | .idle => none
  | .flagLock => some (.lockConn, .flagging)
  | .flagging => some (.setFlag, .flagUnlock)
  | .flagUnlock => some (.unlockConn, .logging)
  | .logging => some (.skip, .idle)

/-! ## The effects -/

/-- Blocked on `not_empty`. -/
def Pc.isAsleep : Pc T → Bool
  | .consumer (.asleep _) => true
  | _ => false

def Pc.wake : Pc T → Pc T
  | .consumer (.asleep popRetries) => .consumer (.woken popRetries)
  | p => p

/-- Between the call and the return of `sbuffer_push` or `sbuffer_pop`. -/
def Pc.inSbuffer : Pc T → Bool
  | .connection p =>
    match p with
    | .pushLock _ _ | .pushing _ _ | .signalling _ | .pushUnlock _ => true
    | _ => false
  | .consumer p =>
    match p with
    | .popLock _ | .testing _ | .waiting _ | .asleep _ | .woken _ | .popUnlock _ _ => true
    | _ => false
  | .main _ => false

/-- The thread has returned, and no signal can be delivered to it. -/
def Pc.hasEnded : Pc T → Bool
  | .main .exited | .connection .ended | .consumer .ended => true
  | _ => false

section Step

variable [DecidableEq C] [Fintype C]

namespace State

def goto (s : State T C) (t : Thread C) (pc : Pc T) : State T C :=
  { s with pc := Function.update s.pc t pc }

def undefinedBehaviour (s : State T C) : State T C := { s with undefined := true }

end State

/-- `pthread_cond_signal` wakes one of the waiters if there is one. -/
def Signals (s : State T C) : Option C → Prop
  | some c => (s.pc (.consumer c)).isAsleep = true
  | none => ∀ c, (s.pc (.consumer c)).isAsleep = false

instance (s : State T C) (woken : Option C) : Decidable (Signals s woken) :=
  match woken with
  | some _ => inferInstanceAs (Decidable (_ = _))
  | none => inferInstanceAs (Decidable (∀ _, _))

/-- The effect of thread `t`; `none` when it blocks. -/
def apply (s : State T C) (t : Thread C) : Effect T C → Option (State T C)
  | .skip => some s
  | .setFlag => some { s with shutdownFlag := true }
  | .lockConn =>
    if s.connMutex.destroyed then some s.undefinedBehaviour
    else if s.connMutex.holder = none then
      some { s with connMutex := { s.connMutex with holder := some t } }
    else none
  | .unlockConn =>
    if s.connMutex.destroyed then some s.undefinedBehaviour
    else some { s with connMutex := { s.connMutex with holder := none } }
  | .destroyConn =>
    -- a mutex that is held is not destroyed (`EBUSY`)
    if s.connMutex.holder = none then
      some { s with connMutex := { s.connMutex with destroyed := true } }
    else some s
  | .lockSb =>
    if s.sbMutex.destroyed then some s.undefinedBehaviour
    else if s.sbMutex.holder = none then
      some { s with sbMutex := { s.sbMutex with holder := some t } }
    else none
  | .unlockSb =>
    if s.sbMutex.destroyed then some s.undefinedBehaviour
    else some { s with sbMutex := { s.sbMutex with holder := none } }
  | .destroySb =>
    if s.sbMutex.holder = none then
      some { s with sbMutex := { s.sbMutex with destroyed := true } }
    else some s
  | .store data =>
    match sbufferPushBody s.sb data with
    | some (sb, _) => some { s with sb }
    | none => some s.undefinedBehaviour
  | .take =>
    match sbufferTake s.sb with
    | some (_, sb) => some { s with sb }
    | none => some s.undefinedBehaviour
  | .signal woken =>
    if Signals s woken then
      some
        (match woken with
        | some c => s.goto (.consumer c) (s.pc (.consumer c)).wake
        | none => s)
    else none
  | .broadcast => some { s with pc := fun t => (s.pc t).wake }
  | .beginFree => some s
  | .clear => some { s with sb := ⟨[], 0, 0, 0, 0⟩ }
  | .free => some { s with sbMutex := ⟨none, true⟩ }
  | .accepted => some { s with clientCount := s.clientCount + 1 }
  | .removed =>
    if s.connMutex.destroyed then some s.undefinedBehaviour
    else some { s with
      connMutex := { s.connMutex with holder := none }
      clientCount := s.clientCount - 1 }

/-- What an effect shows, of a thread inside the buffer's operations or not. -/
def events (s : State T C) (t : Thread C) (inSbuffer : Bool) (e : Effect T C) : List (Event C) :=
  (if inSbuffer then [.inSbuffer t] else []) ++
    match e with
    | .lockConn | .unlockConn | .removed => [.onConnMutex t]
    | .destroyConn => if s.connMutex.holder = none then [.connDestroyed] else []
    | .beginFree => [.freeBegun]
    | .store _ | .take => if s.sb.size = 0 then [.onFreed t] else []
    | _ => []

/-- Nothing happens any more. -/
def State.over (s : State T C) : Bool := s.undefined || (s.pc .main).hasEnded

def step (s : State T C) : Act T C → Option (State T C × List (Event C))
  | .run t answer =>
    if s.over = true ∨ s.handler t ≠ .idle then none
    else do
      let (e, pc) ← next s answer (s.pc t)
      let u ← apply s t e
      some (u.goto t pc, events s t (s.pc t).inSbuffer e)
  | .sigint t =>
    if s.over = true ∨ (s.pc t).hasEnded = true ∨ s.handler t ≠ .idle then none
    else some ({ s with handler := Function.update s.handler t .flagLock }, [])
  | .handle t =>
    if s.over = true then none
    else do
      let (e, h) ← handlerNext (s.handler t)
      let u ← apply s t e
      some ({ u with handler := Function.update u.handler t h }, events s t false e)
  | .wake c =>
    if s.over = true ∨ (s.pc (.consumer c)).isAsleep = false then none
    else some (s.goto (.consumer c) (s.pc (.consumer c)).wake, [])

/-! ## What one step can do -/

/-- The moves: a thread goes on in its program or in its handler, is interrupted,
or wakes for no reason. -/
inductive Moves (s : State T C) : Act T C → State T C → List (Event C) → Prop where
  | run {t answer e pc u} (on : s.over = false) (idle : s.handler t = .idle)
      (next : next s answer (s.pc t) = some (e, pc)) (apply : apply s t e = some u) :
    Moves s (.run t answer) (u.goto t pc) (events s t (s.pc t).inSbuffer e)
  | sigint {t} (alive : (s.pc t).hasEnded = false) :
    Moves s (.sigint t) { s with handler := Function.update s.handler t .flagLock } []
  | handle {t e h u} (next : handlerNext (s.handler t) = some (e, h))
      (apply : apply s t e = some u) :
    Moves s (.handle t) { u with handler := Function.update u.handler t h } (events s t false e)
  | wake {c} :
    Moves s (.wake c) (s.goto (.consumer c) (s.pc (.consumer c)).wake) []

theorem step_moves {s v : State T C} {a : Act T C} {os : List (Event C)}
    (hstep : step s a = some (v, os)) : Moves s a v os := by
  cases a with
  | run t answer =>
    obtain ⟨hon, hstep⟩ := Option.ite_none_left_eq_some.mp hstep
    obtain ⟨⟨e, pc⟩, hnext, hstep⟩ := Option.bind_eq_some_iff.mp hstep
    obtain ⟨u, happly, hstep⟩ := Option.bind_eq_some_iff.mp hstep
    obtain ⟨rfl, rfl⟩ := Prod.mk.inj (Option.some.inj hstep)
    refine .run ?_ ?_ hnext happly
    · by_cases hover : s.over = true
      · exact absurd (Or.inl hover) hon
      · simpa using hover
    · by_cases hidle : s.handler t = .idle
      · exact hidle
      · exact absurd (Or.inr hidle) hon
  | sigint t =>
    obtain ⟨hon, hstep⟩ := Option.ite_none_left_eq_some.mp hstep
    obtain ⟨rfl, rfl⟩ := Prod.mk.inj (Option.some.inj hstep)
    refine .sigint ?_
    by_cases hended : (s.pc t).hasEnded = true
    · exact absurd (Or.inr (Or.inl hended)) hon
    · simpa using hended
  | handle t =>
    obtain ⟨_, hstep⟩ := Option.ite_none_left_eq_some.mp hstep
    obtain ⟨⟨e, h⟩, hnext, hstep⟩ := Option.bind_eq_some_iff.mp hstep
    obtain ⟨u, happly, hstep⟩ := Option.bind_eq_some_iff.mp hstep
    obtain ⟨rfl, rfl⟩ := Prod.mk.inj (Option.some.inj hstep)
    exact .handle hnext happly
  | wake c =>
    obtain ⟨_, hstep⟩ := Option.ite_none_left_eq_some.mp hstep
    obtain ⟨rfl, rfl⟩ := Prod.mk.inj (Option.some.inj hstep)
    exact .wake

end Step

/-! ## Points of the programs -/

/-- How far `main` is: before it writes the flag, before the broadcast, before the
end of that section, before it destroys `conn_mutex`, before it calls
`sbuffer_free`, after. -/
def MainPc.stage : MainPc → Nat
  | .keepAlive | .sleeping | .sweepLock | .sweeping | .flagLock | .flagging => 0
  | .flagUnlock | .wakeLock | .broadcasting => 1
  | .wakeUnlock => 2
  | .polling _ | .pollLock _ | .pollRead _ | .pollUnlock _ _ | .destroying => 3
  | .freeing => 4
  | .freeLock | .clearing | .freeUnlock | .freeDestroying _ | .freed | .exiting | .exited => 5

def Pc.stage : Pc T → Nat
  | .main p => p.stage
  | _ => 0

def State.stage (s : State T C) : Nat := (s.pc .main).stage

/-- With `sb->mutex` held. -/
def Pc.inside : Pc T → Bool
  | .main p =>
    match p with
    | .broadcasting | .wakeUnlock | .pollRead _ | .pollUnlock _ _ | .clearing | .freeUnlock =>
      true
    | _ => false
  | .connection p =>
    match p with
    | .pushing _ _ | .signalling _ | .pushUnlock _ => true
    | _ => false
  | .consumer p =>
    match p with
    | .testing _ | .waiting _ | .popUnlock _ _ => true
    | _ => false

/-- Blocked on `not_empty`, or about to be. -/
def Pc.dozing : Pc T → Bool
  | .consumer (.waiting _) | .consumer (.asleep _) => true
  | _ => false

/-- The program belongs to the thread. -/
def Pc.Of : Pc T → Thread C → Prop
  | .main _, .main | .connection _, .connectionManager | .consumer _, .consumer _ => True
  | _, _ => False

@[simp] theorem goto_pc_self [DecidableEq C] (s : State T C) (t : Thread C) (pc : Pc T) :
    (s.goto t pc).pc t = pc := Function.update_self ..

/-- The stage is that of `main`. -/
theorem goto_main_stage [DecidableEq C] (s : State T C) (pc : Pc T) :
    (s.goto .main pc).stage = pc.stage := by
  rw [State.stage, goto_pc_self]

@[simp] theorem wake_inside (pc : Pc T) : pc.wake.inside = pc.inside := by
  unfold Pc.wake
  split <;> rfl

@[simp] theorem wake_stage (pc : Pc T) : pc.wake.stage = pc.stage := by
  unfold Pc.wake
  split <;> rfl

theorem Pc.Of.wake {pc : Pc T} {t : Thread C} (h : pc.Of t) : pc.wake.Of t := by
  unfold Pc.wake
  split
  · revert h
    cases t <;> exact id
  · exact h

theorem dozing_of_wake {pc : Pc T} (h : pc.wake.dozing = true) : pc.dozing = true := by
  unfold Pc.wake at h
  split at h
  · cases h
  · exact h

theorem next_of {s : State T C} {answer : Answer T C} {pc pc' : Pc T} {e : Effect T C}
    {t : Thread C} (h : pc.Of t) (hnext : next s answer pc = some (e, pc')) : pc'.Of t := by
  cases pc with
  | main p =>
    obtain ⟨q, _, he⟩ := Option.map_eq_some_iff.mp hnext
    rw [← (Prod.mk.inj he).2]
    revert h
    cases t <;> exact id
  | connection p =>
    obtain ⟨q, _, he⟩ := Option.map_eq_some_iff.mp hnext
    rw [← (Prod.mk.inj he).2]
    revert h
    cases t <;> exact id
  | consumer p =>
    obtain ⟨q, _, he⟩ := Option.map_eq_some_iff.mp hnext
    rw [← (Prod.mk.inj he).2]
    revert h
    cases t <;> exact id

/-- `main` goes forward, and passes each mark with the effect it stands for. -/
theorem mainNext_stage {s : State T C} {p p' : MainPc} {e : Effect T C}
    (h : mainNext s p = some (e, p')) :
    p.stage ≤ p'.stage ∧ (p.stage < 1 → 1 ≤ p'.stage → e = .setFlag) ∧
      (p.stage < 2 → 2 ≤ p'.stage → e = .broadcast ∧ p = .broadcasting) ∧
      (p.stage < 4 → 4 ≤ p'.stage → e = .destroyConn ∧ p = .destroying) ∧
      (p.stage < 5 → 5 ≤ p'.stage → e = .beginFree) := by
  cases p <;> simp only [mainNext] at h <;> (try split at h) <;> cases h <;>
    (try split) <;> simp [MainPc.stage]

/-- A thread enters and leaves `sb->mutex` by locking and unlocking it. -/
theorem next_inside {s : State T C} {answer : Answer T C} {pc pc' : Pc T} {e : Effect T C}
    (h : next s answer pc = some (e, pc')) :
    (e = .lockSb ∧ pc.inside = false ∧ pc'.inside = true) ∨
      (e = .unlockSb ∧ pc.inside = true ∧ pc'.inside = false) ∨
      (e ≠ .lockSb ∧ e ≠ .unlockSb ∧ pc'.inside = pc.inside) := by
  cases pc with
  | main p =>
    obtain ⟨⟨e', p'⟩, hp, he⟩ := Option.map_eq_some_iff.mp h
    obtain ⟨rfl, rfl⟩ := Prod.mk.inj he
    cases p <;> simp only [mainNext] at hp <;> (try split at hp) <;> cases hp <;>
      (try split) <;> simp [Pc.inside]
  | connection p =>
    obtain ⟨⟨e', p'⟩, hp, he⟩ := Option.map_eq_some_iff.mp h
    obtain ⟨rfl, rfl⟩ := Prod.mk.inj he
    simp only [connectionNext] at hp
    repeat' split at hp
    all_goals cases hp
    all_goals simp [Pc.inside]
  | consumer p =>
    obtain ⟨⟨e', p'⟩, hp, he⟩ := Option.map_eq_some_iff.mp h
    obtain ⟨rfl, rfl⟩ := Prod.mk.inj he
    simp only [consumerNext] at hp
    repeat' split at hp
    all_goals cases hp
    all_goals simp [Pc.inside]

/-- Only `main` does these, after the mark they stand for. -/
def Effect.last : Effect T C → Bool
  | .destroyConn | .beginFree | .destroySb | .clear | .free => true
  | _ => false

theorem connectionNext_last {s : State T C} {answer : Answer T C} {p p' : ConnectionPc T}
    {e : Effect T C} (h : connectionNext s answer p = some (e, p')) : e.last = false := by
  simp only [connectionNext] at h
  repeat' split at h
  all_goals cases h
  all_goals rfl

theorem consumerNext_last {s : State T C} {answer : Answer T C} {p p' : ConsumerPc}
    {e : Effect T C} (h : consumerNext s answer p = some (e, p')) : e.last = false := by
  simp only [consumerNext] at h
  repeat' split at h
  all_goals cases h
  all_goals rfl

theorem handlerNext_last {h h' : HandlerPc} {e : Effect T C}
    (hnext : handlerNext h = some (e, h')) : e.last = false := by
  cases h <;> cases hnext <;> rfl

theorem mainNext_last {s : State T C} {p p' : MainPc} {e : Effect T C}
    (h : mainNext s p = some (e, p')) :
    e.last = true → (e = .destroyConn ∧ p = .destroying) ∨ (e = .beginFree ∧ p = .freeing) ∨
      5 ≤ p.stage := by
  cases p <;> simp only [mainNext] at h <;> (try split at h) <;> cases h <;>
    simp [Effect.last, MainPc.stage]

/-- The last effects come from `main`. -/
theorem next_last {s : State T C} {answer : Answer T C} {pc pc' : Pc T} {e : Effect T C}
    (h : next s answer pc = some (e, pc')) (he : e.last = true) :
    (e = .destroyConn ∧ pc = .main .destroying) ∨ (e = .beginFree ∧ pc = .main .freeing) ∨
      5 ≤ pc.stage := by
  cases pc with
  | main p =>
    obtain ⟨⟨e', p'⟩, hp, hq⟩ := Option.map_eq_some_iff.mp h
    obtain ⟨rfl, rfl⟩ := Prod.mk.inj hq
    rcases mainNext_last hp he with ⟨he, rfl⟩ | ⟨he, rfl⟩ | hle
    · exact Or.inl ⟨he, rfl⟩
    · exact Or.inr (Or.inl ⟨he, rfl⟩)
    · exact Or.inr (Or.inr hle)
  | connection p =>
    obtain ⟨⟨e', p'⟩, hp, hq⟩ := Option.map_eq_some_iff.mp h
    obtain ⟨rfl, rfl⟩ := Prod.mk.inj hq
    rw [connectionNext_last hp] at he
    cases he
  | consumer p =>
    obtain ⟨⟨e', p'⟩, hp, hq⟩ := Option.map_eq_some_iff.mp h
    obtain ⟨rfl, rfl⟩ := Prod.mk.inj hq
    rw [consumerNext_last hp] at he
    cases he

theorem Pc.Of.main_of_stage {pc : Pc T} {t : Thread C} (h : pc.Of t) (hle : 1 ≤ pc.stage) :
    t = .main := by
  cases pc with
  | main p =>
    cases t with
    | main => rfl
    | _ => exact h.elim
  | _ => cases hle

theorem Pc.Of.not_dozing {pc : Pc T} (h : pc.Of (.main : Thread C)) : pc.dozing = false := by
  cases pc with
  | main p => rfl
  | _ => exact h.elim

/-- With the flag set no consumer decides to wait. -/
theorem consumerNext_dozing {s : State T C} {answer : Answer T C} {p p' : ConsumerPc}
    {e : Effect T C} (h : consumerNext s answer p = some (e, p')) (hflag : s.shutdownFlag = true)
    (hdoze : (Pc.consumer p' : Pc T).dozing = true) : (Pc.consumer p : Pc T).dozing = true := by
  simp only [consumerNext, hflag] at h
  repeat' split at h
  all_goals cases h
  all_goals simp_all [Pc.dozing]

/-! ## What an effect leaves alone -/

section Apply

variable [DecidableEq C] [Fintype C] {s u : State T C} {t : Thread C} {e : Effect T C}

theorem apply_handler (h : apply s t e = some u) : u.handler = s.handler := by
  cases e <;> simp only [apply] at h
  all_goals repeat' split at h
  all_goals cases h
  all_goals rfl

/-- A thread is moved by another one only to be woken. -/
theorem apply_pc (h : apply s t e = some u) (x : Thread C) :
    u.pc x = s.pc x ∨ u.pc x = (s.pc x).wake := by
  cases e with
  | signal woken =>
    obtain ⟨_, h⟩ := Option.ite_none_right_eq_some.mp h
    rw [← Option.some.inj h]
    cases woken with
    | none => exact Or.inl rfl
    | some c =>
      by_cases hx : x = .consumer c
      · subst hx
        exact Or.inr (Function.update_self ..)
      · exact Or.inl (Function.update_of_ne hx ..)
  | broadcast =>
    cases h
    exact Or.inr rfl
  | _ =>
    simp only [apply] at h
    repeat' split at h
    all_goals cases h
    all_goals exact Or.inl rfl

theorem apply_broadcast (h : apply s t .broadcast = some u) (x : Thread C) :
    u.pc x = (s.pc x).wake := by
  cases h
  rfl

theorem apply_flag (h : apply s t e = some u) :
    u.shutdownFlag = true ↔ s.shutdownFlag = true ∨ e = .setFlag := by
  cases e <;> simp only [apply] at h
  all_goals repeat' split at h
  all_goals cases h
  all_goals simp [State.undefinedBehaviour, State.goto]

theorem apply_undefined (h : apply s t e = some u) (hu : u.undefined = false) :
    s.undefined = false := by
  cases e <;> simp only [apply] at h
  all_goals repeat' split at h
  all_goals cases h
  all_goals simp_all [State.undefinedBehaviour, State.goto]

theorem apply_destroyed (h : apply s t e = some u) :
    (u.sbMutex.destroyed = true → s.sbMutex.destroyed = true ∨ e = .destroySb ∨ e = .free) ∧
      (s.sbMutex.destroyed = true → u.sbMutex.destroyed = true) ∧
      (u.connMutex.destroyed = true → s.connMutex.destroyed = true ∨ e = .destroyConn) := by
  cases e <;> simp only [apply] at h
  all_goals repeat' split at h
  all_goals cases h
  all_goals simp_all [State.undefinedBehaviour, State.goto]

/-- While it is defined, an effect changes the holder of `sb->mutex` by locking and
unlocking only, and at the very end. -/
theorem apply_holder (h : apply s t e = some u) (he : e ≠ .free) (hu : u.undefined = false) :
    (e = .lockSb → s.sbMutex.holder = none ∧ u.sbMutex.holder = some t) ∧
      (e = .unlockSb → u.sbMutex.holder = none) ∧
      (e ≠ .lockSb → e ≠ .unlockSb → u.sbMutex.holder = s.sbMutex.holder) := by
  cases e <;> simp only [apply] at h
  all_goals repeat' split at h
  all_goals cases h
  all_goals simp_all [State.undefinedBehaviour, State.goto]

/-! ## The marks of `main` -/

/-- `main` goes forward, and nobody else moves it. -/
theorem run_stage {answer : Answer T C} {pc : Pc T} (hof : ∀ x, (s.pc x).Of x)
    (hnext : next s answer (s.pc t) = some (e, pc)) (happly : apply s t e = some u) :
    s.stage ≤ (u.goto t pc).stage ∧
      (s.stage < 1 → 1 ≤ (u.goto t pc).stage → e = .setFlag) ∧
      (s.stage < 2 → 2 ≤ (u.goto t pc).stage →
        e = .broadcast ∧ t = .main ∧ s.pc .main = .main .broadcasting) ∧
      (s.stage < 4 → 4 ≤ (u.goto t pc).stage → s.pc t = .main .destroying) ∧
      (s.stage < 5 → 5 ≤ (u.goto t pc).stage → e = .beginFree) := by
  by_cases ht : t = .main
  · subst ht
    have hv : (u.goto .main pc).stage = pc.stage := by
      show (Function.update u.pc .main pc .main).stage = _
      rw [Function.update_self]
    have hmain := hof .main
    rw [hv]
    cases hp : s.pc .main with
    | main p =>
      rw [hp] at hnext
      obtain ⟨⟨e', p'⟩, hp', he⟩ := Option.map_eq_some_iff.mp hnext
      obtain ⟨rfl, rfl⟩ := Prod.mk.inj he
      obtain ⟨hle, hflag, hwake, hdestroy, hfree⟩ := mainNext_stage hp'
      have hs : s.stage = p.stage := by rw [State.stage, hp]; rfl
      rw [hs]
      refine ⟨hle, hflag, ?_, ?_, hfree⟩
      · intro hlt hge
        obtain ⟨hb, hp⟩ := hwake hlt hge
        exact ⟨hb, rfl, by rw [hp]⟩
      · intro hlt hge
        rw [(hdestroy hlt hge).2]
    | connection p =>
      rw [hp] at hmain
      exact hmain.elim
    | consumer p =>
      rw [hp] at hmain
      exact hmain.elim
  · have hv : (u.goto t pc).stage = s.stage := by
      show (Function.update u.pc t pc .main).stage = _
      rw [Function.update_of_ne (Ne.symm ht)]
      rcases apply_pc happly .main with h | h
      · rw [h]
        rfl
      · rw [h, wake_stage]
        rfl
    rw [hv]
    refine ⟨Nat.le_refl _, ?_, ?_, ?_, ?_⟩ <;> intro hlt hge <;> omega

end Apply

end Shutdown
end Gateway
end LinuxEmbedded
