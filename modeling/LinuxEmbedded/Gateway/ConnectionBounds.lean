import LinuxEmbedded.Gateway.ConnectionManager

/-
The bounds of the two connection tables when calls fail and the gateway shuts down.

Any lock or unlock of `conn_mutex` may fail, and each function then returns where it
stands, so the tables may come to hold different clients.  `client_count` is the only
counter tested against `MAX_SENSORS`; `conn_active_count` stays below it because no
operation takes a client out of `client_fds` before its entry.  A sweep may come
between any two sections.

An access outside an array is a fault.  `remove_connection` tests its counter for 0
before it decrements; `shift_clients` does not, and a decrement at 0 is a fault too.
-/
namespace LinuxEmbedded
namespace Gateway
namespace ConnectionBounds

open Framing (Byte)
open ConnectionManager (Event readClient selectSet)

/-- How `pthread_mutex_lock` and `pthread_mutex_unlock` around a section end. -/
inductive Calls where
  | lockFails
  | unlockFails
  | succeed
  deriving DecidableEq

/-- Where `connection_manager` is. -/
inductive Pc where
  /-- The test of the main loop. -/
  | head
  | selecting
  /-- At the entry of `handle_new_connection`, before its test of `shutdown_flag`. -/
  | newConnection (readfds : List Int)
  | accepting (readfds : List Int)
  /-- The client is in `client_fds` and not yet in `connections`. -/
  | accepted (clientFd : Int) (readfds : List Int)
  /-- At the entry of `handle_client_data`. -/
  | clientData (readfds : List Int)
  | scan (i : Nat) (readfds : List Int)
  | touching (i : Nat) (readfds : List Int)
  | removing (i : Nat) (readfds : List Int)
  | shifting (i : Nat) (readfds : List Int)
  | cleanup
  | stopped
  /-- An access outside an array, or a count taken below 0. -/
  | fault
  deriving DecidableEq

/-- Where the main thread is: at the test of the loop of `init_keep_alive`, at the test of
the loop of `run_keep_alive`, behind that test, or out of the loop. -/
inductive MainPc where
  | clearing (i : Nat)
  | test
  | asleep
  | returned
  deriving DecidableEq

structure State where
  clients : Clients
  keepAlive : KeepAlive
  pc : Pc
  main : MainPc
  shutdownFlag : Bool

def start : State where
  clients := .start
  keepAlive := .start
  pc := .head
  main := .clearing 0
  shutdownFlag := false

inductive Act where
  | shutdown
  | initKeepAlive
  | keepAliveTest
  | sweep (now : Nat → Int64) (calls : Calls)
  /-- A test of `shutdown_flag` by the connection manager. -/
  | test
  /-- `select` returns with these descriptors set, or fails. -/
  | select (readfds : List Int)
  | selectFailed
  | accept (clientFd : Int) (now : Int64)
  | acceptFailed
  | noConnection
  | track (now : Int64) (calls : Calls)
  | next
  | read (result : Option (List Byte)) (stale : List Byte) (ret : Int) (now : Int64)
  | touch (now : Int64) (calls : Calls)
  | remove (calls : Calls)
  | shift
  | cleanup (calls : Calls)

/-- Go on with the result of an access, if it is inside the array. -/
def State.checked {α : Type} (s : State) (result : Option α)
    (go : α → Option (State × List Event)) : Option (State × List Event) :=
  match result with
  | some x => go x
  | none => some ({ s with pc := .fault }, [])

@[simp] theorem State.checked_some {α : Type} (s : State) (x : α)
    (go : α → Option (State × List Event)) : s.checked (some x) go = go x := rfl

def lockFailed : List Event := [.logged (logEvent "Mutex lock failed in connection manager" [])]

def unlockFailed : List Event :=
  [.logged (logEvent "Mutex unlock failed in connection manager" [])]

def testStep (s : State) : Option (State × List Event) :=
  match s.pc with
  | .head => some ({ s with pc := if s.shutdownFlag then .cleanup else .selecting }, [])
  | .newConnection readfds =>
    some ({ s with pc := if s.shutdownFlag then .clientData readfds else .accepting readfds },
      [])
  | .clientData readfds =>
    some ({ s with pc := if s.shutdownFlag then .head else .scan 0 readfds }, [])
  | _ => none

/-- The mutex section of `handle_new_connection`. -/
def trackStep (s : State) (now : Int64) (calls : Calls) : Option (State × List Event) :=
  match s.pc with
  | .accepted clientFd readfds =>
    if calls = .lockFails then some ({ s with pc := .clientData readfds }, lockFailed)
    else s.checked (trackConnection s.keepAlive clientFd now) fun keepAlive =>
      some ({ s with keepAlive, pc := .clientData readfds },
        if calls = .unlockFails then unlockFailed
        else [.logged (logEvent "A sensor node with %d has opened a new connection"
          [.int clientFd])])
  | _ => none

def readStep (s : State) (result : Option (List Byte)) (stale : List Byte) (ret : Int)
    (now : Int64) : Option (State × List Event) :=
  match s.pc with
  | .scan i readfds =>
    if i < s.clients.clientCount then
      s.checked s.clients.clientFds[i]? fun fd =>
        if fd ∈ readfds ∧ (result.getD []).length ≤ recordSize ∧ stale.length = recordSize then
          some (readClient { s with pc := .touching i readfds }
            { s with pc := .removing i readfds } fd stale ret now result)
        else none
    else none
  | _ => none

def nextStep (s : State) : Option (State × List Event) :=
  match s.pc with
  | .scan i readfds =>
    if i < s.clients.clientCount then
      s.checked s.clients.clientFds[i]? fun fd =>
        if fd ∈ readfds then none else some ({ s with pc := .scan (i + 1) readfds }, [])
    else some ({ s with pc := .head }, [])
  | _ => none

/-- The section after a read that returned data.  A failed call leaves
`handle_client_data`. -/
def touchStep (s : State) (now : Int64) (calls : Calls) : Option (State × List Event) :=
  match s.pc with
  | .touching i readfds =>
    if calls = .lockFails then some ({ s with pc := .head }, lockFailed)
    else s.checked (touchConnection s.keepAlive i now) fun keepAlive =>
      if calls = .unlockFails then some ({ s with keepAlive, pc := .head }, unlockFailed)
      else some ({ s with keepAlive, pc := .scan (i + 1) readfds }, [])
  | _ => none

/-- The section after a read that ended or failed.  A failed call returns before
`shift_clients`. -/
def removeStep (s : State) (calls : Calls) : Option (State × List Event) :=
  match s.pc with
  | .removing i readfds =>
    if calls = .lockFails then some ({ s with pc := .head }, lockFailed)
    else s.checked (removeConnection s.keepAlive i) fun keepAlive =>
      if calls = .unlockFails then some ({ s with keepAlive, pc := .head }, unlockFailed)
      else some ({ s with keepAlive, pc := .shifting i readfds }, [])
  | _ => none

def shiftStep (s : State) : Option (State × List Event) :=
  match s.pc with
  | .shifting i readfds =>
    if s.clients.clientCount = 0 then some ({ s with pc := .fault }, [])
    else s.checked (shiftClients s.clients i) fun clients =>
      some ({ s with clients, pc := .scan i readfds }, [])
  | _ => none

/-- `cleanup_connections`, after which the thread ends. -/
def cleanupStep (socketFd : Int) (s : State) (calls : Calls) : Option (State × List Event) :=
  match s.pc with
  | .cleanup =>
    if calls = .lockFails then some ({ s with pc := .stopped }, lockFailed)
    else
      let fds := (s.clients.clientFds.take s.clients.clientCount).filter fun fd => fd ≠ -1
      some ({ s with keepAlive := { s.keepAlive with connActiveCount := 0 }, pc := .stopped },
        fds.map Event.closed ++
          if calls = .unlockFails then unlockFailed
          else [.closed socketFd, .logged (logEvent "Connection manager shutting down" [])])
  | _ => none

/-- One locked sweep of `run_keep_alive`; a failed call leaves its loop. -/
def sweepStep (s : State) (now : Nat → Int64) (calls : Calls) : Option (State × List Event) :=
  match s.main with
  | .asleep =>
    if calls = .lockFails then
      some ({ s with main := .returned },
        [.logged (logEvent "Mutex lock failed in keep_alive" [])])
    else s.checked (sweep now s.keepAlive) fun (keepAlive, reported) =>
      some ({ s with
          keepAlive
          main := if calls = .unlockFails then .returned else .test },
        .swept now reported :: (reported.map fun id => .logged (timeoutMessage id)) ++
          if calls = .unlockFails then
            [.logged (logEvent "Mutex unlock failed in keep_alive" [])]
          else [])
  | _ => none

def step (socketFd : Int) (s : State) : Act → Option (State × List Event)
  | .shutdown => some ({ s with shutdownFlag := true }, [])
  | .initKeepAlive =>
    match s.main with
    | .clearing i =>
      if i < maxSensors then
        s.checked (clearActive s.keepAlive i) fun keepAlive =>
          some ({ s with keepAlive, main := .clearing (i + 1) }, [])
      else some ({ s with main := .test }, [])
    | _ => none
  | .keepAliveTest =>
    match s.main with
    | .test => some ({ s with main := if s.shutdownFlag then .returned else .asleep }, [])
    | _ => none
  | .sweep now calls => sweepStep s now calls
  | .test => testStep s
  | .select readfds =>
    match s.pc with
    | .selecting =>
      if readfds ⊆ selectSet socketFd s.clients then
        some ({ s with pc := if readfds = [] then .head else .newConnection readfds }, [])
      else none
    | _ => none
  | .selectFailed =>
    match s.pc with
    | .selecting =>
      some ({ s with pc := .head },
        if s.shutdownFlag then [] else [.logged (logEvent "Select failed" [])])
    | _ => none
  | .accept clientFd now =>
    match s.pc with
    | .accepting readfds =>
      if socketFd ∈ readfds ∧ clientFd ≠ -1 then
        if s.clients.clientCount < maxSensors then
          s.checked (registerClient s.clients clientFd) fun clients =>
            some ({ s with clients, pc := .accepted clientFd readfds },
              [.accepted clientFd now])
        else
          some ({ s with pc := .clientData readfds },
            [.accepted clientFd now, .logged (logEvent "Max client reached" []),
              .closed clientFd])
      else none
    | _ => none
  | .acceptFailed =>
    match s.pc with
    | .accepting readfds =>
      if socketFd ∈ readfds then
        some ({ s with pc := .clientData readfds },
          [.logged (logEvent "Failed to accept TCP socket" [])])
      else none
    | _ => none
  | .noConnection =>
    match s.pc with
    | .accepting readfds =>
      if socketFd ∈ readfds then none else some ({ s with pc := .clientData readfds }, [])
    | _ => none
  | .track now calls => trackStep s now calls
  | .next => nextStep s
  | .read result stale ret now => readStep s result stale ret now
  | .touch now calls => touchStep s now calls
  | .remove calls => removeStep s calls
  | .shift => shiftStep s
  | .cleanup calls => cleanupStep socketFd s calls

/-! ## The counters -/

/-- How many clients and entries there can be at each place.  Between an accept and its
section, and between a removal and its shift, there is one entry less. -/
def Pc.Shape : Pc → Nat → Nat → Prop
  | .accepted _ _, clients, tracked => tracked < clients
  | .touching i _, clients, tracked | .removing i _, clients, tracked =>
    i < clients ∧ tracked ≤ clients
  | .shifting i _, clients, tracked => i < clients ∧ tracked < clients
  | .fault, _, _ => False
  | _, clients, tracked => tracked ≤ clients

structure Bounded (s : State) : Prop where
  clients : ∃ fds, s.clients.Holds fds ∧ -1 ∉ fds
  keepAlive : ∃ entries, s.keepAlive.Holds entries
  shape : s.pc.Shape s.clients.clientCount s.keepAlive.connActiveCount

theorem bounded_start : Bounded start where
  clients := ⟨[], Clients.holds_start, List.not_mem_nil⟩
  keepAlive := ⟨[], KeepAlive.holds_start⟩
  shape := Nat.le_refl 0

theorem Pc.Shape.le {pc : Pc} {clients tracked : Nat} (h : pc.Shape clients tracked) :
    tracked ≤ clients := by
  cases pc with
  | accepted => exact Nat.le_of_lt h
  | touching => exact h.2
  | removing => exact h.2
  | shifting => exact Nat.le_of_lt h.2
  | fault => exact h.elim
  | _ => exact h

/-- Entries may go at any place. -/
theorem Pc.Shape.fewer {pc : Pc} {clients tracked tracked' : Nat} (h : pc.Shape clients tracked)
    (hle : tracked' ≤ tracked) : pc.Shape clients tracked' := by
  cases pc with
  | accepted => exact Nat.lt_of_le_of_lt hle h
  | touching => exact ⟨h.1, Nat.le_trans hle h.2⟩
  | removing => exact ⟨h.1, Nat.le_trans hle h.2⟩
  | shifting => exact ⟨h.1, Nat.lt_of_le_of_lt hle h.2⟩
  | fault => exact h
  | _ => exact Nat.le_trans hle h

namespace Bounded

variable {socketFd : Int} {s t : State} {os : List Event}

/-- The manager moves and touches no table. -/
theorem moved (h : Bounded s) {pc : Pc}
    (hshape : pc.Shape s.clients.clientCount s.keepAlive.connActiveCount) :
    Bounded { s with pc } :=
  ⟨h.clients, h.keepAlive, hshape⟩

/-- The main thread leaves at most as many entries as there were. -/
theorem ofMain (h : Bounded s) {k : KeepAlive} {entries : List ConnectionTracking} {main : MainPc}
    (hk : k.Holds entries) (hle : k.connActiveCount ≤ s.keepAlive.connActiveCount) :
    Bounded { s with keepAlive := k, main } :=
  ⟨h.clients, ⟨entries, hk⟩, h.shape.fewer hle⟩

theorem clientCount_le (h : Bounded s) : s.clients.clientCount ≤ maxSensors := by
  obtain ⟨_, hholds, _⟩ := h.clients
  exact hholds.clientCount_le

/-- The slot of a client is inside the array. -/
theorem client (h : Bounded s) {i : Nat} (hi : i < s.clients.clientCount) :
    ∃ fd, s.clients.clientFds[i]? = some fd ∧ fd ≠ -1 := by
  obtain ⟨fds, hholds, hnone⟩ := h.clients
  have hlt : i < fds.length := hholds.list.length_eq ▸ hi
  refine ⟨fds[i], ?_, ?_⟩
  · rw [hholds.list.getElem? hi, List.getElem?_eq_getElem hlt]
  · intro heq
    exact hnone (heq ▸ List.getElem_mem hlt)

theorem accept (h : Bounded s) {clientFd : Int} {now : Int64}
    (hstep : step socketFd s (.accept clientFd now) = some (t, os)) : Bounded t := by
  cases hpc : s.pc with
  | accepting readfds =>
    have hle := h.shape.le
    simp only [step, hpc] at hstep
    obtain ⟨⟨_, hfd⟩, hstep⟩ := Option.ite_none_right_eq_some.mp hstep
    obtain ⟨fds, hholds, hnone⟩ := h.clients
    by_cases hroom : s.clients.clientCount < maxSensors
    · obtain ⟨c, hc, hc'⟩ := registerClient_holds hholds hroom clientFd
      rw [if_pos hroom, hc, State.checked_some] at hstep
      obtain ⟨rfl, rfl⟩ := Prod.mk.inj (Option.some.inj hstep)
      refine ⟨⟨_, hc', ?_⟩, h.keepAlive, ?_⟩
      · intro hmem
        rcases List.mem_append.mp hmem with hmem | hmem
        · exact hnone hmem
        · exact hfd (List.mem_singleton.mp hmem).symm
      · show s.keepAlive.connActiveCount < c.clientCount
        rw [← hc'.list.length_eq, List.length_append, hholds.list.length_eq]
        exact Nat.lt_succ_of_le hle
    · rw [if_neg hroom] at hstep
      obtain ⟨rfl, rfl⟩ := Prod.mk.inj (Option.some.inj hstep)
      exact h.moved hle
  | _ => simp [step, hpc] at hstep

/-- The new entry has a client that has none yet. -/
theorem track (h : Bounded s) {now : Int64} {calls : Calls}
    (hstep : trackStep s now calls = some (t, os)) : Bounded t := by
  cases hpc : s.pc with
  | accepted clientFd readfds =>
    have hlt : s.keepAlive.connActiveCount < s.clients.clientCount := by
      have hshape := h.shape
      rw [hpc] at hshape
      exact hshape
    simp only [trackStep, hpc] at hstep
    by_cases hlock : calls = .lockFails
    · rw [if_pos hlock] at hstep
      obtain ⟨rfl, rfl⟩ := Prod.mk.inj (Option.some.inj hstep)
      exact h.moved (Nat.le_of_lt hlt)
    · obtain ⟨entries, hentries⟩ := h.keepAlive
      obtain ⟨k, hk, hholds⟩ :=
        trackConnection_holds hentries (Nat.lt_of_lt_of_le hlt h.clientCount_le) clientFd now
      rw [if_neg hlock, hk, State.checked_some] at hstep
      obtain ⟨rfl, rfl⟩ := Prod.mk.inj (Option.some.inj hstep)
      refine ⟨h.clients, ⟨_, hholds⟩, ?_⟩
      show k.connActiveCount ≤ s.clients.clientCount
      rw [← hholds.list.length_eq, List.length_append, hentries.list.length_eq]
      exact hlt
  | _ => simp [trackStep, hpc] at hstep

theorem next (h : Bounded s) (hstep : nextStep s = some (t, os)) : Bounded t := by
  cases hpc : s.pc with
  | scan i readfds =>
    simp only [nextStep, hpc] at hstep
    by_cases hi : i < s.clients.clientCount
    · obtain ⟨fd, hfd, _⟩ := h.client hi
      rw [if_pos hi, hfd, State.checked_some] at hstep
      obtain ⟨_, hstep⟩ := Option.ite_none_left_eq_some.mp hstep
      obtain ⟨rfl, rfl⟩ := Prod.mk.inj (Option.some.inj hstep)
      exact h.moved h.shape.le
    · rw [if_neg hi] at hstep
      obtain ⟨rfl, rfl⟩ := Prod.mk.inj (Option.some.inj hstep)
      exact h.moved h.shape.le
  | _ => simp [nextStep, hpc] at hstep

theorem read (h : Bounded s) {result : Option (List Byte)} {stale : List Byte} {ret : Int}
    {now : Int64} (hstep : readStep s result stale ret now = some (t, os)) : Bounded t := by
  cases hpc : s.pc with
  | scan i readfds =>
    simp only [readStep, hpc] at hstep
    obtain ⟨hi, hstep⟩ := Option.ite_none_right_eq_some.mp hstep
    obtain ⟨fd, hfd, _⟩ := h.client hi
    rw [hfd, State.checked_some] at hstep
    obtain ⟨_, hstep⟩ := Option.ite_none_right_eq_some.mp hstep
    have hq := Option.some.inj hstep
    cases result with
    | none =>
      obtain ⟨rfl, rfl⟩ := Prod.mk.inj hq
      exact h.moved ⟨hi, h.shape.le⟩
    | some bytes =>
      cases bytes with
      | nil =>
        obtain ⟨rfl, rfl⟩ := Prod.mk.inj hq
        exact h.moved ⟨hi, h.shape.le⟩
      | cons b bytes =>
        obtain ⟨rfl, rfl⟩ := Prod.mk.inj hq
        exact h.moved ⟨hi, h.shape.le⟩
  | _ => simp [readStep, hpc] at hstep

/-- The index may be past the entries, but not past the array. -/
theorem touch (h : Bounded s) {now : Int64} {calls : Calls}
    (hstep : touchStep s now calls = some (t, os)) : Bounded t := by
  cases hpc : s.pc with
  | touching i readfds =>
    have hle := h.shape.le
    have hi : i < s.clients.clientCount := by
      have hshape := h.shape
      rw [hpc] at hshape
      exact hshape.1
    simp only [touchStep, hpc] at hstep
    by_cases hlock : calls = .lockFails
    · rw [if_pos hlock] at hstep
      obtain ⟨rfl, rfl⟩ := Prod.mk.inj (Option.some.inj hstep)
      exact h.moved hle
    · obtain ⟨entries, hentries⟩ := h.keepAlive
      obtain ⟨k, hk, hholds⟩ :=
        touchConnection_holds hentries (Nat.lt_of_lt_of_le hi h.clientCount_le) now
      have hcount : k.connActiveCount = s.keepAlive.connActiveCount := by
        rw [← hholds.list.length_eq, List.length_modify, hentries.list.length_eq]
      rw [if_neg hlock, hk, State.checked_some] at hstep
      by_cases hunlock : calls = .unlockFails
      · rw [if_pos hunlock] at hstep
        obtain ⟨rfl, rfl⟩ := Prod.mk.inj (Option.some.inj hstep)
        exact ⟨h.clients, ⟨_, hholds⟩, hcount ▸ hle⟩
      · rw [if_neg hunlock] at hstep
        obtain ⟨rfl, rfl⟩ := Prod.mk.inj (Option.some.inj hstep)
        exact ⟨h.clients, ⟨_, hholds⟩, hcount ▸ hle⟩
  | _ => simp [touchStep, hpc] at hstep

/-- When the index is past the entries, `remove_connection` refuses and there are fewer
entries than clients already. -/
theorem remove (h : Bounded s) {calls : Calls} (hstep : removeStep s calls = some (t, os)) :
    Bounded t := by
  cases hpc : s.pc with
  | removing i readfds =>
    have hle := h.shape.le
    have hi : i < s.clients.clientCount := by
      have hshape := h.shape
      rw [hpc] at hshape
      exact hshape.1
    simp only [removeStep, hpc] at hstep
    by_cases hlock : calls = .lockFails
    · rw [if_pos hlock] at hstep
      obtain ⟨rfl, rfl⟩ := Prod.mk.inj (Option.some.inj hstep)
      exact h.moved hle
    · obtain ⟨entries, hentries⟩ := h.keepAlive
      obtain ⟨k, hk, hholds⟩ := removeConnection_holds hentries i
      have hlt : k.connActiveCount < s.clients.clientCount := by
        have hlen := hentries.list.length_eq
        rw [← hholds.list.length_eq, List.length_eraseIdx]
        split <;> omega
      rw [if_neg hlock, hk, State.checked_some] at hstep
      by_cases hunlock : calls = .unlockFails
      · rw [if_pos hunlock] at hstep
        obtain ⟨rfl, rfl⟩ := Prod.mk.inj (Option.some.inj hstep)
        exact ⟨h.clients, ⟨_, hholds⟩, Nat.le_of_lt hlt⟩
      · rw [if_neg hunlock] at hstep
        obtain ⟨rfl, rfl⟩ := Prod.mk.inj (Option.some.inj hstep)
        exact ⟨h.clients, ⟨_, hholds⟩, hi, hlt⟩
  | _ => simp [removeStep, hpc] at hstep

theorem shift (h : Bounded s) (hstep : shiftStep s = some (t, os)) : Bounded t := by
  cases hpc : s.pc with
  | shifting i readfds =>
    obtain ⟨hi, hlt⟩ : i < s.clients.clientCount ∧
        s.keepAlive.connActiveCount < s.clients.clientCount := by
      have hshape := h.shape
      rw [hpc] at hshape
      exact hshape
    obtain ⟨fds, hfds, hnone⟩ := h.clients
    obtain ⟨c, hc, hholds⟩ := shiftClients_holds hfds hi
    have hcount : c.clientCount + 1 = s.clients.clientCount := by
      have hlen := hfds.list.length_eq
      rw [← hholds.list.length_eq, List.length_eraseIdx_of_lt (by omega)]
      omega
    simp only [shiftStep, hpc] at hstep
    rw [if_neg (by omega), hc, State.checked_some] at hstep
    obtain ⟨rfl, rfl⟩ := Prod.mk.inj (Option.some.inj hstep)
    refine ⟨⟨_, hholds, fun hmem => hnone (List.mem_of_mem_eraseIdx hmem)⟩, h.keepAlive, ?_⟩
    show s.keepAlive.connActiveCount ≤ c.clientCount
    omega
  | _ => simp [shiftStep, hpc] at hstep

theorem cleanup (h : Bounded s) {calls : Calls}
    (hstep : cleanupStep socketFd s calls = some (t, os)) : Bounded t := by
  cases hpc : s.pc with
  | cleanup =>
    simp only [cleanupStep, hpc] at hstep
    by_cases hlock : calls = .lockFails
    · rw [if_pos hlock] at hstep
      obtain ⟨rfl, rfl⟩ := Prod.mk.inj (Option.some.inj hstep)
      exact h.moved h.shape.le
    · obtain ⟨entries, hentries⟩ := h.keepAlive
      rw [if_neg hlock] at hstep
      obtain ⟨rfl, rfl⟩ := Prod.mk.inj (Option.some.inj hstep)
      exact ⟨h.clients, ⟨[], hentries.length_eq, ArrayList.holds_zero _⟩, Nat.zero_le _⟩
  | _ => simp [cleanupStep, hpc] at hstep

theorem sweep (h : Bounded s) {now : Nat → Int64} {calls : Calls}
    (hstep : sweepStep s now calls = some (t, os)) : Bounded t := by
  cases hmain : s.main with
  | asleep =>
    simp only [sweepStep, hmain] at hstep
    by_cases hlock : calls = .lockFails
    · rw [if_pos hlock] at hstep
      obtain ⟨rfl, rfl⟩ := Prod.mk.inj (Option.some.inj hstep)
      exact ⟨h.clients, h.keepAlive, h.shape⟩
    · obtain ⟨entries, hentries⟩ := h.keepAlive
      obtain ⟨k, hk, hholds⟩ := sweep_holds hentries now
      have hle : k.connActiveCount ≤ s.keepAlive.connActiveCount := by
        rw [← hholds.list.length_eq, ← hentries.list.length_eq]
        exact ConnectionManager.State.WellFormed.survivors_length_le now 0 entries
      rw [if_neg hlock, hk, State.checked_some] at hstep
      obtain ⟨rfl, rfl⟩ := Prod.mk.inj (Option.some.inj hstep)
      exact h.ofMain hholds hle
  | _ => simp [sweepStep, hmain] at hstep

theorem test (h : Bounded s) (hstep : testStep s = some (t, os)) : Bounded t := by
  have hle := h.shape.le
  cases hpc : s.pc with
  | head =>
    simp only [testStep, hpc] at hstep
    obtain ⟨rfl, rfl⟩ := Prod.mk.inj (Option.some.inj hstep)
    refine h.moved ?_
    split <;> exact hle
  | newConnection readfds =>
    simp only [testStep, hpc] at hstep
    obtain ⟨rfl, rfl⟩ := Prod.mk.inj (Option.some.inj hstep)
    refine h.moved ?_
    split <;> exact hle
  | clientData readfds =>
    simp only [testStep, hpc] at hstep
    obtain ⟨rfl, rfl⟩ := Prod.mk.inj (Option.some.inj hstep)
    refine h.moved ?_
    split <;> exact hle
  | _ => simp [testStep, hpc] at hstep

theorem step {a : Act} (h : Bounded s)
    (hstep : ConnectionBounds.step socketFd s a = some (t, os)) : Bounded t := by
  have hle := h.shape.le
  cases a with
  | accept => exact h.accept hstep
  | track => exact h.track hstep
  | next => exact h.next hstep
  | read => exact h.read hstep
  | touch => exact h.touch hstep
  | remove => exact h.remove hstep
  | shift => exact h.shift hstep
  | cleanup => exact h.cleanup hstep
  | sweep => exact h.sweep hstep
  | test => exact h.test hstep
  | shutdown =>
    obtain ⟨rfl, rfl⟩ := Prod.mk.inj (Option.some.inj hstep)
    exact ⟨h.clients, h.keepAlive, h.shape⟩
  | initKeepAlive =>
    cases hmain : s.main with
    | clearing i =>
      simp only [ConnectionBounds.step, hmain] at hstep
      by_cases hi : i < maxSensors
      · obtain ⟨entries, hentries⟩ := h.keepAlive
        obtain ⟨k, hk, hholds⟩ := clearActive_holds hentries hi
        have hcount : k.connActiveCount = s.keepAlive.connActiveCount := by
          rw [← hholds.list.length_eq, List.length_modify, hentries.list.length_eq]
        rw [if_pos hi, hk, State.checked_some] at hstep
        obtain ⟨rfl, rfl⟩ := Prod.mk.inj (Option.some.inj hstep)
        exact h.ofMain hholds (Nat.le_of_eq hcount)
      · rw [if_neg hi] at hstep
        obtain ⟨rfl, rfl⟩ := Prod.mk.inj (Option.some.inj hstep)
        exact ⟨h.clients, h.keepAlive, h.shape⟩
    | _ => simp [ConnectionBounds.step, hmain] at hstep
  | keepAliveTest =>
    cases hmain : s.main with
    | test =>
      simp only [ConnectionBounds.step, hmain] at hstep
      obtain ⟨rfl, rfl⟩ := Prod.mk.inj (Option.some.inj hstep)
      exact ⟨h.clients, h.keepAlive, h.shape⟩
    | _ => simp [ConnectionBounds.step, hmain] at hstep
  | select readfds =>
    cases hpc : s.pc with
    | selecting =>
      simp only [ConnectionBounds.step, hpc] at hstep
      obtain ⟨_, hstep⟩ := Option.ite_none_right_eq_some.mp hstep
      obtain ⟨rfl, rfl⟩ := Prod.mk.inj (Option.some.inj hstep)
      refine h.moved ?_
      split <;> exact hle
    | _ => simp [ConnectionBounds.step, hpc] at hstep
  | selectFailed =>
    cases hpc : s.pc with
    | selecting =>
      simp only [ConnectionBounds.step, hpc] at hstep
      obtain ⟨rfl, rfl⟩ := Prod.mk.inj (Option.some.inj hstep)
      exact h.moved hle
    | _ => simp [ConnectionBounds.step, hpc] at hstep
  | acceptFailed =>
    cases hpc : s.pc with
    | accepting readfds =>
      simp only [ConnectionBounds.step, hpc] at hstep
      obtain ⟨_, hstep⟩ := Option.ite_none_right_eq_some.mp hstep
      obtain ⟨rfl, rfl⟩ := Prod.mk.inj (Option.some.inj hstep)
      exact h.moved hle
    | _ => simp [ConnectionBounds.step, hpc] at hstep
  | noConnection =>
    cases hpc : s.pc with
    | accepting readfds =>
      simp only [ConnectionBounds.step, hpc] at hstep
      obtain ⟨_, hstep⟩ := Option.ite_none_left_eq_some.mp hstep
      obtain ⟨rfl, rfl⟩ := Prod.mk.inj (Option.some.inj hstep)
      exact h.moved hle
    | _ => simp [ConnectionBounds.step, hpc] at hstep

end Bounded

/-- Whatever the calls return and in whatever order the threads come, no access leaves an
array, no counter falls below 0, the entries are never more than the clients, the clients
never more than `MAX_SENSORS`, and every slot of a client holds a descriptor. -/
theorem tables_bounded {socketFd : Int} {t : State}
    (h : Machine.Reachable (step socketFd) start t) :
    t.pc ≠ .fault ∧
    t.keepAlive.connActiveCount ≤ t.clients.clientCount ∧
    t.clients.clientCount ≤ maxSensors ∧
    t.keepAlive.connections.length = maxSensors ∧ t.clients.clientFds.length = maxSensors ∧
    ∀ i < t.clients.clientCount, ∃ fd, t.clients.clientFds[i]? = some fd ∧ fd ≠ -1 := by
  have hbounded : Bounded t := h.invariant (I := Bounded)
    (fun _ _ _ _ hu hstep => hu.step hstep) bounded_start
  obtain ⟨fds, hfds, _⟩ := hbounded.clients
  obtain ⟨entries, hentries⟩ := hbounded.keepAlive
  refine ⟨?_, hbounded.shape.le, hbounded.clientCount_le, hentries.length_eq, hfds.length_eq,
    fun i hi => hbounded.client hi⟩
  intro hpc
  have hshape := hbounded.shape
  rw [hpc] at hshape
  exact hshape

/- Client 4 gets no entry because the lock fails, client 5 gets the first one.  Both close:
4 while the unlock fails, which takes out the entry of 5 and leaves 4 listed. -/
def diverged : List Act :=
  [.initKeepAlive,
    .test, .select [3], .test, .accept 4 7, .track 7 .lockFails, .test, .next, .next, .test,
    .select [3], .test, .accept 5 8, .track 8 .succeed, .test, .next, .next, .next, .test] ++
  List.replicate maxSensors .initKeepAlive ++
  [.keepAliveTest, .select [4, 5], .test, .noConnection, .test,
    .read (some []) (List.replicate 16 0) 0 9, .remove .unlockFails, .test,
    .sweep (fun _ => 100) .succeed, .select [5], .test, .noConnection, .test, .next,
    .read none (List.replicate 16 0) 0 101, .remove .succeed, .shift, .next, .shutdown, .test,
    .cleanup .succeed]

theorem tables_bounded_diverged :
    ∃ t os, Machine.run (step 3) start diverged = some (t, os) ∧
      t.pc ≠ .fault ∧
      t.keepAlive.connActiveCount ≤ t.clients.clientCount ∧
      t.clients.clientCount ≤ maxSensors ∧
      t.keepAlive.connections.length = maxSensors ∧ t.clients.clientFds.length = maxSensors ∧
      ∀ i < t.clients.clientCount, ∃ fd, t.clients.clientFds[i]? = some fd ∧ fd ≠ -1 := by
  have hsome : (Machine.run (step 3) start diverged).isSome = true := by decide +kernel
  obtain ⟨⟨t, os⟩, hrun⟩ := Option.isSome_iff_exists.mp hsome
  exact ⟨t, os, hrun, tables_bounded ⟨diverged, os, hrun⟩⟩

/-! ## The gateway in which nothing fails

Its runs are runs of this one in which every call succeeds and nobody asks for the
shutdown. -/

def placeOf : ConnectionManager.Pc → Pc
  | .head => .head
  | .newConnection readfds => .accepting readfds
  | .accepted clientFd readfds _ => .accepted clientFd readfds
  | .scan i readfds => .scan i readfds
  | .touching i readfds _ => .touching i readfds
  | .removing i readfds => .removing i readfds
  | .shifting i readfds => .shifting i readfds

def ofManager (u : ConnectionManager.State) : State where
  clients := u.clients
  keepAlive := u.keepAlive
  pc := placeOf u.pc
  main := if u.cleared < maxSensors then .clearing u.cleared else .test
  shutdownFlag := false

section Simulation

variable {socketFd : Int} {u t : ConnectionManager.State} {a : ConnectionManager.Act}
  {os : List Event}

theorem readClient_ofManager (u v : ConnectionManager.State) (fd : Int) (stale : List Byte)
    (ret : Int) (now : Int64) (result : Option (List Byte)) :
    readClient (ofManager u) (ofManager v) fd stale ret now result =
      (ofManager (readClient u v fd stale ret now result).1,
        (readClient u v fd stale ret now result).2) := by
  cases result with
  | none => rfl
  | some bytes => cases bytes <;> rfl

/-- Steps of this gateway that report the same answer the step. -/
def Answered (socketFd : Int) (u t : ConnectionManager.State) (os : List Event) : Prop :=
  ∃ bs, Machine.run (step socketFd) (ofManager u) bs = some (ofManager t, os)

/-- The test of the loop, the `select`, and with something to do the test that leads to it. -/
theorem select_simulated {readfds : List Int}
    (hstep : ConnectionManager.step socketFd u (.select readfds) = some (t, os)) :
    Answered socketFd u t os := by
  cases hpc : u.pc with
  | head =>
    simp only [ConnectionManager.step, hpc] at hstep
    obtain ⟨hready, hstep⟩ := Option.ite_none_right_eq_some.mp hstep
    obtain ⟨rfl, rfl⟩ := Prod.mk.inj (Option.some.inj hstep)
    by_cases hnone : readfds = []
    · refine ⟨[.test, .select readfds], ?_⟩
      simp [Machine.run, step, testStep, ofManager, placeOf, hpc, hnone]
    · refine ⟨[.test, .select readfds, .test], ?_⟩
      simp [Machine.run, step, testStep, ofManager, placeOf, hpc, hready, hnone]
  | _ => simp [ConnectionManager.step, hpc] at hstep

theorem accept_simulated (hw : u.WellFormed) {others : List Int} {clientFd : Int}
    {now : Int64}
    (hstep : ConnectionManager.step socketFd u (.accept others clientFd now) = some (t, os)) :
    Answered socketFd u t os := by
  cases hpc : u.pc with
  | newConnection readfds =>
    simp only [ConnectionManager.step, hpc] at hstep
    obtain ⟨⟨hready, hfree⟩, hstep⟩ := Option.ite_none_right_eq_some.mp hstep
    have hfd : clientFd ≠ -1 := by
      have hpos := hfree.1
      omega
    by_cases hroom : u.clients.clientCount < maxSensors
    · obtain ⟨c, hc, _⟩ := registerClient_holds hw.clients hroom clientFd
      rw [if_pos hroom, hc] at hstep
      obtain ⟨rfl, rfl⟩ := Prod.mk.inj (Option.some.inj hstep)
      refine ⟨[.accept clientFd now], ?_⟩
      simp [Machine.run, step, ofManager, placeOf, hpc, hready, hfd, hroom, hc]
    · rw [if_neg hroom] at hstep
      obtain ⟨rfl, rfl⟩ := Prod.mk.inj (Option.some.inj hstep)
      refine ⟨[.accept clientFd now, .test], ?_⟩
      simp [Machine.run, step, testStep, ofManager, placeOf, hpc, hready, hfd, hroom]
  | _ => simp [ConnectionManager.step, hpc] at hstep

theorem next_simulated (hstep : ConnectionManager.step socketFd u .next = some (t, os)) :
    Answered socketFd u t os := by
  cases hpc : u.pc with
  | scan i readfds =>
    simp only [ConnectionManager.step, hpc] at hstep
    by_cases hi : i < u.clients.clientCount
    · rw [if_pos hi] at hstep
      obtain ⟨fd, hfd, hstep⟩ := Option.bind_eq_some_iff.mp hstep
      obtain ⟨hready, hstep⟩ := Option.ite_none_left_eq_some.mp hstep
      obtain ⟨rfl, rfl⟩ := Prod.mk.inj (Option.some.inj hstep)
      refine ⟨[.next], ?_⟩
      simp [Machine.run, step, nextStep, ofManager, placeOf, hpc, hi, hfd, hready]
    · rw [if_neg hi] at hstep
      obtain ⟨rfl, rfl⟩ := Prod.mk.inj (Option.some.inj hstep)
      refine ⟨[.next], ?_⟩
      simp [Machine.run, step, nextStep, ofManager, placeOf, hpc, hi]
  | _ => simp [ConnectionManager.step, hpc] at hstep

theorem read_simulated {result : Option (List Byte)} {stale : List Byte} {ret : Int}
    {now : Int64}
    (hstep : ConnectionManager.step socketFd u (.read result stale ret now) = some (t, os)) :
    Answered socketFd u t os := by
  cases hpc : u.pc with
  | scan i readfds =>
    simp only [ConnectionManager.step, hpc] at hstep
    obtain ⟨hi, hstep⟩ := Option.ite_none_right_eq_some.mp hstep
    obtain ⟨fd, hfd, hstep⟩ := Option.bind_eq_some_iff.mp hstep
    obtain ⟨hready, hstep⟩ := Option.ite_none_right_eq_some.mp hstep
    have hq := Option.some.inj hstep
    refine ⟨[.read result stale ret now], Machine.run_single ?_⟩
    show readStep _ _ _ _ _ = _
    have hplace : (ofManager u).pc = .scan i readfds := by
      simp [ofManager, placeOf, hpc]
    have hcount : i < (ofManager u).clients.clientCount := hi
    have hclient : (ofManager u).clients.clientFds[i]? = some fd := hfd
    have hread := readClient_ofManager { u with pc := .touching i readfds now }
      { u with pc := .removing i readfds } fd stale ret now result
    rw [hq] at hread
    simp only [readStep, hplace]
    rw [if_pos hcount, hclient, State.checked_some, if_pos hready]
    exact congrArg some hread
  | _ => simp [ConnectionManager.step, hpc] at hstep

theorem shift_simulated (hw : u.WellFormed)
    (hstep : ConnectionManager.step socketFd u .shift = some (t, os)) :
    Answered socketFd u t os := by
  cases hpc : u.pc with
  | shifting i readfds =>
    have hcount : u.clients.clientCount ≠ 0 := by
      have hshape := hw.shape
      rw [hpc] at hshape
      exact Nat.ne_of_gt (Nat.lt_of_le_of_lt (Nat.zero_le i) hshape.1)
    simp only [ConnectionManager.step, hpc] at hstep
    obtain ⟨c, hc, hstep⟩ := Option.bind_eq_some_iff.mp hstep
    obtain ⟨rfl, rfl⟩ := Prod.mk.inj (Option.some.inj hstep)
    refine ⟨[.shift], ?_⟩
    simp [Machine.run, step, shiftStep, ofManager, placeOf, hpc, hcount, hc]
  | _ => simp [ConnectionManager.step, hpc] at hstep

/-- The steps that answer one step. -/
theorem step_simulated (hw : u.WellFormed)
    (hstep : ConnectionManager.step socketFd u a = some (t, os)) :
    Answered socketFd u t os := by
  cases a with
  | select readfds => exact select_simulated hstep
  | selectFailed =>
    cases hpc : u.pc with
    | head =>
      simp only [ConnectionManager.step, hpc] at hstep
      obtain ⟨rfl, rfl⟩ := Prod.mk.inj (Option.some.inj hstep)
      refine ⟨[.test, .selectFailed], ?_⟩
      simp [Machine.run, step, testStep, ofManager, placeOf, hpc]
    | _ => simp [ConnectionManager.step, hpc] at hstep
  | accept others clientFd now => exact accept_simulated hw hstep
  | acceptFailed =>
    cases hpc : u.pc with
    | newConnection readfds =>
      simp only [ConnectionManager.step, hpc] at hstep
      obtain ⟨hready, hstep⟩ := Option.ite_none_right_eq_some.mp hstep
      obtain ⟨rfl, rfl⟩ := Prod.mk.inj (Option.some.inj hstep)
      refine ⟨[.acceptFailed, .test], ?_⟩
      simp [Machine.run, step, testStep, ofManager, placeOf, hpc, hready]
    | _ => simp [ConnectionManager.step, hpc] at hstep
  | noConnection =>
    cases hpc : u.pc with
    | newConnection readfds =>
      simp only [ConnectionManager.step, hpc] at hstep
      obtain ⟨hready, hstep⟩ := Option.ite_none_left_eq_some.mp hstep
      obtain ⟨rfl, rfl⟩ := Prod.mk.inj (Option.some.inj hstep)
      refine ⟨[.noConnection, .test], ?_⟩
      simp [Machine.run, step, testStep, ofManager, placeOf, hpc, hready]
    | _ => simp [ConnectionManager.step, hpc] at hstep
  | track now =>
    cases hpc : u.pc with
    | accepted clientFd readfds since =>
      simp only [ConnectionManager.step, hpc] at hstep
      obtain ⟨k, hk, hstep⟩ := Option.bind_eq_some_iff.mp hstep
      obtain ⟨rfl, rfl⟩ := Prod.mk.inj (Option.some.inj hstep)
      refine ⟨[.track now .succeed, .test], ?_⟩
      simp [Machine.run, step, trackStep, testStep, ofManager, placeOf, hpc, hk]
    | _ => simp [ConnectionManager.step, hpc] at hstep
  | next => exact next_simulated hstep
  | read result stale ret now => exact read_simulated hstep
  | touch now =>
    cases hpc : u.pc with
    | touching i readfds since =>
      simp only [ConnectionManager.step, hpc] at hstep
      obtain ⟨k, hk, hstep⟩ := Option.bind_eq_some_iff.mp hstep
      obtain ⟨rfl, rfl⟩ := Prod.mk.inj (Option.some.inj hstep)
      refine ⟨[.touch now .succeed], ?_⟩
      simp [Machine.run, step, touchStep, ofManager, placeOf, hpc, hk]
    | _ => simp [ConnectionManager.step, hpc] at hstep
  | remove =>
    cases hpc : u.pc with
    | removing i readfds =>
      simp only [ConnectionManager.step, hpc] at hstep
      obtain ⟨k, hk, hstep⟩ := Option.bind_eq_some_iff.mp hstep
      obtain ⟨rfl, rfl⟩ := Prod.mk.inj (Option.some.inj hstep)
      refine ⟨[.remove .succeed], ?_⟩
      simp [Machine.run, step, removeStep, ofManager, placeOf, hpc, hk]
    | _ => simp [ConnectionManager.step, hpc] at hstep
  | shift => exact shift_simulated hw hstep
  | initKeepAlive =>
    obtain ⟨hmore, hstep⟩ := Option.ite_none_right_eq_some.mp hstep
    obtain ⟨k, hk, hstep⟩ := Option.bind_eq_some_iff.mp hstep
    obtain ⟨rfl, rfl⟩ := Prod.mk.inj (Option.some.inj hstep)
    by_cases hlast : u.cleared + 1 < maxSensors
    · refine ⟨[.initKeepAlive], ?_⟩
      simp [Machine.run, step, ofManager, hmore, hlast, hk]
    · -- the loop ends after this turn
      refine ⟨[.initKeepAlive, .initKeepAlive], ?_⟩
      simp [Machine.run, step, ofManager, hmore, hlast, hk]
  | sweep now =>
    obtain ⟨hready, hstep⟩ := Option.ite_none_right_eq_some.mp hstep
    obtain ⟨⟨k, reported⟩, hk, hstep⟩ := Option.bind_eq_some_iff.mp hstep
    obtain ⟨rfl, rfl⟩ := Prod.mk.inj (Option.some.inj hstep)
    refine ⟨[.keepAliveTest, .sweep now .succeed], ?_⟩
    simp [Machine.run, step, sweepStep, ofManager, hready, hk]

/-- Every run of the gateway in which nothing fails is one of the runs above. -/
theorem manager_simulated {as : List ConnectionManager.Act}
    (hrun : Machine.run (ConnectionManager.step socketFd) ConnectionManager.start as =
      some (t, os)) :
    ∃ bs, Machine.run (step socketFd) start bs = some (ofManager t, os) := by
  have hsim : ∀ (u : ConnectionManager.State) (u' : State) a t os,
      u.WellFormed ∧ u' = ofManager u → ConnectionManager.step socketFd u a = some (t, os) →
      ∃ bs t', Machine.run (step socketFd) u' bs = some (t', os.filterMap some) ∧
        t.WellFormed ∧ t' = ofManager t := by
    rintro u _ a t os ⟨hw, rfl⟩ hstep
    obtain ⟨bs, hbs⟩ := step_simulated hw hstep
    rw [List.filterMap_some]
    exact ⟨bs, _, hbs, (ConnectionManager.step_moves hw hstep).1, rfl⟩
  obtain ⟨bs, t', hbs, _, rfl⟩ :=
    Machine.run_refines hsim ⟨ConnectionManager.wellFormed_start, rfl⟩ hrun
  rw [List.filterMap_some] at hbs
  exact ⟨bs, hbs⟩

end Simulation

end ConnectionBounds
end Gateway
end LinuxEmbedded
