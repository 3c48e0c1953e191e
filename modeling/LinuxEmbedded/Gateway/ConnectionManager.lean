import LinuxEmbedded.Gateway.Connections
import LinuxEmbedded.Gateway.SensorRecord
import LinuxEmbedded.Lib.Machine

/-
The connection manager thread and the keep-alive loop of the main thread.

`connection_manager` walks its `select` loop; the turns of `init_keep_alive` and the
sweeps of `run_keep_alive` run in between.  A step ends where the other thread may
come in: at each section of `conn_mutex` and before each read.  `init_keep_alive`
takes no mutex, so each write of its loop is a step of its own.  The kernel chooses
the ready descriptors, the number of an accepted one and what a read returns.
`shutdown_flag` stays 0 and pthread calls succeed.

An accept and a read that returned data happen at a time of their own, which the code
does not ask for.  The machine carries it to the section that follows, so that the
history tells when a client was really heard of.
-/
namespace LinuxEmbedded
namespace Gateway
namespace ConnectionManager

open Framing (Byte)

/-- Where `connection_manager` is.  The descriptors are those left in `readfds` by
`select`. -/
inductive Pc where
  /-- The head of the `select` loop. -/
  | head
  /-- In `handle_new_connection`, before the test of the listening socket. -/
  | newConnection (readfds : List Int)
  /-- The client is in `client_fds` and not yet in `connections`. -/
  | accepted (clientFd : Int) (readfds : List Int) (now : Int64)
  /-- In `handle_client_data`, at the test of its loop. -/
  | scan (i : Nat) (readfds : List Int)
  /-- Data was read and pushed; `last_active` is next. -/
  | touching (i : Nat) (readfds : List Int) (now : Int64)
  /-- The read ended or failed; `remove_connection` is next. -/
  | removing (i : Nat) (readfds : List Int)
  /-- `shift_clients` is next. -/
  | shifting (i : Nat) (readfds : List Int)
  deriving DecidableEq

structure State where
  clients : Clients
  keepAlive : KeepAlive
  pc : Pc
  /-- The descriptors of the process that `accept` returned and nobody closed. -/
  openFds : List Int
  /-- How many entries `init_keep_alive` has cleared. -/
  cleared : Nat

def start : State where
  clients := .start
  keepAlive := .start
  pc := .head
  openFds := []
  cleared := 0

inductive Act where
  | select (readfds : List Int)
  | selectFailed
  /-- `accept` returns `clientFd` at the time `now`; `others` are the descriptors the
  process has open for other purposes. -/
  | accept (others : List Int) (clientFd : Int) (now : Int64)
  | acceptFailed
  | noConnection
  | track (now : Int64)
  | next
  /-- `read` returns these bytes, or fails, at the time `now`.  `stale` is what the stack
  held in `sdata`, and `ret` is what `sbuffer_push` returns. -/
  | read (result : Option (List Byte)) (stale : List Byte) (ret : Int) (now : Int64)
  | touch (now : Int64)
  | remove
  | shift
  | initKeepAlive
  | sweep (now : Nat → Int64)

inductive Event where
  | logged (m : Message FloatBits)
  /-- `accept` returned the descriptor. -/
  | accepted (clientFd : Int) (now : Int64)
  | closed (fd : Int)
  /-- The read on the descriptor returned data. -/
  | received (fd : Int) (bytes : List Byte) (now : Int64)
  /-- The record handed to `sbuffer_push`. -/
  | pushed (fd : Int) (data : SensorRecord)
  /-- The read on the descriptor ended or failed. -/
  | lost (fd : Int)
  /-- One sweep, with the connections it reported. -/
  | swept (now : Nat → Int64) (reported : List Int)

/-- The lowest descriptor that is free, the one the kernel hands out. -/
def LowestFree (used : List Int) (fd : Int) : Prop :=
  0 ≤ fd ∧ fd ∉ used ∧ ∀ n < fd.toNat, (n : Int) ∈ used

instance (used : List Int) (fd : Int) : Decidable (LowestFree used fd) :=
  inferInstanceAs (Decidable (_ ∧ _))

/-- The descriptors given to `FD_SET`. -/
def selectSet (socketFd : Int) (c : Clients) : List Int :=
  socketFd :: (c.clientFds.take c.clientCount).filter fun fd => fd ≠ -1

/-- `sdata` after a read of `bytes` into it. -/
def readInto (stale bytes : List Byte) : List Byte := bytes ++ stale.drop bytes.length

def receivedMessages (sdata : SensorRecord) (ret : Int) : List Event :=
  [.logged (logEvent "Received data: sensor_id=%d, temp=%.2f, time=%ld"
      [.int sdata.sensorId.toInt, .temp sdata.temperature, .int sdata.timestamp.toInt]),
    .logged (if ret ≠ 0 then logEvent "Failed to push data to sbuffer" []
      else logEvent "Data successfully pushed to sbuffer" [])]

/-- What the result of a read tells of the client, whatever the code makes of it. -/
def told (fd : Int) (now : Int64) : Option (List Byte) → Event
  | none | some [] => .lost fd
  | some (b :: bytes) => .received fd (b :: bytes) now

/-- What `handle_client_data` does with the result of a read: it goes on at `touching` or
at `removing`. -/
def handleRead {S : Type} (touching removing : S) (fd : Int) (stale : List Byte) (ret : Int) :
    Option (List Byte) → S × List Event
  | none => (removing, [.logged (logEvent "Failed to read from sensor node %d" [.int fd])])
  | some [] =>
    (removing, [.logged (logEvent "The sensor node with %d has closed the connection" [.int fd])])
  | some bytes =>
    let sdata := recordOf (readInto stale bytes)
    (touching, .pushed fd sdata :: receivedMessages sdata ret)

/-- A read, and what is done with its result. -/
def readClient {S : Type} (touching removing : S) (fd : Int) (stale : List Byte) (ret : Int)
    (now : Int64) (result : Option (List Byte)) : S × List Event :=
  let (next, es) := handleRead touching removing fd stale ret result
  (next, told fd now result :: es)

def step (socketFd : Int) (s : State) : Act → Option (State × List Event)
  | .select readfds =>
    match s.pc with
    | .head =>
      if readfds ⊆ selectSet socketFd s.clients then
        some ({ s with pc := if readfds = [] then .head else .newConnection readfds }, [])
      else none
    | _ => none
  | .selectFailed =>
    match s.pc with
    | .head => some (s, [.logged (logEvent "Select failed" [])])
    | _ => none
  | .accept others clientFd now =>
    match s.pc with
    | .newConnection readfds =>
      if socketFd ∈ readfds ∧ LowestFree (socketFd :: others ++ s.openFds) clientFd then
        if s.clients.clientCount < maxSensors then do
          let clients ← registerClient s.clients clientFd
          some ({ s with
              clients
              openFds := s.openFds ++ [clientFd]
              pc := .accepted clientFd readfds now },
            [.accepted clientFd now])
        else
          some ({ s with pc := .scan 0 readfds },
            [.accepted clientFd now, .logged (logEvent "Max client reached" []),
              .closed clientFd])
      else none
    | _ => none
  | .acceptFailed =>
    match s.pc with
    | .newConnection readfds =>
      if socketFd ∈ readfds then
        some ({ s with pc := .scan 0 readfds },
          [.logged (logEvent "Failed to accept TCP socket" [])])
      else none
    | _ => none
  | .noConnection =>
    match s.pc with
    | .newConnection readfds =>
      if socketFd ∈ readfds then none else some ({ s with pc := .scan 0 readfds }, [])
    | _ => none
  | .track now =>
    match s.pc with
    | .accepted clientFd readfds _ => do
      let keepAlive ← trackConnection s.keepAlive clientFd now
      some ({ s with keepAlive, pc := .scan 0 readfds },
        [.logged (logEvent "A sensor node with %d has opened a new connection"
          [.int clientFd])])
    | _ => none
  | .next =>
    match s.pc with
    | .scan i readfds =>
      if i < s.clients.clientCount then do
        let fd ← s.clients.clientFds[i]?
        if fd ∈ readfds then none else some ({ s with pc := .scan (i + 1) readfds }, [])
      else some ({ s with pc := .head }, [])
    | _ => none
  | .read result stale ret now =>
    match s.pc with
    | .scan i readfds =>
      if i < s.clients.clientCount then do
        let fd ← s.clients.clientFds[i]?
        if fd ∈ readfds ∧ (result.getD []).length ≤ recordSize ∧ stale.length = recordSize then
          some (readClient { s with pc := .touching i readfds now }
            { s with pc := .removing i readfds } fd stale ret now result)
        else none
      else none
    | _ => none
  | .touch now =>
    match s.pc with
    | .touching i readfds _ => do
      let keepAlive ← touchConnection s.keepAlive i now
      some ({ s with keepAlive, pc := .scan (i + 1) readfds }, [])
    | _ => none
  | .remove =>
    match s.pc with
    | .removing i readfds => do
      let keepAlive ← removeConnection s.keepAlive i
      some ({ s with keepAlive, pc := .shifting i readfds }, [])
    | _ => none
  | .shift =>
    match s.pc with
    | .shifting i readfds => do
      let clients ← shiftClients s.clients i
      some ({ s with clients, pc := .scan i readfds }, [])
    | _ => none
  | .initKeepAlive =>
    if s.cleared < maxSensors then do
      let keepAlive ← clearActive s.keepAlive s.cleared
      some ({ s with keepAlive, cleared := s.cleared + 1 }, [])
    else none
  | .sweep now =>
    -- `run_keep_alive` starts when `init_keep_alive` is through
    if s.cleared = maxSensors then do
      let (keepAlive, reported) ← sweep now s.keepAlive
      some ({ s with keepAlive },
        .swept now reported :: reported.map fun id => .logged (timeoutMessage id))
    else none

/-! ## What one step can do, on the lists in the tables -/

structure Tables where
  fds : List Int
  entries : List ConnectionTracking
  pc : Pc
  openFds : List Int
  cleared : Nat

def State.tables (s : State) : Tables where
  fds := s.clients.clientFds.take s.clients.clientCount
  entries := s.keepAlive.connections.take s.keepAlive.connActiveCount
  pc := s.pc
  openFds := s.openFds
  cleared := s.cleared

inductive Moves (socketFd : Int) (u : Tables) : Act → Tables → List Event → Prop where
  | select {readfds} (at_ : u.pc = .head)
      (ready : readfds ⊆ socketFd :: u.fds.filter fun fd => fd ≠ -1) :
    Moves socketFd u (.select readfds)
      { u with pc := if readfds = [] then .head else .newConnection readfds } []
  | selectFailed (at_ : u.pc = .head) :
    Moves socketFd u .selectFailed u [.logged (logEvent "Select failed" [])]
  | accept {others clientFd now readfds} (at_ : u.pc = .newConnection readfds)
      (free : LowestFree (socketFd :: others ++ u.openFds) clientFd)
      (room : u.fds.length < maxSensors) :
    Moves socketFd u (.accept others clientFd now)
      { u with
        fds := u.fds ++ [clientFd]
        openFds := u.openFds ++ [clientFd]
        pc := .accepted clientFd readfds now }
      [.accepted clientFd now]
  | reject {others clientFd now readfds} (at_ : u.pc = .newConnection readfds)
      (free : LowestFree (socketFd :: others ++ u.openFds) clientFd) :
    Moves socketFd u (.accept others clientFd now) { u with pc := .scan 0 readfds }
      [.accepted clientFd now, .logged (logEvent "Max client reached" []), .closed clientFd]
  | acceptFailed {readfds} (at_ : u.pc = .newConnection readfds) :
    Moves socketFd u .acceptFailed { u with pc := .scan 0 readfds }
      [.logged (logEvent "Failed to accept TCP socket" [])]
  | noConnection {readfds} (at_ : u.pc = .newConnection readfds) :
    Moves socketFd u .noConnection { u with pc := .scan 0 readfds } []
  | track {clientFd readfds since now} (at_ : u.pc = .accepted clientFd readfds since) :
    Moves socketFd u (.track now)
      { u with entries := u.entries ++ [⟨clientFd, now, 1⟩], pc := .scan 0 readfds }
      [.logged (logEvent "A sensor node with %d has opened a new connection" [.int clientFd])]
  | skip {i readfds} (at_ : u.pc = .scan i readfds) :
    Moves socketFd u .next { u with pc := .scan (i + 1) readfds } []
  | done {i readfds} (at_ : u.pc = .scan i readfds) :
    Moves socketFd u .next { u with pc := .head } []
  | data {i readfds fd bytes stale ret now} (at_ : u.pc = .scan i readfds)
      (client : u.fds[i]? = some fd) (nonempty : bytes ≠ [])
      (bound : bytes.length ≤ recordSize) (size : stale.length = recordSize) :
    Moves socketFd u (.read (some bytes) stale ret now) { u with pc := .touching i readfds now }
      (.received fd bytes now :: .pushed fd (recordOf (readInto stale bytes)) ::
        receivedMessages (recordOf (readInto stale bytes)) ret)
  | lose {i readfds fd result stale ret now m} (at_ : u.pc = .scan i readfds)
      (client : u.fds[i]? = some fd) (ended : result.getD [] = []) :
    Moves socketFd u (.read result stale ret now) { u with pc := .removing i readfds }
      [.lost fd, .logged m]
  | touch {i readfds since fd now} (at_ : u.pc = .touching i readfds since)
      (client : u.fds[i]? = some fd) :
    Moves socketFd u (.touch now)
      { u with
        entries := u.entries.modify i fun entry => { entry with lastActive := now }
        pc := .scan (i + 1) readfds }
      []
  | remove {i readfds fd} (at_ : u.pc = .removing i readfds) (client : u.fds[i]? = some fd) :
    Moves socketFd u .remove
      { u with entries := u.entries.eraseIdx i, pc := .shifting i readfds } []
  | shift {i readfds} (at_ : u.pc = .shifting i readfds) :
    Moves socketFd u .shift { u with fds := u.fds.eraseIdx i, pc := .scan i readfds } []
  | initKeepAlive (more : u.cleared < maxSensors) :
    Moves socketFd u .initKeepAlive
      { u with
        entries := u.entries.modify u.cleared fun entry => { entry with active := 0 }
        cleared := u.cleared + 1 } []
  | sweep {now} (ready : u.cleared = maxSensors) :
    Moves socketFd u (.sweep now) { u with entries := survivors now 0 u.entries }
      (.swept now ((expired now 0 u.entries).map ConnectionTracking.connectionId) ::
        ((expired now 0 u.entries).map ConnectionTracking.connectionId).map
          fun id => .logged (timeoutMessage id))

/-- How many clients and tracked connections there can be at each place. -/
def Pc.Shape : Pc → Nat → Nat → Prop
  | .accepted _ _ _, clients, tracked => tracked < clients
  | .touching i _ _, clients, tracked | .removing i _, clients, tracked =>
    i < clients ∧ tracked ≤ clients
  | .shifting i _, clients, tracked => i < clients ∧ tracked < clients
  | _, clients, tracked => tracked ≤ clients

structure State.WellFormed (s : State) : Prop where
  clients : s.clients.Holds s.tables.fds
  keepAlive : s.keepAlive.Holds s.tables.entries
  shape : s.pc.Shape s.clients.clientCount s.keepAlive.connActiveCount

theorem wellFormed_start : start.WellFormed where
  clients := Clients.holds_start
  keepAlive := KeepAlive.holds_start
  shape := Nat.le_refl 0

theorem tables_of_holds {t : State} {fds : List Int} {entries : List ConnectionTracking}
    (hc : t.clients.Holds fds) (hk : t.keepAlive.Holds entries) :
    t.tables = ⟨fds, entries, t.pc, t.openFds, t.cleared⟩ := by
  rw [State.tables, hc.list.take_eq, hk.list.take_eq]

theorem wellFormed_of_holds {t : State} {fds : List Int} {entries : List ConnectionTracking}
    (hc : t.clients.Holds fds) (hk : t.keepAlive.Holds entries)
    (hshape : t.pc.Shape fds.length entries.length) : t.WellFormed := by
  rw [hc.list.length_eq, hk.list.length_eq] at hshape
  refine ⟨?_, ?_, hshape⟩
  · rw [tables_of_holds hc hk]
    exact hc
  · rw [tables_of_holds hc hk]
    exact hk

theorem moves_of_holds {socketFd : Int} {u : Tables} {a : Act} {t : State} {os : List Event}
    {fds : List Int} {entries : List ConnectionTracking} (hc : t.clients.Holds fds)
    (hk : t.keepAlive.Holds entries) (hshape : t.pc.Shape fds.length entries.length)
    (hmove : Moves socketFd u a ⟨fds, entries, t.pc, t.openFds, t.cleared⟩ os) :
    t.WellFormed ∧ Moves socketFd u a t.tables os := by
  refine ⟨wellFormed_of_holds hc hk hshape, ?_⟩
  rw [tables_of_holds hc hk]
  exact hmove

namespace State.WellFormed

variable {socketFd : Int} {s t : State} {os : List Event}

theorem fds_length (h : s.WellFormed) : s.tables.fds.length = s.clients.clientCount :=
  h.clients.list.length_eq

theorem entries_length (h : s.WellFormed) :
    s.tables.entries.length = s.keepAlive.connActiveCount :=
  h.keepAlive.list.length_eq

theorem shape_lengths (h : s.WellFormed) :
    s.pc.Shape s.tables.fds.length s.tables.entries.length := by
  rw [h.fds_length, h.entries_length]
  exact h.shape

theorem clientCount_le (h : s.WellFormed) : s.clients.clientCount ≤ maxSensors :=
  h.clients.clientCount_le

/-- The table a client's index is read from. -/
theorem clientFds_getElem? (h : s.WellFormed) {i : Nat} (hi : i < s.clients.clientCount) :
    ∃ fd, s.clients.clientFds[i]? = some fd ∧ s.tables.fds[i]? = some fd := by
  have hlt : i < s.tables.fds.length := h.fds_length ▸ hi
  refine ⟨s.tables.fds[i], ?_, List.getElem?_eq_getElem hlt⟩
  rw [h.clients.list.getElem? hi, List.getElem?_eq_getElem hlt]

theorem accept_moves (h : s.WellFormed) {others : List Int} {clientFd : Int} {now : Int64}
    (hstep : step socketFd s (.accept others clientFd now) = some (t, os)) :
    t.WellFormed ∧ Moves socketFd s.tables (.accept others clientFd now) t.tables os := by
  cases hpc : s.pc with
  | newConnection readfds =>
    have hle : s.tables.entries.length ≤ s.tables.fds.length := by
      have hshape := h.shape_lengths
      rw [hpc] at hshape
      exact hshape
    simp only [step, hpc] at hstep
    obtain ⟨⟨_, hfree⟩, hstep⟩ := Option.ite_none_right_eq_some.mp hstep
    by_cases hroom : s.clients.clientCount < maxSensors
    · obtain ⟨c, hc, hholds⟩ := registerClient_holds h.clients hroom clientFd
      rw [if_pos hroom, hc] at hstep
      obtain ⟨rfl, rfl⟩ := Prod.mk.inj (Option.some.inj hstep)
      refine moves_of_holds hholds h.keepAlive ?_ (.accept hpc hfree ?_)
      · show _ < _
        rw [List.length_append, List.length_singleton]
        omega
      · rw [h.fds_length]
        exact hroom
    · rw [if_neg hroom] at hstep
      obtain ⟨rfl, rfl⟩ := Prod.mk.inj (Option.some.inj hstep)
      exact moves_of_holds h.clients h.keepAlive hle (.reject hpc hfree)
  | _ => simp [step, hpc] at hstep

theorem track_moves (h : s.WellFormed) {now : Int64}
    (hstep : step socketFd s (.track now) = some (t, os)) :
    t.WellFormed ∧ Moves socketFd s.tables (.track now) t.tables os := by
  cases hpc : s.pc with
  | accepted clientFd readfds since =>
    have hlt : s.tables.entries.length < s.tables.fds.length := by
      have hshape := h.shape_lengths
      rw [hpc] at hshape
      exact hshape
    have hroom : s.keepAlive.connActiveCount < maxSensors := by
      have hmax := h.clientCount_le
      rw [h.fds_length, h.entries_length] at hlt
      omega
    obtain ⟨k, hk, hholds⟩ := trackConnection_holds h.keepAlive hroom clientFd now
    simp only [step, hpc, hk] at hstep
    obtain ⟨rfl, rfl⟩ := Prod.mk.inj (Option.some.inj hstep)
    refine moves_of_holds h.clients hholds ?_ (.track hpc)
    show _ ≤ _
    rw [List.length_append, List.length_singleton]
    omega
  | _ => simp [step, hpc] at hstep

theorem read_moves (h : s.WellFormed) {result : Option (List Byte)} {stale : List Byte}
    {ret : Int} {now : Int64}
    (hstep : step socketFd s (.read result stale ret now) = some (t, os)) :
    t.WellFormed ∧ Moves socketFd s.tables (.read result stale ret now) t.tables os := by
  cases hpc : s.pc with
  | scan i readfds =>
    have hle : s.keepAlive.connActiveCount ≤ s.clients.clientCount := by
      have hshape := h.shape
      rw [hpc] at hshape
      exact hshape
    simp only [step, hpc] at hstep
    obtain ⟨hi, hstep⟩ := Option.ite_none_right_eq_some.mp hstep
    obtain ⟨fd, hfd, hclient⟩ := h.clientFds_getElem? hi
    rw [hfd] at hstep
    obtain ⟨⟨_, hbound, hsize⟩, hstep⟩ := Option.ite_none_right_eq_some.mp hstep
    have hq := Option.some.inj hstep
    cases result with
    | none =>
      obtain ⟨rfl, rfl⟩ := Prod.mk.inj hq
      exact ⟨⟨h.clients, h.keepAlive, hi, hle⟩, .lose hpc hclient rfl⟩
    | some bytes =>
      cases bytes with
      | nil =>
        obtain ⟨rfl, rfl⟩ := Prod.mk.inj hq
        exact ⟨⟨h.clients, h.keepAlive, hi, hle⟩, .lose hpc hclient rfl⟩
      | cons b bytes =>
        obtain ⟨rfl, rfl⟩ := Prod.mk.inj hq
        exact ⟨⟨h.clients, h.keepAlive, hi, hle⟩,
          .data hpc hclient (List.cons_ne_nil b bytes) hbound hsize⟩
  | _ => simp [step, hpc] at hstep

theorem touch_moves (h : s.WellFormed) {now : Int64}
    (hstep : step socketFd s (.touch now) = some (t, os)) :
    t.WellFormed ∧ Moves socketFd s.tables (.touch now) t.tables os := by
  cases hpc : s.pc with
  | touching i readfds since =>
    have hshape := h.shape_lengths
    rw [hpc] at hshape
    obtain ⟨hi, hle⟩ := hshape
    have hcount : i < s.clients.clientCount := h.fds_length ▸ hi
    obtain ⟨fd, hfd, hclient⟩ := h.clientFds_getElem? hcount
    obtain ⟨k, hk, hholds⟩ := touchConnection_holds h.keepAlive
      (Nat.lt_of_lt_of_le hcount h.clientCount_le) now
    simp only [step, hpc, hk] at hstep
    obtain ⟨rfl, rfl⟩ := Prod.mk.inj (Option.some.inj hstep)
    refine moves_of_holds h.clients hholds ?_ (.touch hpc hclient)
    show _ ≤ _
    rw [List.length_modify]
    exact hle
  | _ => simp [step, hpc] at hstep

theorem remove_moves (h : s.WellFormed) (hstep : step socketFd s .remove = some (t, os)) :
    t.WellFormed ∧ Moves socketFd s.tables .remove t.tables os := by
  cases hpc : s.pc with
  | removing i readfds =>
    have hshape := h.shape_lengths
    rw [hpc] at hshape
    obtain ⟨hi, hle⟩ := hshape
    obtain ⟨fd, hfd, hclient⟩ := h.clientFds_getElem? (h.fds_length ▸ hi)
    obtain ⟨k, hk, hholds⟩ := removeConnection_holds h.keepAlive i
    simp only [step, hpc, hk] at hstep
    obtain ⟨rfl, rfl⟩ := Prod.mk.inj (Option.some.inj hstep)
    refine moves_of_holds h.clients hholds ⟨hi, ?_⟩ (.remove hpc hclient)
    -- an index past the table means there are fewer entries than clients already
    rw [List.length_eraseIdx]
    by_cases hentry : i < s.tables.entries.length
    · rw [if_pos hentry]
      omega
    · rw [if_neg hentry]
      omega
  | _ => simp [step, hpc] at hstep

theorem shift_moves (h : s.WellFormed) (hstep : step socketFd s .shift = some (t, os)) :
    t.WellFormed ∧ Moves socketFd s.tables .shift t.tables os := by
  cases hpc : s.pc with
  | shifting i readfds =>
    have hshape := h.shape_lengths
    rw [hpc] at hshape
    obtain ⟨hi, hlt⟩ := hshape
    obtain ⟨c, hc, hholds⟩ := shiftClients_holds h.clients (h.fds_length ▸ hi)
    simp only [step, hpc, hc] at hstep
    obtain ⟨rfl, rfl⟩ := Prod.mk.inj (Option.some.inj hstep)
    refine moves_of_holds hholds h.keepAlive ?_ (.shift hpc)
    show _ ≤ _
    rw [List.length_eraseIdx_of_lt hi]
    omega
  | _ => simp [step, hpc] at hstep

theorem next_moves (h : s.WellFormed) (hstep : step socketFd s .next = some (t, os)) :
    t.WellFormed ∧ Moves socketFd s.tables .next t.tables os := by
  cases hpc : s.pc with
  | scan i readfds =>
    have hle : s.tables.entries.length ≤ s.tables.fds.length := by
      have hshape := h.shape_lengths
      rw [hpc] at hshape
      exact hshape
    simp only [step, hpc] at hstep
    by_cases hi : i < s.clients.clientCount
    · obtain ⟨fd, hfd, hclient⟩ := h.clientFds_getElem? hi
      rw [if_pos hi, hfd] at hstep
      obtain ⟨_, hstep⟩ := Option.ite_none_left_eq_some.mp hstep
      obtain ⟨rfl, rfl⟩ := Prod.mk.inj (Option.some.inj hstep)
      exact moves_of_holds h.clients h.keepAlive hle (.skip hpc)
    · rw [if_neg hi] at hstep
      obtain ⟨rfl, rfl⟩ := Prod.mk.inj (Option.some.inj hstep)
      exact moves_of_holds h.clients h.keepAlive hle (.done hpc)
  | _ => simp [step, hpc] at hstep

/-- A step of the main thread leaves the clients and their number of entries in
the shape the manager expects. -/
theorem shape_of_le {p : Pc} {clients tracked tracked' : Nat} (h : p.Shape clients tracked)
    (hle : tracked' ≤ tracked) : p.Shape clients tracked' := by
  cases p with
  | accepted => exact Nat.lt_of_le_of_lt hle h
  | touching => exact ⟨h.1, Nat.le_trans hle h.2⟩
  | removing => exact ⟨h.1, Nat.le_trans hle h.2⟩
  | shifting => exact ⟨h.1, Nat.lt_of_le_of_lt hle h.2⟩
  | _ => exact Nat.le_trans hle h

theorem initKeepAlive_moves (h : s.WellFormed)
    (hstep : step socketFd s .initKeepAlive = some (t, os)) :
    t.WellFormed ∧ Moves socketFd s.tables .initKeepAlive t.tables os := by
  obtain ⟨hmore, hstep⟩ := Option.ite_none_right_eq_some.mp hstep
  obtain ⟨k, hk, hholds⟩ := clearActive_holds h.keepAlive hmore
  rw [hk] at hstep
  obtain ⟨rfl, rfl⟩ := Prod.mk.inj (Option.some.inj hstep)
  refine moves_of_holds h.clients hholds ?_ (.initKeepAlive hmore)
  rw [List.length_modify]
  exact h.shape_lengths

theorem survivors_length_le (now : Nat → Int64) (n : Nat) (l : List ConnectionTracking) :
    (survivors now n l).length ≤ l.length := by
  rw [survivors, List.length_map]
  exact Nat.le_trans (List.length_filter_le ..) (Nat.le_of_eq List.length_zipIdx)

theorem sweep_moves (h : s.WellFormed) {now : Nat → Int64}
    (hstep : step socketFd s (.sweep now) = some (t, os)) :
    t.WellFormed ∧ Moves socketFd s.tables (.sweep now) t.tables os := by
  obtain ⟨hready, hstep⟩ := Option.ite_none_right_eq_some.mp hstep
  obtain ⟨k, hk, hholds⟩ := sweep_holds h.keepAlive now
  rw [hk] at hstep
  obtain ⟨rfl, rfl⟩ := Prod.mk.inj (Option.some.inj hstep)
  exact moves_of_holds h.clients hholds
    (shape_of_le h.shape_lengths (survivors_length_le ..)) (.sweep hready)

end State.WellFormed

/-- Every step keeps the tables well formed and is one of the moves. -/
theorem step_moves {socketFd : Int} {s t : State} {a : Act} {os : List Event}
    (h : s.WellFormed) (hstep : step socketFd s a = some (t, os)) :
    t.WellFormed ∧ Moves socketFd s.tables a t.tables os := by
  cases a with
  | accept => exact h.accept_moves hstep
  | track => exact h.track_moves hstep
  | read => exact h.read_moves hstep
  | touch => exact h.touch_moves hstep
  | remove => exact h.remove_moves hstep
  | shift => exact h.shift_moves hstep
  | next => exact h.next_moves hstep
  | initKeepAlive => exact h.initKeepAlive_moves hstep
  | sweep => exact h.sweep_moves hstep
  | select readfds =>
    cases hpc : s.pc with
    | head =>
      have hshape := h.shape_lengths
      rw [hpc] at hshape
      simp only [step, hpc] at hstep
      obtain ⟨hready, hstep⟩ := Option.ite_none_right_eq_some.mp hstep
      obtain ⟨rfl, rfl⟩ := Prod.mk.inj (Option.some.inj hstep)
      refine moves_of_holds h.clients h.keepAlive ?_ (.select hpc hready)
      by_cases hnone : readfds = []
      · simpa [hnone] using hshape
      · simpa [hnone, Pc.Shape] using hshape
    | _ => simp [step, hpc] at hstep
  | selectFailed =>
    cases hpc : s.pc with
    | head =>
      simp only [step, hpc] at hstep
      obtain ⟨rfl, rfl⟩ := Prod.mk.inj (Option.some.inj hstep)
      exact ⟨h, .selectFailed hpc⟩
    | _ => simp [step, hpc] at hstep
  | acceptFailed =>
    cases hpc : s.pc with
    | newConnection readfds =>
      have hshape := h.shape_lengths
      rw [hpc] at hshape
      simp only [step, hpc] at hstep
      obtain ⟨_, hstep⟩ := Option.ite_none_right_eq_some.mp hstep
      obtain ⟨rfl, rfl⟩ := Prod.mk.inj (Option.some.inj hstep)
      exact moves_of_holds h.clients h.keepAlive hshape (.acceptFailed hpc)
    | _ => simp [step, hpc] at hstep
  | noConnection =>
    cases hpc : s.pc with
    | newConnection readfds =>
      have hshape := h.shape_lengths
      rw [hpc] at hshape
      simp only [step, hpc] at hstep
      obtain ⟨_, hstep⟩ := Option.ite_none_left_eq_some.mp hstep
      obtain ⟨rfl, rfl⟩ := Prod.mk.inj (Option.some.inj hstep)
      exact moves_of_holds h.clients h.keepAlive hshape (.noConnection hpc)
    | _ => simp [step, hpc] at hstep

end ConnectionManager
end Gateway
end LinuxEmbedded
