import LinuxEmbedded.Chat.ClientList
import LinuxEmbedded.Chat.Threads

/-
`ui_run` step by step, in the process of `Threads`.

The table is the array; the list with the connections is a ghost, and the two stay in
step.  A thread in `ui_run` waits on the connection that its descriptor stood for when it
called `read`, whatever becomes of the number meanwhile.  It copies the port of its peer
under `client_mutex`, but of the address it keeps a pointer into `clients`, and prints
through it when the lock is free again.

A section is one step: each cell is written at most once in it, so a print that falls into
a section prints what it would before or after it.
-/
namespace LinuxEmbedded
namespace Chat
namespace UiRun

open Framing (Byte)
open Threads (Entry Place)

/-- What `ui_run` holds when it has unlocked: the slot `peer_ip` points into, and
`listening_port`.  `own` is the entry of the connection the message arrived on, if that is
in the table (ghost). -/
structure Found where
  slot : Nat
  listeningPort : Int
  own : Option ClientInfo
  deriving DecidableEq

/-- Where a thread is in `ui_run`; `file` is the connection that `read` was called on. -/
inductive Pc where
  | idle
  | reading (file : Option Nat)
  | lookup (file : Nat) (buffer : List Byte)
  | printing (file : Nat) (found : Found) (buffer : List Byte)
  deriving DecidableEq

def Pc.file? : Pc → Option Nat
  | .idle => none
  | .reading file => file
  | .lookup file _ | .printing file _ _ => some file

structure State where
  threads : Threads.State
  table : ClientTable
  ui : Nat → Pc

def start : State := ⟨Threads.start, .start, fun _ => .idle⟩

inductive Act where
  /-- A step outside `ui_run`. -/
  | thread (a : Threads.Act)
  /-- `read` is called. -/
  | call (conn : Nat)
  /-- `read` returns. -/
  | read (conn : Nat) (received : ReadResult)
  | lookup (conn : Nat)
  | print (conn : Nat)

/-- What the thread of the connection `conn` does with a message that arrived on `file`. -/
inductive Event where
  | thread (e : Threads.Event)
  | received (conn file : Nat) (buffer : List Byte)
  | shown (conn file : Nat) (own : Option ClientInfo) (shown : Shown)
  | left (conn : Nat)
  deriving DecidableEq

namespace State

def setUi (s : State) (conn : Nat) (pc : Pc) : State :=
  { s with ui := Function.update s.ui conn pc }

@[simp] theorem setUi_self (s : State) (conn : Nat) (pc : Pc) : (s.setUi conn pc).ui conn = pc :=
  Function.update_self ..

theorem setUi_of_ne (s : State) (pc : Pc) {conn x : Nat} (hx : x ≠ conn) :
    (s.setUi conn pc).ui x = s.ui x := Function.update_of_ne hx ..

/-- Out of the loop of `ui_run`. -/
def leave (s : State) (conn : Nat) (fd : Int) : State :=
  { s with threads := s.threads.setPlace conn (.leaving fd) }.setUi conn .idle

/-- The entries, as the array has them. -/
def infos (s : State) : List ClientInfo := s.threads.clients.map Entry.info

/-- The entry of a connection. -/
def entry? (s : State) (file : Nat) : Option ClientInfo :=
  (s.threads.clients.find? fun entry => entry.conn == file).map Entry.info

/-- The thread of the connection is in `ui_run`. -/
def inLoop (s : State) (conn : Nat) : Bool :=
  match s.threads.place conn with
  | .reading _ => true
  | _ => false

end State

/-- The array after the section of `client_mutex` in the step. -/
def arraySection (s : State) : Threads.Act → Option ClientTable
  | .enter side ipAddr listeningPort =>
    match (s.threads.busy side).map s.threads.place with
    | some (.handshake fd) => addClient s.table ⟨fd, ipAddr, listeningPort⟩
    | _ => some s.table
  | .chat conn _ =>
    match s.threads.place conn with
    | .leaving fd => removeFd s.table fd
    | _ => some s.table
  | .terminate id => (terminateId s.table id).map Prod.snd
  | .make _ _ | .create _ => some s.table

def threadStep (s : State) (a : Threads.Act) : Option (State × List Event) := do
  let (threads, es) ← Threads.step s.threads a
  let table ← arraySection s a
  some ({ s with threads, table }, es.map .thread)

def step (s : State) : Act → Option (State × List Event)
  | .thread (.chat conn message) =>
    if s.inLoop conn then none else threadStep s (.chat conn message)
  | .thread a => threadStep s a
  | .call conn =>
    match s.threads.place conn, s.ui conn with
    | .reading fd, .idle => some (s.setUi conn (.reading (s.threads.kernel fd)), [])
    | _, _ => none
  | .read conn received =>
    match s.threads.place conn, s.ui conn, chatReceiveMessage received with
    | .reading fd, .reading _, none => some (s.leave conn fd, [.left conn])
    | .reading _, .reading (some file), some buffer =>
      some (s.setUi conn (.lookup file buffer), [.received conn file buffer])
    | _, _, _ => none
  | .lookup conn =>
    match s.threads.place conn, s.ui conn with
    | .reading fd, .lookup file buffer => do
      match ← lookupPeer s.table fd with
      | some (slot, peer) =>
        if buffer = terminateMsg then some (s.leave conn fd, [.left conn])
        else
          some (s.setUi conn (.printing file ⟨slot, peer.listeningPort, s.entry? file⟩ buffer),
            [])
      | none => some (s.leave conn fd, [.left conn])
    | _, _ => none
  | .print conn =>
    match s.threads.place conn, s.ui conn with
    | .reading _, .printing file found buffer => do
      let info ← s.table.clients[found.slot]?
      some (s.setUi conn .idle,
        [.shown conn file found.own ⟨info.ipAddr, found.listeningPort, buffer⟩])
    | _, _ => none

/-! ## What a step does -/

inductive Moves (s : State) : Act → State → List Event → Prop where
  | thread {a : Threads.Act} {threads : Threads.State} {es : List Threads.Event}
    {table : ClientTable} (hstep : Threads.step s.threads a = some (threads, es))
    (harray : arraySection s a = some table)
    (hout : ∀ conn message, a = .chat conn message → s.inLoop conn = false) :
    Moves s (.thread a) { s with threads, table } (es.map .thread)
  | call {conn : Nat} {fd : Int} (hplace : s.threads.place conn = .reading fd)
    (hui : s.ui conn = .idle) :
    Moves s (.call conn) (s.setUi conn (.reading (s.threads.kernel fd))) []
  | received {conn file : Nat} {fd : Int} {received : ReadResult} {buffer : List Byte}
    (hplace : s.threads.place conn = .reading fd) (hui : s.ui conn = .reading (some file))
    (hread : chatReceiveMessage received = some buffer) :
    Moves s (.read conn received) (s.setUi conn (.lookup file buffer))
      [.received conn file buffer]
  | ended {conn : Nat} {fd : Int} {file : Option Nat} {received : ReadResult}
    (hplace : s.threads.place conn = .reading fd) (hui : s.ui conn = .reading file)
    (hread : chatReceiveMessage received = none) :
    Moves s (.read conn received) (s.leave conn fd) [.left conn]
  /-- The peer is not found, or has sent `TERMINATE`. -/
  | leave {conn file : Nat} {fd : Int} {buffer : List Byte}
    (hplace : s.threads.place conn = .reading fd) (hui : s.ui conn = .lookup file buffer)
    (hwhy : lookupPeer s.table fd = some none ∨ buffer = terminateMsg) :
    Moves s (.lookup conn) (s.leave conn fd) [.left conn]
  | found {conn file slot : Nat} {fd : Int} {buffer : List Byte} {peer : ClientInfo}
    (hplace : s.threads.place conn = .reading fd) (hui : s.ui conn = .lookup file buffer)
    (hlookup : lookupPeer s.table fd = some (some (slot, peer)))
    (hbuffer : buffer ≠ terminateMsg) :
    Moves s (.lookup conn)
      (s.setUi conn (.printing file ⟨slot, peer.listeningPort, s.entry? file⟩ buffer)) []
  | print {conn file : Nat} {fd : Int} {found : Found} {buffer : List Byte} {info : ClientInfo}
    (hplace : s.threads.place conn = .reading fd) (hui : s.ui conn = .printing file found buffer)
    (hinfo : s.table.clients[found.slot]? = some info) :
    Moves s (.print conn) (s.setUi conn .idle)
      [.shown conn file found.own ⟨info.ipAddr, found.listeningPort, buffer⟩]

theorem threadStep_moves {s t : State} {a : Threads.Act} {os : List Event}
    (h : threadStep s a = some (t, os))
    (hout : ∀ conn message, a = .chat conn message → s.inLoop conn = false) :
    Moves s (.thread a) t os := by
  obtain ⟨⟨threads, es⟩, hstep, h⟩ := Option.bind_eq_some_iff.mp h
  obtain ⟨table, harray, h⟩ := Option.bind_eq_some_iff.mp h
  obtain ⟨rfl, rfl⟩ := Prod.mk.inj (Option.some.inj h)
  exact .thread hstep harray hout

theorem step_moves {s t : State} {a : Act} {os : List Event} (h : step s a = some (t, os)) :
    Moves s a t os := by
  cases a with
  | thread a =>
    cases a with
    | chat conn message =>
      obtain ⟨hout, h⟩ := Option.ite_none_left_eq_some.mp h
      refine threadStep_moves h fun other m he => ?_
      cases he
      simpa using hout
    | make side fd => exact threadStep_moves h fun _ _ he => by cases he
    | enter side ipAddr port => exact threadStep_moves h fun _ _ he => by cases he
    | create side => exact threadStep_moves h fun _ _ he => by cases he
    | terminate id => exact threadStep_moves h fun _ _ he => by cases he
  | call conn =>
    simp only [step] at h
    split at h
    · next fd hplace hui =>
      obtain ⟨rfl, rfl⟩ := Prod.mk.inj (Option.some.inj h)
      exact .call hplace hui
    · cases h
  | read conn received =>
    simp only [step] at h
    split at h
    · next fd file hplace hui hread =>
      obtain ⟨rfl, rfl⟩ := Prod.mk.inj (Option.some.inj h)
      exact .ended hplace hui hread
    · next fd file buffer hplace hui hread =>
      obtain ⟨rfl, rfl⟩ := Prod.mk.inj (Option.some.inj h)
      exact .received hplace hui hread
    · cases h
  | lookup conn =>
    simp only [step] at h
    split at h
    · next fd file buffer hplace hui =>
      obtain ⟨found, hlookup, h⟩ := Option.bind_eq_some_iff.mp h
      cases found with
      | none =>
        obtain ⟨rfl, rfl⟩ := Prod.mk.inj (Option.some.inj h)
        exact .leave hplace hui (Or.inl hlookup)
      | some q =>
        obtain ⟨slot, peer⟩ := q
        by_cases hbuffer : buffer = terminateMsg
        · simp only [if_pos hbuffer] at h
          obtain ⟨rfl, rfl⟩ := Prod.mk.inj (Option.some.inj h)
          exact .leave hplace hui (Or.inr hbuffer)
        · simp only [if_neg hbuffer] at h
          obtain ⟨rfl, rfl⟩ := Prod.mk.inj (Option.some.inj h)
          exact .found hplace hui hlookup hbuffer
    · cases h
  | print conn =>
    simp only [step] at h
    split at h
    · next fd file found buffer hplace hui =>
      obtain ⟨info, hinfo, h⟩ := Option.bind_eq_some_iff.mp h
      obtain ⟨rfl, rfl⟩ := Prod.mk.inj (Option.some.inj h)
      exact .print hplace hui hinfo
    · cases h

/-! ## The array and its list -/

structure State.Sound (s : State) : Prop where
  table : s.table.Holds s.infos
  fresh : Threads.Fresh s.threads
  inLoop : ∀ conn, s.ui conn ≠ .idle → s.inLoop conn = true
  slots : ∀ conn file found buffer, s.ui conn = .printing file found buffer →
    found.slot < maxClients

theorem sound_start : start.Sound where
  table := ClientTable.holds_start
  fresh := fun _ _ => rfl
  inLoop := fun _ hne => absurd rfl hne
  slots := fun _ _ _ _ h => by cases h

section Steps

variable {s t : State} {os : List Event}

theorem State.inLoop_of_place {conn : Nat} {fd : Int} (h : s.threads.place conn = .reading fd) :
    s.inLoop conn = true := by
  rw [State.inLoop, h]

theorem State.place_of_inLoop {conn : Nat} (h : s.inLoop conn = true) :
    ∃ fd, s.threads.place conn = .reading fd := by
  unfold State.inLoop at h
  split at h
  · next fd hplace => exact ⟨fd, hplace⟩
  · cases h

/-- The section on the array does to it what the step does to the list. -/
theorem arraySection_holds (h : s.table.Holds s.infos) {a : Threads.Act}
    {threads : Threads.State} {es : List Threads.Event}
    (hmoves : Threads.Moves s.threads a threads es) :
    ∃ table, arraySection s a = some table ∧ table.Holds (threads.clients.map Entry.info) := by
  cases hmoves with
  | make | create => exact ⟨s.table, rfl, h⟩
  | @append side ipAddr listeningPort conn fd busy place room =>
    obtain ⟨table, hadd, hholds⟩ := h.addClient ⟨fd, ipAddr, listeningPort⟩
    refine ⟨table, ?_, ?_⟩
    · rw [← hadd]
      simp [arraySection, busy, place]
    · have hroom : s.infos.length < maxClients := by rwa [State.infos, List.length_map]
      rw [appendClient, if_pos hroom] at hholds
      show table.Holds ((s.threads.clients ++ [_]).map Entry.info)
      rw [List.map_append]
      exact hholds
  | @full side ipAddr listeningPort conn fd busy place full =>
    obtain ⟨table, hadd, hholds⟩ := h.addClient ⟨fd, ipAddr, listeningPort⟩
    refine ⟨table, ?_, ?_⟩
    · rw [← hadd]
      simp [arraySection, busy, place]
    · have hfull : ¬s.infos.length < maxClients := by rwa [State.infos, List.length_map]
      rw [appendClient, if_neg hfull] at hholds
      exact hholds
  | stay place | leave place | close place =>
    exact ⟨s.table, by simp [arraySection, place], h⟩
  | @remove conn message fd place =>
    obtain ⟨table, hremove, hholds⟩ := h.removeFd fd
    refine ⟨table, by simpa [arraySection, place] using hremove, ?_⟩
    show table.Holds ((Threads.removeEntry s.threads.clients fd).map Entry.info)
    rw [Threads.removeEntry_info]
    exact hholds
  | @terminate id entry clients _ found =>
    obtain ⟨table, hterminate, hholds⟩ := h.terminateId id
    refine ⟨table, by simp [arraySection, hterminate], ?_⟩
    have hlist := Threads.terminateEntry_info s.threads.clients id
    rw [found] at hlist
    have hlist : some (entry.info, clients.map Entry.info) = terminateClient s.infos id := hlist
    rw [← hlist] at hholds
    exact hholds
  | @noSuchId id unknown =>
    obtain ⟨table, hterminate, hholds⟩ := h.terminateId id
    refine ⟨table, by simp [arraySection, hterminate], ?_⟩
    have hlist := Threads.terminateEntry_info s.threads.clients id
    rw [unknown] at hlist
    have hlist : none = terminateClient s.infos id := hlist
    rw [← hlist] at hholds
    exact hholds

/-- A thread that stays in the loop, with what it holds now. -/
theorem State.Sound.setUi (h : s.Sound) {conn : Nat} {pc : Pc} (hloop : s.inLoop conn = true)
    (hslots : ∀ file found buffer, pc = .printing file found buffer → found.slot < maxClients) :
    (s.setUi conn pc).Sound := by
  refine ⟨h.table, h.fresh, fun x hx => ?_, fun x file found buffer hx => ?_⟩
  · by_cases he : x = conn
    · rw [he]
      exact hloop
    · rw [State.setUi_of_ne s pc he] at hx
      exact h.inLoop x hx
  · by_cases he : x = conn
    · rw [he, State.setUi_self] at hx
      exact hslots file found buffer hx
    · rw [State.setUi_of_ne s pc he] at hx
      exact h.slots x file found buffer hx

theorem State.leave_ui_of_ne {conn x : Nat} (fd : Int) (hx : x ≠ conn) :
    (s.leave conn fd).ui x = s.ui x := Function.update_of_ne hx ..

theorem State.Sound.leave (h : s.Sound) {conn : Nat} {fd : Int}
    (hplace : s.threads.place conn = .reading fd) : (s.leave conn fd).Sound := by
  have hidle : (s.leave conn fd).ui conn = .idle := State.setUi_self ..
  refine ⟨h.table, fun x hx => ?_, fun x hx => ?_, fun x file found buffer hx => ?_⟩
  · have hne : x ≠ conn := by
      have hlt := h.fresh.lt hplace (by simp)
      rintro rfl
      exact Nat.lt_irrefl _ (Nat.lt_of_lt_of_le hlt hx)
    show (s.threads.setPlace conn _).place x = .absent
    rw [Threads.State.setPlace_of_ne _ _ hne]
    exact h.fresh x hx
  · by_cases he : x = conn
    · rw [he] at hx
      exact absurd hidle hx
    · rw [State.leave_ui_of_ne fd he] at hx
      obtain ⟨fd', hplace'⟩ := State.place_of_inLoop (h.inLoop x hx)
      have hkept : (s.leave conn fd).threads.place x = .reading fd' :=
        (Threads.State.setPlace_of_ne _ _ he).trans hplace'
      exact State.inLoop_of_place hkept
  · by_cases he : x = conn
    · rw [he, hidle] at hx
      cases hx
    · rw [State.leave_ui_of_ne fd he] at hx
      exact h.slots x file found buffer hx

theorem State.Sound.moves (h : s.Sound) {a : Act} (hmoves : Moves s a t os) : t.Sound := by
  cases hmoves with
  | @thread a threads es table hstep harray hout =>
    have hthreads := Threads.step_moves hstep
    obtain ⟨table', harray', hholds⟩ := arraySection_holds h.table hthreads
    obtain rfl : table = table' := Option.some.inj (harray.symm.trans harray')
    refine ⟨hholds, hthreads.fresh h.fresh, fun x hx => ?_, h.slots⟩
    have hloop := h.inLoop x hx
    obtain ⟨fd, hplace⟩ := State.place_of_inLoop hloop
    have hkept : threads.place x = .reading fd := by
      refine hthreads.place_of_reading h.fresh hplace fun message he => ?_
      rw [hout x message he] at hloop
      cases hloop
    exact State.inLoop_of_place hkept
  | call hplace => exact h.setUi (State.inLoop_of_place hplace) fun _ _ _ he => by cases he
  | received hplace => exact h.setUi (State.inLoop_of_place hplace) fun _ _ _ he => by cases he
  | ended hplace => exact h.leave hplace
  | leave hplace => exact h.leave hplace
  | @found conn file slot fd buffer peer hplace _ hlookup =>
    refine h.setUi (State.inLoop_of_place hplace) fun _ found _ he => ?_
    cases he
    obtain ⟨found, hfound, _, hcell⟩ := h.table.lookupPeer fd
    rw [hlookup] at hfound
    have hsome := hcell slot peer (Option.some.inj hfound).symm
    exact h.table.length_eq ▸ (List.getElem?_eq_some_iff.mp hsome).1
  | print hplace => exact h.setUi (State.inLoop_of_place hplace) fun _ _ _ he => by cases he

/-! ## The process of `Threads` -/

def Event.thread? : Event → Option Threads.Event
  | .thread e => some e
  | _ => none

theorem filterMap_thread (es : List Threads.Event) :
    (es.map Event.thread).filterMap Event.thread? = es := by
  rw [List.filterMap_map]
  exact List.filterMap_some

/-- A step of the thread in `ui_run` is none, or the one that leaves the loop. -/
theorem Moves.threads {a : Act} (hmoves : Moves s a t os) :
    ∃ bs, Machine.run Threads.step s.threads bs = some (t.threads, os.filterMap Event.thread?) := by
  have hleave : ∀ {conn : Nat} {fd : Int}, s.threads.place conn = .reading fd →
      Machine.run Threads.step s.threads [.chat conn false] =
        some ((s.leave conn fd).threads, []) := by
    intro conn fd hplace
    refine Machine.run_single ?_
    show Threads.chatStep s.threads conn false = _
    rw [Threads.chatStep, hplace]
    rfl
  cases hmoves with
  | @thread a threads es table hstep =>
    refine ⟨[a], ?_⟩
    rw [filterMap_thread]
    exact Machine.run_single hstep
  | call | received | found | print => exact ⟨[], rfl⟩
  | ended hplace => exact ⟨_, hleave hplace⟩
  | leave hplace => exact ⟨_, hleave hplace⟩

/-- Every run is one of `Threads`, with the same removals and closes. -/
theorem run_threads {as : List Act} (h : Machine.run step s as = some (t, os)) :
    ∃ bs, Machine.run Threads.step s.threads bs =
      some (t.threads, os.filterMap Event.thread?) := by
  obtain ⟨bs, u, hrun, rfl⟩ := Machine.run_refines (R := fun u u' => u' = u.threads)
    (fun u u' a v os' hu hstep => by
      obtain ⟨bs, hbs⟩ := (step_moves hstep).threads
      exact ⟨bs, v.threads, hu ▸ hbs, rfl⟩) rfl h
  exact ⟨bs, hrun⟩

end Steps

/-! ## Numbers that are not used again too early -/

/-- The kernel gives out no number that a thread still uses. -/
def Unused (s : State) : Act → Prop
  | .thread a => Threads.Unused s.threads a
  | _ => True

/-- Every thread reads from its own connection. -/
structure State.OwnFiles (s : State) : Prop where
  threads : Threads.Inv s.threads
  file : ∀ conn, ∀ file ∈ (s.ui conn).file?, file = conn

theorem ownFiles_start : start.OwnFiles where
  threads := Threads.inv_start
  file := fun _ _ h => by cases h

section OwnFiles

variable {s t : State} {os : List Event} (h : s.OwnFiles)
include h

theorem State.OwnFiles.setUi {conn : Nat} (pc : Pc) (hfile : ∀ file ∈ pc.file?, file = conn) :
    (s.setUi conn pc).OwnFiles := by
  refine ⟨h.threads, fun x file hmem => ?_⟩
  by_cases he : x = conn
  · rw [he, State.setUi_self] at hmem
    rw [he]
    exact hfile file hmem
  · rw [State.setUi_of_ne s pc he] at hmem
    exact h.file x file hmem

theorem State.OwnFiles.leave {conn : Nat} {fd : Int} (hplace : s.threads.place conn = .reading fd) :
    (s.leave conn fd).OwnFiles := by
  have hkeep : Threads.Inv (s.threads.setPlace conn (.leaving fd)) :=
    h.threads.keepFd (by rw [hplace]; rfl) rfl rfl
  exact ⟨hkeep, (h.setUi .idle fun _ he => by cases he).file⟩

theorem State.OwnFiles.moves {a : Act} (hunused : Unused s a) (hmoves : Moves s a t os) :
    t.OwnFiles := by
  cases hmoves with
  | thread hstep => exact ⟨(h.threads.step hunused hstep).1, h.file⟩
  | @call conn fd hplace =>
    refine h.setUi _ fun file hkernel => ?_
    exact h.threads.unique file conn fd (h.threads.kernel fd file hkernel) (by rw [hplace]; rfl)
  | @received conn file _ _ _ _ hui =>
    exact h.setUi _ fun x hx => h.file conn x (by rw [hui]; exact hx)
  | @found conn file _ _ _ _ _ hui =>
    exact h.setUi _ fun x hx => h.file conn x (by rw [hui]; exact hx)
  | ended hplace => exact h.leave hplace
  | leave hplace => exact h.leave hplace
  | print => exact h.setUi _ fun _ he => by cases he

/-- The first entry with the number of a thread is that of its connection. -/
theorem State.OwnFiles.peerInfo_eq {conn : Nat} {fd : Int}
    (hplace : s.threads.place conn = .reading fd) {own peer : ClientInfo}
    (hown : own ∈ s.entry? conn) (hpeer : peer ∈ peerInfo s.infos fd) : peer = own := by
  have hnodup : (s.infos.map ClientInfo.socketFd).Nodup := by
    rw [State.infos, List.map_map]
    exact h.threads.nodup
  obtain ⟨entry, hfind, rfl⟩ := Option.map_eq_some_iff.mp hown
  have hmem := List.mem_of_find?_eq_some hfind
  have hconn : entry.conn = conn := by simpa using List.find?_some hfind
  have hfd : entry.fd = fd := by
    have hcarried := h.threads.kernel _ _ (h.threads.entries entry hmem).1
    rw [hconn, hplace] at hcarried
    exact (Option.some.inj hcarried).symm
  have hfirst := (Keyed.find?_eq_some_iff hnodup).mpr
    ⟨List.mem_map_of_mem hmem, hfd⟩
  have hlookup := (Option.filter_eq_some_iff.mp hpeer).1
  exact Option.some.inj (hlookup.symm.trans hfirst)

end OwnFiles

/-! ## The sections of `ClientList` -/

theorem serverAppend_eq (t : ClientTable) (fd : Int) (clientAddr : InAddr) (port : Int) :
    (ClientList.serverAppend t fd clientAddr port).map Prod.fst =
      addClient t ⟨fd, inetNtop clientAddr, port⟩ := by
  unfold ClientList.serverAppend addClient
  by_cases hroom : t.clientCount < maxClients
  · rw [if_neg (Nat.not_le.mpr hroom), if_pos hroom]
    cases ArrayList.store t.clients t.clientCount ⟨fd, inetNtop clientAddr, port⟩ <;> rfl
  · rw [if_pos (Nat.le_of_not_lt hroom), if_neg hroom]
    rfl

theorem clientAppend_eq (t : ClientTable) (fd : Int) (serverIp : ClientList.AddrText)
    (port : Int) :
    (ClientList.clientAppend t fd serverIp.1 port).map Prod.fst =
      addClient t ⟨fd, serverIp.1, port⟩ := by
  have hcopy : ClientList.strcpyIpAddr serverIp.1 = some serverIp.1 :=
    if_pos (ClientList.inetPton_length serverIp.2)
  unfold ClientList.clientAppend addClient
  by_cases hroom : t.clientCount < maxClients
  · rw [if_pos hroom, if_pos hroom, hcopy]
    simp only [Option.bind_eq_bind, Option.bind_some]
    cases ArrayList.store t.clients t.clientCount ⟨fd, serverIp.1, port⟩ <;> rfl
  · rw [if_neg hroom, if_neg hroom]
    rfl

/-- The section on the table in a step, with the address as the accept thread or the typed
command has it. -/
def sections (s : State) (clientAddr : InAddr) (serverIp : ClientList.AddrText) :
    Threads.Act → List ClientList.Section
  | .enter side _ listeningPort =>
    match (s.threads.busy side).map s.threads.place, side with
    | some (.handshake fd), .accept => [.serverAppend fd clientAddr listeningPort]
    | some (.handshake fd), .ui => [.clientAppend fd serverIp listeningPort]
    | _, _ => []
  | .chat conn _ =>
    match s.threads.place conn with
    | .leaving fd => [.leave fd]
    | _ => []
  | .terminate id => [.terminate id]
  | .make _ _ | .create _ => []

def addressText (clientAddr : InAddr) (serverIp : ClientList.AddrText) :
    Threads.Side → List Byte
  | .accept => inetNtop clientAddr
  | .ui => serverIp.1

/-- What a step does to the array is a section of the table that is a bounded list. -/
theorem arraySection_eq (s : State) (clientAddr : InAddr) (serverIp : ClientList.AddrText)
    (a : Threads.Act)
    (haddr : ∀ side ipAddr port, a = .enter side ipAddr port →
      ipAddr = addressText clientAddr serverIp side) :
    (Machine.run ClientList.step s.table (sections s clientAddr serverIp a)).map Prod.fst =
      arraySection s a := by
  have hone : ∀ sec, (Machine.run ClientList.step s.table [sec]).map Prod.fst =
      (ClientList.step s.table sec).map Prod.fst := by
    intro sec
    show ((ClientList.step s.table sec).bind _).map _ = _
    cases ClientList.step s.table sec <;> rfl
  cases a with
  | make | create => rfl
  | enter side ipAddr port =>
    obtain rfl := haddr side ipAddr port rfl
    cases hplace : (s.threads.busy side).map s.threads.place with
    | none => simp [sections, arraySection, hplace]
    | some place =>
      cases place with
      | handshake fd =>
        cases side with
        | accept =>
          simp only [sections, arraySection, hplace, hone]
          exact serverAppend_eq s.table fd clientAddr port
        | ui =>
          simp only [sections, arraySection, hplace, hone]
          exact clientAppend_eq s.table fd serverIp port
      | _ => simp [sections, arraySection, hplace]
  | chat conn message =>
    cases hplace : s.threads.place conn with
    | leaving fd =>
      simp only [sections, arraySection, hplace, hone]
      show ((findClient s.table fd).bind _).map _ = removeFd s.table fd
      cases hfind : findClient s.table fd with
      | none => simp [removeFd, hfind]
      | some found => cases removeFd s.table fd <;> simp
    | _ => simp [sections, arraySection, hplace]
  | terminate id =>
    simp only [sections, arraySection, hone]
    show ((terminateId s.table id).bind _).map _ = _
    cases terminateId s.table id <;> rfl

end UiRun
end Chat
end LinuxEmbedded
