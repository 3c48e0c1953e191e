import LinuxEmbedded.Chat.Common
import LinuxEmbedded.Lib.Machine
import LinuxEmbedded.Lib.Keyed
import Mathlib.Data.List.InsertIdx
import Mathlib.Logic.Function.Basic

/-
Descriptor numbers and the threads that use them.

The accept thread and the UI thread make connections, the UI thread closes the
descriptor of the one it terminates, and each `chat_thread` removes and closes by
the number it was given.  The kernel gives a closed number to any later
connection.  Connections carry numbers of their own (ghost).

The `exit` command, a failed call of a handshake, and a failed `malloc` or
`pthread_create` after it end the process: here they are runs that stop.
-/
namespace LinuxEmbedded
namespace Chat
namespace Threads

open Framing (Byte)

/-- The two threads that make connections. -/
inductive Side where
  | accept
  | ui
  deriving DecidableEq

/-- How far a connection is, with the descriptor its thread uses. -/
inductive Place where
  /-- Not made yet, or over. -/
  | absent
  | handshake (fd : Int)
  /-- In the table, and its `chat_thread` not created yet. -/
  | starting (fd : Int)
  /-- In `ui_run`. -/
  | reading (fd : Int)
  | leaving (fd : Int)
  /-- At the `close` of `chat_thread`. -/
  | closing (fd : Int)
  deriving DecidableEq

def Place.fd? : Place → Option Int
  | .absent => none
  | .handshake fd | .starting fd | .reading fd | .leaving fd | .closing fd => some fd

/-- An element of `clients`, and the connection it was made for. -/
structure Entry where
  info : ClientInfo
  conn : Nat
  deriving DecidableEq

def Entry.fd (entry : Entry) : Int := entry.info.socketFd

structure State where
  clients : List Entry
  /-- The open descriptors. -/
  kernel : Int → Option Nat
  busy : Side → Option Nat
  place : Nat → Place
  /-- The number of the next connection. -/
  next : Nat

def start : State where
  clients := []
  kernel _ := none
  busy _ := none
  place _ := .absent
  next := 0

inductive Act where
  /-- `accept` or `socket` returns this number. -/
  | make (side : Side) (fd : Int)
  /-- The handshake is over, and the thread goes through its section. -/
  | enter (side : Side) (ipAddr : List Byte) (listeningPort : Int)
  /-- `pthread_create`. -/
  | create (side : Side)
  /-- A `chat_thread` goes on; in `ui_run` it gets a message, or has to leave. -/
  | chat (conn : Nat) (message : Bool)
  | terminate (id : Int)

inductive Event where
  /-- The thread of the first connection removes the entry of the second. -/
  | removed (mine other : Nat)
  /-- The thread of the first connection closes the descriptor of the second. -/
  | closed (mine other : Nat)
  deriving DecidableEq

/-- `appendClient` with the connection. -/
def appendEntry (clients : List Entry) (entry : Entry) : Option (List Entry) :=
  if clients.length < maxClients then some (clients ++ [entry]) else none

/-- `removeClient` with the connections. -/
def removeEntry (clients : List Entry) (fd : Int) : List Entry :=
  clients.eraseP fun entry => entry.fd == fd

/-- `terminateClient` with the connections. -/
def terminateEntry (clients : List Entry) (id : Int) : Option (Entry × List Entry) :=
  if id < 1 ∨ (clients.length : Int) < id then none
  else (clients[(id - 1).toNat]?).map fun entry => (entry, clients.eraseIdx (id - 1).toNat)

theorem appendEntry_info (clients : List Entry) (entry : Entry) :
    (appendEntry clients entry).map (List.map Entry.info) =
      appendClient (clients.map Entry.info) entry.info := by
  unfold appendEntry appendClient
  rw [List.length_map]
  split <;> simp

theorem removeEntry_info (clients : List Entry) (fd : Int) :
    (removeEntry clients fd).map Entry.info = removeClient (clients.map Entry.info) fd := by
  rw [removeEntry, removeClient, List.eraseP_map]
  rfl

theorem terminateEntry_info (clients : List Entry) (id : Int) :
    (terminateEntry clients id).map (fun q => (q.1.info, q.2.map Entry.info)) =
      terminateClient (clients.map Entry.info) id := by
  unfold terminateEntry terminateClient
  rw [List.length_map]
  split
  · rfl
  · rw [List.getElem?_map, Option.map_map, Option.map_map]
    congr 1
    funext entry
    simp [List.eraseIdx_map]

namespace State

def setPlace (s : State) (conn : Nat) (place : Place) : State :=
  { s with place := Function.update s.place conn place }

def setBusy (s : State) (side : Side) (conn : Option Nat) : State :=
  { s with busy := Function.update s.busy side conn }

def close (s : State) (fd : Int) : State :=
  { s with kernel := Function.update s.kernel fd none }

@[simp] theorem setPlace_self (s : State) (conn : Nat) (p : Place) :
    (s.setPlace conn p).place conn = p := Function.update_self ..

theorem setPlace_of_ne (s : State) (p : Place) {conn x : Nat} (hx : x ≠ conn) :
    (s.setPlace conn p).place x = s.place x := Function.update_of_ne hx ..

@[simp] theorem close_self (s : State) (fd : Int) : (s.close fd).kernel fd = none :=
  Function.update_self ..

theorem close_of_ne (s : State) {fd x : Int} (hx : x ≠ fd) :
    (s.close fd).kernel x = s.kernel x := Function.update_of_ne hx ..

end State

/-- The step of a `chat_thread`. -/
def chatStep (s : State) (conn : Nat) (message : Bool) : Option (State × List Event) :=
  match s.place conn with
  | .reading fd =>
    let known := (peerInfo (s.clients.map Entry.info) fd).isSome
    some (if message && known then s else s.setPlace conn (.leaving fd), [])
  | .leaving fd =>
    some (({ s with clients := removeEntry s.clients fd }).setPlace conn (.closing fd),
      match s.clients.find? fun entry => entry.fd == fd with
      | some entry => [.removed conn entry.conn]
      | none => [])
  | .closing fd =>
    some ((s.close fd).setPlace conn .absent,
      match s.kernel fd with
      | some other => [.closed conn other]
      | none => [])
  | _ => none

def step (s : State) : Act → Option (State × List Event)
  | .make side fd =>
    if s.busy side = none ∧ s.kernel fd = none then
      some ({ s with
        kernel := Function.update s.kernel fd (some s.next)
        busy := Function.update s.busy side (some s.next)
        place := Function.update s.place s.next (.handshake fd)
        next := s.next + 1 }, [])
    else none
  | .enter side ipAddr listeningPort => do
    let conn ← s.busy side
    match s.place conn with
    | .handshake fd =>
      match appendEntry s.clients ⟨⟨fd, ipAddr, listeningPort⟩, conn⟩ with
      | some clients => some (({ s with clients }).setPlace conn (.starting fd), [])
      | none => some (((s.close fd).setPlace conn .absent).setBusy side none, [])
    | _ => none
  | .create side => do
    let conn ← s.busy side
    match s.place conn with
    | .starting fd => some ((s.setPlace conn (.reading fd)).setBusy side none, [])
    | _ => none
  | .chat conn message => chatStep s conn message
  | .terminate id =>
    -- the UI thread runs one command at a time
    if s.busy .ui = none then
      match terminateEntry s.clients id with
      | some (entry, clients) => some (({ s with clients }).close entry.fd, [])
      | none => some (s, [])
    else none

/-! ## What a step does -/

inductive Moves (s : State) : Act → State → List Event → Prop where
  | make {side : Side} {fd : Int} (free : s.kernel fd = none) :
    Moves s (.make side fd)
      { s with
        kernel := Function.update s.kernel fd (some s.next)
        busy := Function.update s.busy side (some s.next)
        place := Function.update s.place s.next (.handshake fd)
        next := s.next + 1 } []
  | append {side : Side} {ipAddr : List Byte} {listeningPort : Int} {conn : Nat} {fd : Int}
    (busy : s.busy side = some conn) (place : s.place conn = .handshake fd)
    (room : s.clients.length < maxClients) :
    Moves s (.enter side ipAddr listeningPort)
      (State.setPlace { s with clients := s.clients ++ [⟨⟨fd, ipAddr, listeningPort⟩, conn⟩] } conn
        (.starting fd)) []
  | full {side : Side} {ipAddr : List Byte} {listeningPort : Int} {conn : Nat} {fd : Int}
    (busy : s.busy side = some conn) (place : s.place conn = .handshake fd)
    (full : ¬s.clients.length < maxClients) :
    Moves s (.enter side ipAddr listeningPort)
      (((s.close fd).setPlace conn .absent).setBusy side none) []
  | create {side : Side} {conn : Nat} {fd : Int} (busy : s.busy side = some conn)
    (place : s.place conn = .starting fd) :
    Moves s (.create side) ((s.setPlace conn (.reading fd)).setBusy side none) []
  /-- A message in `ui_run`. -/
  | stay {conn : Nat} {message : Bool} {fd : Int} (place : s.place conn = .reading fd)
    (known : message = true ∧ (peerInfo (s.clients.map Entry.info) fd).isSome = true) :
    Moves s (.chat conn message) s []
  | leave {conn : Nat} {message : Bool} {fd : Int} (place : s.place conn = .reading fd) :
    Moves s (.chat conn message) (s.setPlace conn (.leaving fd)) []
  | remove {conn : Nat} {message : Bool} {fd : Int} (place : s.place conn = .leaving fd) :
    Moves s (.chat conn message)
      (({ s with clients := removeEntry s.clients fd }).setPlace conn (.closing fd))
      (((s.clients.find? fun entry => entry.fd == fd).map fun entry =>
        .removed conn entry.conn).toList)
  | close {conn : Nat} {message : Bool} {fd : Int} (place : s.place conn = .closing fd) :
    Moves s (.chat conn message) ((s.close fd).setPlace conn .absent)
      ((s.kernel fd).map (.closed conn)).toList
  | terminate {id : Int} {entry : Entry} {clients : List Entry} (idle : s.busy .ui = none)
    (found : terminateEntry s.clients id = some (entry, clients)) :
    Moves s (.terminate id) (({ s with clients }).close entry.fd) []
  | noSuchId {id : Int} (unknown : terminateEntry s.clients id = none) :
    Moves s (.terminate id) s []

theorem chatStep_moves {s t : State} {conn : Nat} {message : Bool} {os : List Event}
    (h : chatStep s conn message = some (t, os)) : Moves s (.chat conn message) t os := by
  unfold chatStep at h
  split at h
  · next fd place =>
    obtain ⟨rfl, rfl⟩ := Prod.mk.inj (Option.some.inj h)
    split
    · next known => exact .stay place (by simpa using known)
    · exact .leave place
  · next fd place =>
    obtain ⟨rfl, rfl⟩ := Prod.mk.inj (Option.some.inj h)
    have hremove : Moves s (.chat conn message) _ _ := .remove place
    cases hfind : s.clients.find? fun entry => entry.fd == fd <;>
      (rw [hfind] at hremove; exact hremove)
  · next fd place =>
    obtain ⟨rfl, rfl⟩ := Prod.mk.inj (Option.some.inj h)
    have hclose : Moves s (.chat conn message) _ _ := .close place
    cases hopen : s.kernel fd <;> (rw [hopen] at hclose; exact hclose)
  · cases h

theorem step_moves {s t : State} {a : Act} {os : List Event} (h : step s a = some (t, os)) :
    Moves s a t os := by
  cases a with
  | make side fd =>
    obtain ⟨⟨_, free⟩, h⟩ := Option.ite_none_right_eq_some.mp h
    obtain ⟨rfl, rfl⟩ := Prod.mk.inj (Option.some.inj h)
    exact .make free
  | enter side ipAddr listeningPort =>
    obtain ⟨conn, busy, h⟩ := Option.bind_eq_some_iff.mp h
    split at h
    · next fd place =>
      unfold appendEntry at h
      by_cases room : s.clients.length < maxClients
      · rw [if_pos room] at h
        obtain ⟨rfl, rfl⟩ := Prod.mk.inj (Option.some.inj h)
        exact .append busy place room
      · rw [if_neg room] at h
        obtain ⟨rfl, rfl⟩ := Prod.mk.inj (Option.some.inj h)
        exact .full busy place room
    · cases h
  | create side =>
    obtain ⟨conn, busy, h⟩ := Option.bind_eq_some_iff.mp h
    split at h
    · next fd place =>
      obtain ⟨rfl, rfl⟩ := Prod.mk.inj (Option.some.inj h)
      exact .create busy place
    · cases h
  | chat conn message => exact chatStep_moves h
  | terminate id =>
    obtain ⟨idle, h⟩ := Option.ite_none_right_eq_some.mp h
    split at h
    · next entry clients found =>
      obtain ⟨rfl, rfl⟩ := Prod.mk.inj (Option.some.inj h)
      exact .terminate idle found
    · next unknown =>
      obtain ⟨rfl, rfl⟩ := Prod.mk.inj (Option.some.inj h)
      exact .noSuchId unknown

/-- Connections that are not made yet have no place. -/
def Fresh (s : State) : Prop := ∀ conn, s.next ≤ conn → s.place conn = .absent

theorem Fresh.lt {s : State} (h : Fresh s) {conn : Nat} {p : Place} (hp : s.place conn = p)
    (hne : p ≠ .absent) : conn < s.next := by
  by_contra hlt
  exact hne (hp.symm.trans (h conn (Nat.le_of_not_lt hlt)))

/-- From `ui_run` on a connection moves in the steps of its own thread only. -/
theorem Moves.place_of_reading {s t : State} {a : Act} {os : List Event} (h : Moves s a t os)
    (hfresh : Fresh s) {x : Nat} {fd : Int} (hx : s.place x = .reading fd)
    (hchat : ∀ message, a ≠ .chat x message) : t.place x = .reading fd := by
  rw [← hx]
  cases h with
  | make => exact Function.update_of_ne (Nat.ne_of_lt (hfresh.lt hx (by simp))) ..
  | append _ place | full _ place | create _ place =>
    exact Function.update_of_ne (fun he => by rw [he, place] at hx; cases hx) ..
  | stay | terminate | noSuchId => rfl
  | @leave conn message | @remove conn message | @close conn message =>
    have hne : x ≠ conn := fun he => hchat message (he ▸ rfl)
    exact Function.update_of_ne hne ..

theorem Moves.fresh {s t : State} {a : Act} {os : List Event} (h : Moves s a t os)
    (hfresh : Fresh s) : Fresh t := by
  have hset : ∀ {conn : Nat} {p : Place} (q : Place), s.place conn = p → p ≠ .absent →
      ∀ x, s.next ≤ x → Function.update s.place conn q x = .absent := by
    intro conn p q hp hne x hx
    have hlt := hfresh.lt hp hne
    rw [Function.update_of_ne (by omega)]
    exact hfresh x hx
  cases h with
  | make =>
    intro x hx
    have hx : s.next + 1 ≤ x := hx
    show Function.update s.place s.next _ x = .absent
    rw [Function.update_of_ne (by omega)]
    exact hfresh x (by omega)
  | append _ place | full _ place | create _ place | leave place | remove place | close place =>
    exact hset _ place (by simp)
  | stay | terminate | noSuchId => exact hfresh

/-- The kernel does not give out a number that the thread of an earlier connection
still uses. -/
def Unused (s : State) : Act → Prop
  | .make _ fd => ∀ conn < s.next, (s.place conn).fd? ≠ some fd
  | _ => True

instance (s : State) : (a : Act) → Decidable (Unused s a)
  | .make _ fd => inferInstanceAs (Decidable (∀ conn < s.next, (s.place conn).fd? ≠ some fd))
  | .enter _ _ _ | .create _ | .chat _ _ | .terminate _ => isTrue trivial

/-- Each `chat_thread` has removed and closed its own connection only. -/
def OwnOnly (os : List Event) : Prop :=
  ∀ mine other, (.removed mine other ∈ os ∨ .closed mine other ∈ os) → other = mine

/-- The descriptors in the table are distinct, and each is that of its connection. -/
def Sound (s : State) : Prop :=
  (s.clients.map Entry.fd).Nodup ∧ ∀ entry ∈ s.clients, s.kernel entry.fd = some entry.conn

/-! ## The invariant -/

/-- The entry of the connection, if any, may be in the table. -/
def Place.mayHaveEntry : Place → Bool
  | .starting _ | .reading _ | .leaving _ => true
  | .absent | .handshake _ | .closing _ => false

structure Inv (s : State) : Prop where
  fresh : ∀ c, s.next ≤ c → s.place c = .absent
  unique : ∀ c c' fd, (s.place c).fd? = some fd → (s.place c').fd? = some fd → c = c'
  kernel : ∀ fd c, s.kernel fd = some c → (s.place c).fd? = some fd
  handshake : ∀ c fd, s.place c = .handshake fd → s.kernel fd = some c
  entries : ∀ e ∈ s.clients, s.kernel e.fd = some e.conn ∧ (s.place e.conn).mayHaveEntry = true
  nodup : (s.clients.map Entry.fd).Nodup

theorem inv_start : Inv start where
  fresh := fun _ _ => rfl
  unique := by
    intro c c' fd h
    cases h
  kernel := by
    intro fd c h
    cases h
  handshake := by
    intro c fd h
    cases h
  entries := by
    intro e he
    cases he
  nodup := List.nodup_nil

section Steps

variable {s : State} {c : Nat} {fd : Int} {p : Place}

/-- The only entry with the descriptor of a connection is its own. -/
theorem Inv.conn_eq (h : Inv s) (hp : (s.place c).fd? = some fd) {e : Entry}
    (he : e ∈ s.clients) (hfd : e.fd = fd) : e.conn = c := by
  have hkernel := h.kernel _ _ (h.entries e he).1
  rw [hfd] at hkernel
  exact h.unique _ _ fd hkernel hp

/-- A connection goes on with its descriptor. -/
theorem Inv.setPlace (h : Inv s) (hfd : p.fd? = (s.place c).fd?) (hsome : p ≠ .absent)
    (hshake : ∀ fd, p ≠ .handshake fd)
    (hentry : ∀ e ∈ s.clients, e.conn = c → p.mayHaveEntry = true) :
    Inv (s.setPlace c p) := by
  have hplace : ∀ x, ((s.setPlace c p).place x).fd? = (s.place x).fd? := by
    intro x
    by_cases hx : x = c
    · subst hx
      rw [State.setPlace_self, hfd]
    · rw [State.setPlace_of_ne s p hx]
  refine ⟨?_, ?_, ?_, ?_, ?_, h.nodup⟩
  · intro x hx
    by_cases hxc : x = c
    · -- a connection that is absent has no descriptor to go on with
      subst hxc
      rw [h.fresh x hx] at hfd
      cases p <;> simp_all [Place.fd?]
    · rw [State.setPlace_of_ne s p hxc]
      exact h.fresh x hx
  · intro x y fd hx hy
    rw [hplace] at hx hy
    exact h.unique x y fd hx hy
  · intro fd x hx
    rw [hplace]
    exact h.kernel fd x hx
  · intro x fd hx
    show s.kernel fd = some x
    by_cases hxc : x = c
    · subst hxc
      rw [State.setPlace_self] at hx
      exact absurd hx (hshake fd)
    · rw [State.setPlace_of_ne s p hxc] at hx
      exact h.handshake x fd hx
  · intro e he
    refine ⟨(h.entries e he).1, ?_⟩
    by_cases hec : e.conn = c
    · rw [hec, State.setPlace_self]
      exact hentry e he hec
    · rw [State.setPlace_of_ne s p hec]
      exact (h.entries e he).2

theorem Inv.sublist (h : Inv s) {clients : List Entry} (hsub : clients.Sublist s.clients) :
    Inv { s with clients } :=
  ⟨h.fresh, h.unique, h.kernel, h.handshake, fun e he => h.entries e (hsub.subset he),
    h.nodup.sublist (hsub.map Entry.fd)⟩

theorem Inv.setBusy (h : Inv s) (side : Side) (conn : Option Nat) : Inv (s.setBusy side conn) :=
  ⟨h.fresh, h.unique, h.kernel, h.handshake, h.entries, h.nodup⟩

/-- The descriptor of a connection without an entry is closed, and the connection is
over. -/
theorem Inv.leave (h : Inv s) (hp : (s.place c).fd? = some fd)
    (hentry : (s.place c).mayHaveEntry = false) : Inv ((s.close fd).setPlace c .absent) := by
  have hnot : ∀ e ∈ s.clients, e.conn ≠ c := by
    rintro e he rfl
    rw [(h.entries e he).2] at hentry
    cases hentry
  have hplace : ∀ x fd', (((s.close fd).setPlace c .absent).place x).fd? = some fd' →
      x ≠ c ∧ (s.place x).fd? = some fd' ∧ fd' ≠ fd := by
    intro x fd' hx
    by_cases hxc : x = c
    · subst hxc
      rw [State.setPlace_self] at hx
      cases hx
    · rw [State.setPlace_of_ne _ _ hxc] at hx
      refine ⟨hxc, hx, ?_⟩
      rintro rfl
      exact hxc (h.unique x c fd' hx hp)
  refine ⟨?_, ?_, ?_, ?_, ?_, h.nodup⟩
  · intro x hx
    by_cases hxc : x = c
    · rw [hxc, State.setPlace_self]
    · rw [State.setPlace_of_ne _ _ hxc]
      exact h.fresh x hx
  · intro x y fd' hx hy
    exact h.unique x y fd' (hplace x fd' hx).2.1 (hplace y fd' hy).2.1
  · intro fd' x hx
    have hx : (s.close fd).kernel fd' = some x := hx
    have hfd : fd' ≠ fd := by
      rintro rfl
      rw [State.close_self] at hx
      cases hx
    rw [State.close_of_ne s hfd] at hx
    have hcarried := h.kernel fd' x hx
    have hxc : x ≠ c := by
      rintro rfl
      rw [hp] at hcarried
      exact hfd (Option.some.inj hcarried).symm
    rw [State.setPlace_of_ne _ _ hxc]
    exact hcarried
  · intro x fd' hx
    obtain ⟨hxc, hcarried, hfd⟩ := hplace x fd' (by rw [hx]; rfl)
    rw [State.setPlace_of_ne _ _ hxc] at hx
    show (s.close fd).kernel fd' = some x
    rw [State.close_of_ne s hfd]
    exact h.handshake x fd' hx
  · intro e he
    have hne := hnot e he
    refine ⟨?_, ?_⟩
    · show (s.close fd).kernel e.fd = some e.conn
      rw [State.close_of_ne s (fun hfd => hne (h.conn_eq hp he hfd))]
      exact (h.entries e he).1
    · rw [State.setPlace_of_ne _ _ hne]
      exact (h.entries e he).2

/-- `terminate` closes the descriptor of the entry it removes. -/
theorem Inv.terminate (h : Inv s) {e : Entry} {clients : List Entry} (he : e ∈ s.clients)
    (hsub : clients.Sublist s.clients) (hfd : ∀ x ∈ clients, x.fd ≠ e.fd) :
    Inv (({ s with clients }).close e.fd) := by
  refine ⟨h.fresh, h.unique, ?_, ?_, ?_, h.nodup.sublist (hsub.map Entry.fd)⟩
  · intro fd x hx
    by_cases hfd : fd = e.fd
    · rw [hfd, State.close_self] at hx
      cases hx
    · rw [State.close_of_ne _ hfd] at hx
      exact h.kernel fd x hx
  · intro x fd hx
    have hopen := h.handshake x fd hx
    have hfd : fd ≠ e.fd := by
      rintro rfl
      obtain ⟨hkernel, hentry⟩ := h.entries e he
      rw [hkernel] at hopen
      rw [Option.some.inj hopen] at hentry
      have hx : s.place x = .handshake e.fd := hx
      rw [hx] at hentry
      cases hentry
    rw [State.close_of_ne _ hfd]
    exact hopen
  · intro x hx
    obtain ⟨hkernel, hentry⟩ := h.entries x (hsub.subset hx)
    refine ⟨?_, hentry⟩
    rw [State.close_of_ne _ (hfd x hx)]
    exact hkernel

/-- The entry of a connection whose handshake is over. -/
theorem Inv.append (h : Inv s) {info : ClientInfo} (hkernel : s.kernel info.socketFd = some c)
    (hplace : (s.place c).mayHaveEntry = true) (hnew : ∀ e ∈ s.clients, e.conn ≠ c) :
    Inv { s with clients := s.clients ++ [⟨info, c⟩] } := by
  refine ⟨h.fresh, h.unique, h.kernel, h.handshake, ?_, ?_⟩
  · intro e he
    rcases List.mem_append.mp he with he | he
    · exact h.entries e he
    · cases List.mem_singleton.mp he
      exact ⟨hkernel, hplace⟩
  · refine Keyed.nodup_append_singleton h.nodup ?_
    intro e he heq
    have hopen := (h.entries e he).1
    rw [heq] at hopen
    exact hnew e he (Option.some.inj (hkernel.symm.trans hopen)).symm

/-- A connection made on a number nobody uses. -/
theorem Inv.make (h : Inv s) (side : Side)
    (hunused : ∀ x < s.next, (s.place x).fd? ≠ some fd) :
    Inv { s with
      kernel := Function.update s.kernel fd (some s.next)
      busy := Function.update s.busy side (some s.next)
      place := Function.update s.place s.next (.handshake fd)
      next := s.next + 1 } := by
  have hold : ∀ x, x ≠ s.next → Function.update s.place s.next (.handshake fd) x = s.place x :=
    fun x hx => Function.update_of_ne hx ..
  have hnew : Function.update s.place s.next (.handshake fd) s.next = .handshake fd :=
    Function.update_self ..
  have hnobody : ∀ x, (s.place x).fd? ≠ some fd := by
    intro x
    by_cases hx : x < s.next
    · exact hunused x hx
    · rw [h.fresh x (by omega)]
      simp [Place.fd?]
  -- the new connection has no number in common with an old one
  have hfds : ∀ x fd', (Function.update s.place s.next (.handshake fd) x).fd? = some fd' →
      (x = s.next ∧ fd' = fd) ∨ (x ≠ s.next ∧ (s.place x).fd? = some fd' ∧ fd' ≠ fd) := by
    intro x fd' hx
    by_cases hxn : x = s.next
    · rw [hxn, hnew] at hx
      exact Or.inl ⟨hxn, (Option.some.inj hx).symm⟩
    · rw [hold x hxn] at hx
      refine Or.inr ⟨hxn, hx, ?_⟩
      rintro rfl
      exact hnobody x hx
  refine ⟨?_, ?_, ?_, ?_, ?_, h.nodup⟩
  · intro x hx
    have hx : s.next + 1 ≤ x := hx
    show Function.update s.place s.next (.handshake fd) x = .absent
    rw [hold x (by omega)]
    exact h.fresh x (by omega)
  · intro x y fd' hx hy
    rcases hfds x fd' hx with ⟨rfl, rfl⟩ | ⟨_, hx, hne⟩
    · rcases hfds y fd' hy with ⟨rfl, _⟩ | ⟨_, _, hne⟩
      · rfl
      · exact absurd rfl hne
    · rcases hfds y fd' hy with ⟨_, rfl⟩ | ⟨_, hy, _⟩
      · exact absurd rfl hne
      · exact h.unique x y fd' hx hy
  · intro fd' x hx
    have hx : Function.update s.kernel fd (some s.next) fd' = some x := hx
    show (Function.update s.place s.next (.handshake fd) x).fd? = some fd'
    by_cases hfd : fd' = fd
    · rw [hfd, Function.update_self] at hx
      rw [← Option.some.inj hx, hnew, hfd]
      rfl
    · rw [Function.update_of_ne hfd] at hx
      have hcarried := h.kernel fd' x hx
      have hxn : x ≠ s.next := by
        rintro rfl
        rw [h.fresh s.next (Nat.le_refl _)] at hcarried
        cases hcarried
      rw [hold x hxn]
      exact hcarried
  · intro x fd' hx
    have hx : Function.update s.place s.next (.handshake fd) x = .handshake fd' := hx
    show Function.update s.kernel fd (some s.next) fd' = some x
    rcases hfds x fd' (by rw [hx]; rfl) with ⟨rfl, rfl⟩ | ⟨hxn, _, hne⟩
    · rw [Function.update_self]
    · rw [Function.update_of_ne hne]
      rw [hold x hxn] at hx
      exact h.handshake x fd' hx
  · intro e he
    obtain ⟨hkernel, hentry⟩ := h.entries e he
    have hne : e.conn ≠ s.next := by
      intro hn
      rw [hn, h.fresh s.next (Nat.le_refl _)] at hentry
      cases hentry
    have hfd : e.fd ≠ fd := by
      intro hfd
      have hcarried := h.kernel _ _ hkernel
      rw [hfd] at hcarried
      exact hnobody _ hcarried
    refine ⟨?_, ?_⟩
    · show Function.update s.kernel fd (some s.next) e.fd = some e.conn
      rw [Function.update_of_ne hfd]
      exact hkernel
    · show (Function.update s.place s.next (.handshake fd) e.conn).mayHaveEntry = true
      rw [hold _ hne]
      exact hentry

/-- A step of a connection, in `chat_thread` or on the way to it. -/
theorem Inv.keepFd (h : Inv s) (hp : (s.place c).fd? = some fd) (hfd : p.fd? = some fd)
    (hentry : p.mayHaveEntry = true) : Inv (s.setPlace c p) := by
  refine h.setPlace (hfd.trans hp.symm) ?_ ?_ (fun _ _ _ => hentry)
  · rintro rfl
    cases hfd
  · rintro x rfl
    cases hentry

/-- `terminate` with the invariant of the table. -/
theorem terminateEntry_spec (h : Inv s) {id : Int} {e : Entry} {clients : List Entry}
    (hq : terminateEntry s.clients id = some (e, clients)) :
    e ∈ s.clients ∧ clients.Sublist s.clients ∧ ∀ x ∈ clients, x.fd ≠ e.fd := by
  unfold terminateEntry at hq
  split at hq
  · cases hq
  · obtain ⟨e', he', hpair⟩ := Option.map_eq_some_iff.mp hq
    obtain ⟨rfl, rfl⟩ := Prod.mk.inj hpair
    have hdenotes : Keyed.Denotes Entry.fd s.clients (id - 1).toNat e'.fd := by
      left
      rw [he']
      rfl
    refine ⟨List.mem_of_getElem? he', List.eraseIdx_sublist .., ?_⟩
    intro x hx
    exact ((Keyed.mem_eraseIdx_iff h.nodup hdenotes).mp hx).2

/-- The entry a thread removes is its own. -/
theorem Inv.remove (h : Inv s) (hp : s.place c = .leaving fd) :
    Inv (({ s with clients := removeEntry s.clients fd }).setPlace c (.closing fd)) ∧
      OwnOnly (((s.clients.find? fun entry => entry.fd == fd).map fun entry =>
        .removed c entry.conn).toList) := by
  have hfd : (s.place c).fd? = some fd := by rw [hp]; rfl
  refine ⟨?_, ?_⟩
  · have hsub : (removeEntry s.clients fd).Sublist s.clients := List.eraseP_sublist
    refine (h.sublist hsub).setPlace (by rw [hfd]; rfl) (by simp) (by simp) ?_
    intro e he hc
    have he : e ∈ removeEntry s.clients fd := he
    have hkernel := h.kernel _ _ (h.entries e (hsub.subset he)).1
    rw [hc, hfd] at hkernel
    have hne : e.fd ≠ fd := ((Keyed.mem_eraseP_iff h.nodup).mp he).2
    exact absurd (Option.some.inj hkernel).symm hne
  · intro mine other hmem
    cases hfind : s.clients.find? fun entry => entry.fd == fd with
    | none =>
      rw [hfind] at hmem
      simp at hmem
    | some e =>
      have hefd : e.fd = fd := by simpa using List.find?_some hfind
      have hown := h.conn_eq hfd (List.mem_of_find?_eq_some hfind) hefd
      rw [hfind] at hmem
      simp only [Option.map_some, Option.toList_some, List.mem_singleton, Event.removed.injEq,
        reduceCtorEq, or_false] at hmem
      rw [hmem.1, hmem.2, hown]

/-- The descriptor a thread closes is its own. -/
theorem Inv.ownClose (h : Inv s) (hp : s.place c = .closing fd) :
    OwnOnly ((s.kernel fd).map (.closed c)).toList := by
  have hfd : (s.place c).fd? = some fd := by rw [hp]; rfl
  intro mine other hmem
  cases hopen : s.kernel fd with
  | none =>
    rw [hopen] at hmem
    simp at hmem
  | some x =>
    have hown := h.unique x c fd (h.kernel fd x hopen) hfd
    rw [hopen] at hmem
    simp only [Option.map_some, Option.toList_some, List.mem_singleton, Event.closed.injEq,
      reduceCtorEq, false_or] at hmem
    rw [hmem.1, hmem.2, hown]

theorem Inv.step (h : Inv s) {a : Act} {t : State} {os : List Event} (hunused : Unused s a)
    (ht : step s a = some (t, os)) : Inv t ∧ OwnOnly os := by
  have hsilent : OwnOnly [] := by
    intro mine other hmem
    simp at hmem
  cases step_moves ht with
  | make => exact ⟨h.make _ hunused, hsilent⟩
  | @append side _ _ c fd _ hp _ =>
    have hfd : (s.place c).fd? = some fd := by rw [hp]; rfl
    have hnone : ∀ e ∈ s.clients, e.conn ≠ c := by
      rintro e he rfl
      have hentry := (h.entries e he).2
      rw [hp] at hentry
      cases hentry
    have hstarting : Inv (s.setPlace c (.starting fd)) := h.keepFd hfd rfl rfl
    exact ⟨hstarting.append (h.handshake c fd hp) (by rw [State.setPlace_self]; rfl) hnone,
      hsilent⟩
  | full _ hp =>
    exact ⟨(h.leave (by rw [hp]; rfl) (by rw [hp]; rfl)).setBusy _ none, hsilent⟩
  | create _ hp => exact ⟨(h.keepFd (by rw [hp]; rfl) rfl rfl).setBusy _ none, hsilent⟩
  | stay => exact ⟨h, hsilent⟩
  | leave hp => exact ⟨h.keepFd (by rw [hp]; rfl) rfl rfl, hsilent⟩
  | remove hp => exact h.remove hp
  | close hp => exact ⟨h.leave (by rw [hp]; rfl) (by rw [hp]; rfl), h.ownClose hp⟩
  | terminate _ hq =>
    obtain ⟨he, hsub, hfd⟩ := terminateEntry_spec h hq
    exact ⟨h.terminate he hsub hfd, hsilent⟩
  | noSuchId => exact ⟨h, hsilent⟩

theorem Inv.sound (h : Inv s) : Sound s := ⟨h.nodup, fun e he => (h.entries e he).1⟩

end Steps

/-! ## Runs -/

theorem OwnOnly.append {os os' : List Event} (h : OwnOnly os) (h' : OwnOnly os') :
    OwnOnly (os ++ os') := by
  intro mine other hmem
  rw [List.mem_append, List.mem_append] at hmem
  rcases hmem with (hmem | hmem) | (hmem | hmem)
  · exact h mine other (Or.inl hmem)
  · exact h' mine other (Or.inl hmem)
  · exact h mine other (Or.inr hmem)
  · exact h' mine other (Or.inr hmem)

/-- When no number is given out again before the thread that carries it is over,
each thread touches its own connection only. -/
theorem own_of_unused {as : List Act} {s : State} {os : List Event}
    (hunused : Machine.Meets step Unused start as)
    (h : Machine.run step start as = some (s, os)) : OwnOnly os ∧ Sound s := by
  have hrun : OwnOnly os ∧ Inv s := by
    refine Machine.meets_induction (P := fun os s => OwnOnly os ∧ Inv s) ?_ ?_ hunused h
    · exact ⟨fun mine other hmem => by simp at hmem, inv_start⟩
    · rintro os u a t os' ⟨hown, hinv⟩ hu ht
      obtain ⟨hinv', hown'⟩ := hinv.step hu ht
      exact ⟨hown.append hown', hinv'⟩
  exact ⟨hrun.1, hrun.2.sound⟩

/-- A number is given out again once the thread that carried it is over. -/
theorem own_of_unused_apart :
    ∃ s os, Machine.run step start
        [.make .accept 4, .enter .accept [49] 5001, .create .accept, .chat 0 true,
          .terminate 1, .chat 0 false, .chat 0 false, .chat 0 false, .make .ui 4,
          .enter .ui [49] 5002] = some (s, os) ∧ OwnOnly os ∧ Sound s := by
  have hsome : (Machine.run step start
      [.make .accept 4, .enter .accept [49] 5001, .create .accept, .chat 0 true,
        .terminate 1, .chat 0 false, .chat 0 false, .chat 0 false, .make .ui 4,
        .enter .ui [49] 5002]).isSome = true := by decide +kernel
  obtain ⟨⟨s, os⟩, hrun⟩ := Option.isSome_iff_exists.mp hsome
  exact ⟨s, os, hrun, own_of_unused (by decide +kernel) hrun⟩

/-- The thread of a terminated connection closes the next one, accepted on its
number. -/
theorem closes_reused_number :
    ∃ s os, Machine.run step start
        [.make .accept 4, .enter .accept [49] 5001, .create .accept, .terminate 1,
          .chat 0 false, .chat 0 false, .make .accept 4, .enter .accept [50] 5002,
          .chat 0 false] = some (s, os) ∧
      .closed 0 1 ∈ os ∧ ¬OwnOnly os ∧ ¬Sound s := by
  have hmap : (Machine.run step start
      [.make .accept 4, .enter .accept [49] 5001, .create .accept, .terminate 1,
        .chat 0 false, .chat 0 false, .make .accept 4, .enter .accept [50] 5002,
        .chat 0 false]).map (fun q => (q.2, q.1.clients, q.1.kernel 4)) =
      some ([.closed 0 1], [⟨⟨4, [50], 5002⟩, 1⟩], none) := by decide +kernel
  obtain ⟨⟨s, os⟩, hrun, heq⟩ := Option.map_eq_some_iff.mp hmap
  obtain ⟨hevents, hstate⟩ := Prod.mk.inj heq
  obtain ⟨hclients, hkernel⟩ := Prod.mk.inj hstate
  have hclosed : .closed 0 1 ∈ os := by
    rw [show os = [.closed 0 1] from hevents]
    exact List.mem_singleton_self _
  refine ⟨s, os, hrun, hclosed, ?_, ?_⟩
  · intro hown
    have hsame := hown 0 1 (Or.inr hclosed)
    cases hsame
  · rintro ⟨_, hopen⟩
    have hentry : (⟨⟨4, [50], 5002⟩, 1⟩ : Entry) ∈ s.clients := by
      rw [show s.clients = [⟨⟨4, [50], 5002⟩, 1⟩] from hclients]
      exact List.mem_singleton_self _
    have hfour : s.kernel 4 = some 1 := hopen _ hentry
    rw [show s.kernel 4 = none from hkernel] at hfour
    cases hfour

end Threads
end Chat
end LinuxEmbedded
