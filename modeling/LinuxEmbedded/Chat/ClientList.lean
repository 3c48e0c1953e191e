import LinuxEmbedded.Chat.ClientsArray
import LinuxEmbedded.Chat.Handshake
import LinuxEmbedded.Lib.Machine

/-
The table of clients is a bounded list.

Every section of `client_mutex` is one step.  On the array, `none` is an access outside
of it; the list is what the sections are for.  The position of an element counts from 1
and is its connection id.
-/
namespace LinuxEmbedded
namespace Chat
namespace ClientList

open Machine
open Framing (Byte)

/-- `INET_ADDRSTRLEN`. -/
def inetAddrStrLen : Nat := 16

/-- The destination of a `connect` that has come to its handshake. -/
abbrev AddrText := { text : List Byte // (inetPton text).isSome = true }

inductive Section where
  /-- `server_startClientThread`. -/
  | serverAppend (clientFd : Int) (clientAddr : InAddr) (clientPort : Int)
  /-- `client_socketStart`. -/
  | clientAppend (sockFd : Int) (serverIp : AddrText) (serverPort : Int)
  /-- `connect`. -/
  | duplicateTest (portNum : Int)
  | list
  /-- `ui_run`. -/
  | lookup (socketFd : Int)
  | terminate (id : Int)
  | send (id : Int) (msg : List Byte)
  | exit
  /-- The end of `chat_thread`. -/
  | leave (socketFd : Int)

/-- A line of the `list` command. -/
structure Line where
  id : Nat
  ipAddr : List Byte
  listeningPort : Int
  deriving DecidableEq, Repr

/-- What a section writes, prints and closes, or finds. -/
inductive Event where
  | maxClientsReached (closed : Int)
  | duplicate (found : Bool)
  | listed (lines : List Line)
  | peer (found : Option ClientInfo)
  | sent (socketFd : Int) (msg : List Byte)
  | closed (socketFd : Int)
  | terminated (id : Int)
  | messageSent (id : Int)
  | invalidId
  deriving DecidableEq, Repr

def line (entry : Nat × ClientInfo) : Line :=
  ⟨entry.1, entry.2.ipAddr, entry.2.listeningPort⟩

/-- `TERMINATE`, and `close`. -/
def hangUp (info : ClientInfo) : List Event :=
  [.sent info.socketFd terminateMsg, .closed info.socketFd]

def terminateEvents (id : Int) : Option ClientInfo → List Event
  | none => [.invalidId]
  | some info => hangUp info ++ [.terminated id]

def sendEvents (id : Int) (msg : List Byte) : Option ClientInfo → List Event
  | none => [.invalidId]
  | some info => [.sent info.socketFd msg, .messageSent id]

/-! ## The array -/

/-- `strcpy` into `ip_addr`. -/
def strcpyIpAddr (src : List Byte) : Option (List Byte) :=
  if src.length < inetAddrStrLen then some src else none

def serverAppend (t : ClientTable) (clientFd : Int) (clientAddr : InAddr) (clientPort : Int) :
    Option (ClientTable × List Event) :=
  if maxClients ≤ t.clientCount then some (t, [.maxClientsReached clientFd])
  else do
    let clients ← ArrayList.store t.clients t.clientCount
      ⟨clientFd, inetNtop clientAddr, clientPort⟩
    some ({ clients, clientCount := t.clientCount + 1 }, [])

def clientAppend (t : ClientTable) (sockFd : Int) (serverIp : List Byte) (serverPort : Int) :
    Option (ClientTable × List Event) :=
  if t.clientCount < maxClients then do
    let ipAddr ← strcpyIpAddr serverIp
    let clients ← ArrayList.store t.clients t.clientCount ⟨sockFd, ipAddr, serverPort⟩
    some ({ clients, clientCount := t.clientCount + 1 }, [])
  else some (t, [.maxClientsReached sockFd])

/-- The entries `list` goes through, each with the id it prints. -/
def numbered (infos : List ClientInfo) : List (Nat × ClientInfo) :=
  (infos.zipIdx 1).map fun p => (p.2, p.1)

def shown (t : ClientTable) : Option (List (Nat × ClientInfo)) :=
  (ArrayList.scan t.clients 0 t.clientCount).map numbered

/-- The entry `send id` addresses. -/
def addressee (t : ClientTable) (id : Int) : Option (Option ClientInfo) :=
  if id < 1 ∨ (t.clientCount : Int) < id then some none
  else (t.clients[(id - 1).toNat]?).map some

def step (t : ClientTable) : Section → Option (ClientTable × List Event)
  | .serverAppend clientFd clientAddr clientPort => serverAppend t clientFd clientAddr clientPort
  | .clientAppend sockFd serverIp serverPort => clientAppend t sockFd serverIp.1 serverPort
  | .duplicateTest portNum => do
    let found ← ArrayList.search (fun info => info.listeningPort == portNum) t.clients 0
      t.clientCount
    some (t, [.duplicate found.isSome])
  | .list => do
    let entries ← shown t
    some (t, [.listed (entries.map line)])
  | .lookup socketFd => do
    let found ← lookupPeer t socketFd
    some (t, [.peer (found.map Prod.snd)])
  | .terminate id => do
    let (found, t) ← terminateId t id
    some (t, terminateEvents id found)
  | .send id msg => do
    let found ← addressee t id
    some (t, sendEvents id msg found)
  | .exit => do
    let infos ← ArrayList.scan t.clients 0 t.clientCount
    some ({ t with clientCount := 0 }, infos.flatMap hangUp)
  | .leave socketFd => do
    let found ← findClient t socketFd
    let t ← removeFd t socketFd
    some (t, found.toList.map fun i => .terminated (i + 1))

end ClientList

/-! ## The list -/

/-- The connections, at most `MAX_CLIENTS` of them. -/
abbrev ClientList := { l : List ClientInfo // l.length ≤ maxClients }

namespace ClientList

open Machine
open Framing (Byte)

def empty : ClientList := ⟨[], Nat.zero_le _⟩

/-- At the end, as long as there is room. -/
def append (l : ClientList) (info : ClientInfo) : ClientList :=
  if h : l.1.length < maxClients then
    ⟨l.1 ++ [info], by rw [List.length_append]; exact h⟩
  else l

/-- The element at position `id`. -/
def get (l : ClientList) (id : Int) : Option ClientInfo :=
  if 1 ≤ id ∧ id ≤ l.1.length then l.1[(id - 1).toNat]? else none

/-- Without the element at position `id`. -/
def erase (l : ClientList) (id : Int) : ClientList :=
  if 1 ≤ id ∧ id ≤ l.1.length then
    ⟨l.1.eraseIdx (id - 1).toNat, (List.eraseIdx_sublist ..).length_le.trans l.2⟩
  else l

/-- Without the first element that has the descriptor. -/
def remove (l : ClientList) (socketFd : Int) : ClientList :=
  ⟨l.1.eraseP fun info => info.socketFd == socketFd, List.length_eraseP_le.trans l.2⟩

/-- What an append says. -/
def room (l : ClientList) (fd : Int) : List Event :=
  if l.1.length < maxClients then [] else [.maxClientsReached fd]

def next (l : ClientList) : Section → ClientList × List Event
  | .serverAppend clientFd clientAddr clientPort =>
    (l.append ⟨clientFd, inetNtop clientAddr, clientPort⟩, l.room clientFd)
  | .clientAppend sockFd serverIp serverPort =>
    (l.append ⟨sockFd, serverIp.1, serverPort⟩, l.room sockFd)
  | .duplicateTest portNum => (l, [.duplicate (isDuplicate l.1 portNum)])
  | .list => (l, [.listed ((numbered l.1).map line)])
  | .lookup socketFd => (l, [.peer (peerInfo l.1 socketFd)])
  | .terminate id => (l.erase id, terminateEvents id (l.get id))
  | .send id msg => (l, sendEvents id msg (l.get id))
  | .exit => (empty, l.1.flatMap hangUp)
  | .leave socketFd =>
    (l.remove socketFd,
      (l.1.findIdx? fun info => info.socketFd == socketFd).toList.map fun i => .terminated (i + 1))

/-! ## The text of an address fits -/

/-- No octet has more than three digits. -/
theorem octet?_length {part : List Byte} {b : Byte} (h : octet? part = some b) :
    part.length ≤ 3 := by
  obtain ⟨⟨hne, hall, hvalue, hzero⟩, _⟩ := Option.ite_none_right_eq_some.mp h
  cases part with
  | nil => exact absurd rfl hne
  | cons d ds =>
    cases ds with
    | nil => exact Nat.le_add_left 1 2
    | cons e es =>
      -- the first digit is not 0
      have hfirst : d ≠ Decimal.digit 0 := by
        rintro rfl
        cases hzero rfl
      have hdigit : 48 ≤ d.toNat := by
        have hd := List.all_eq_true.mp hall d List.mem_cons_self
        simp only [Decimal.isDigit, decide_eq_true_eq] at hd
        exact hd.1
      have hlow : 1 ≤ d.toNat - 48 := by
        have hne48 : d.toNat ≠ 48 := fun he => hfirst (BitVec.eq_of_toNat_eq he)
        omega
      rw [← List.singleton_append, Decimal.value_append] at hvalue
      have hvalue' : 10 ^ (e :: es).length * (d.toNat - 48) ≤ 255 := by
        have hone : Decimal.value [d] = d.toNat - 48 := Nat.zero_add _
        rw [hone] at hvalue
        omega
      have hpow : 10 ^ (e :: es).length ≤ 255 :=
        (Nat.le_mul_of_pos_right _ hlow).trans hvalue'
      have hlength : (e :: es).length < 3 := by
        refine Nat.lt_of_not_le fun hle => ?_
        have hlarge : 10 ^ 3 ≤ 10 ^ (e :: es).length := Nat.pow_le_pow_right (by decide) hle
        omega
      rw [List.length_cons]
      omega

theorem inetPton_length {text : List Byte} (h : (inetPton text).isSome = true) :
    text.length < inetAddrStrLen := by
  obtain ⟨addr, haddr⟩ := Option.isSome_iff_exists.mp h
  have hjoin := @List.intercalate_splitOn _ text _ _ dot
  unfold inetPton at haddr
  split at haddr
  · next a b c d hsplit =>
    obtain ⟨_, ha, haddr⟩ := Option.bind_eq_some_iff.mp haddr
    obtain ⟨_, hb, haddr⟩ := Option.bind_eq_some_iff.mp haddr
    obtain ⟨_, hc, haddr⟩ := Option.bind_eq_some_iff.mp haddr
    obtain ⟨_, hd, _⟩ := Option.bind_eq_some_iff.mp haddr
    have hla := octet?_length ha
    have hlb := octet?_length hb
    have hlc := octet?_length hc
    have hld := octet?_length hd
    rw [hsplit] at hjoin
    rw [← hjoin]
    simp only [List.intercalate, List.intersperse, List.flatten_cons, List.flatten_nil,
      List.length_append, List.length_cons, List.length_nil, inetAddrStrLen]
    omega
  · cases haddr

/-! ## The array holds the list -/

section Holds

variable {t : ClientTable} {l : ClientList} (h : t.Holds l.1)
include h

theorem holds_store {info : ClientInfo} (hroom : l.1.length < maxClients) :
    ∃ clients, ArrayList.store t.clients t.clientCount info = some clients ∧
      ClientTable.Holds ⟨clients, t.clientCount + 1⟩ (l.append info).1 := by
  obtain ⟨t', hadd, hholds⟩ := h.addClient info
  have hcount : t.clientCount < maxClients := h.list.length_eq ▸ hroom
  rw [addClient, if_pos hcount] at hadd
  obtain ⟨clients, hstore, ht⟩ := Option.bind_eq_some_iff.mp hadd
  obtain rfl := Option.some.inj ht
  refine ⟨clients, hstore, ?_⟩
  rw [appendClient, if_pos hroom] at hholds
  rw [append, dif_pos hroom]
  exact hholds

theorem serverAppend_refines (clientFd : Int) (clientAddr : InAddr) (clientPort : Int) :
    ∃ t', serverAppend t clientFd clientAddr clientPort = some (t', l.room clientFd) ∧
      t'.Holds (l.append ⟨clientFd, inetNtop clientAddr, clientPort⟩).1 := by
  unfold serverAppend room
  rw [← h.list.length_eq]
  by_cases hroom : l.1.length < maxClients
  · rw [if_neg (Nat.not_le.mpr hroom), if_pos hroom, h.list.length_eq]
    obtain ⟨clients, hstore, hholds⟩ := holds_store h hroom
    rw [hstore]
    exact ⟨_, rfl, hholds⟩
  · rw [if_pos (Nat.not_lt.mp hroom), if_neg hroom, append, dif_neg hroom]
    exact ⟨t, rfl, h⟩

theorem clientAppend_refines (sockFd : Int) (serverIp : AddrText) (serverPort : Int) :
    ∃ t', clientAppend t sockFd serverIp.1 serverPort = some (t', l.room sockFd) ∧
      t'.Holds (l.append ⟨sockFd, serverIp.1, serverPort⟩).1 := by
  have hcopy : strcpyIpAddr serverIp.1 = some serverIp.1 := if_pos (inetPton_length serverIp.2)
  unfold clientAppend room
  rw [← h.list.length_eq]
  by_cases hroom : l.1.length < maxClients
  · rw [if_pos hroom, if_pos hroom, h.list.length_eq, hcopy]
    obtain ⟨clients, hstore, hholds⟩ := holds_store h hroom
    refine ⟨_, ?_, hholds⟩
    show (ArrayList.store _ _ _).bind _ = _
    rw [hstore]
    rfl
  · rw [if_neg hroom, if_neg hroom, append, dif_neg hroom]
    exact ⟨t, rfl, h⟩

theorem shown_eq : shown t = some (numbered l.1) := by
  rw [shown, h.list.scan]
  rfl

theorem addressee_eq (id : Int) : addressee t id = some (l.get id) := by
  unfold addressee get
  rw [h.list.length_eq]
  by_cases hid : 1 ≤ id ∧ id ≤ t.clientCount
  · have hlt : (id - 1).toNat < t.clientCount := by omega
    have hl : (id - 1).toNat < l.1.length := h.list.length_eq ▸ hlt
    rw [if_neg (by omega), if_pos hid, h.list.getElem? hlt, List.getElem?_eq_getElem hl]
    rfl
  · rw [if_pos (by omega), if_neg hid]

theorem terminate_refines (id : Int) :
    ∃ t', terminateId t id = some (l.get id, t') ∧ t'.Holds (l.erase id).1 := by
  obtain ⟨t', hterminate, hholds⟩ := h.terminateId id
  refine ⟨t', ?_, ?_⟩
  · rw [hterminate, terminateClient, get]
    by_cases hid : 1 ≤ id ∧ id ≤ l.1.length
    · rw [if_neg (by omega), if_pos hid, Option.map_map]
      congr 2
      exact Option.map_id'
    · rw [if_pos (by omega), if_neg hid]
      rfl
  · rw [terminateClient] at hholds
    rw [erase]
    by_cases hid : 1 ≤ id ∧ id ≤ l.1.length
    · have hl : (id - 1).toNat < l.1.length := by omega
      rw [if_neg (by omega), List.getElem?_eq_getElem hl] at hholds
      rw [if_pos hid]
      exact hholds
    · rw [if_pos (by omega)] at hholds
      rw [if_neg hid]
      exact hholds

/-- A section does on the array what it does on the list. -/
theorem step_refines (a : Section) :
    ∃ t', step t a = some (t', (l.next a).2) ∧ t'.Holds (l.next a).1.1 := by
  cases a with
  | serverAppend clientFd clientAddr clientPort => exact serverAppend_refines h _ _ _
  | clientAppend sockFd serverIp serverPort => exact clientAppend_refines h _ _ _
  | duplicateTest portNum =>
    refine ⟨t, ?_, h⟩
    have hsearch := h.list.search fun info => info.listeningPort == portNum
    show (ArrayList.search _ _ _ _).bind _ = _
    rw [hsearch, Option.bind_some, List.findIdx?_isSome]
    rfl
  | list =>
    refine ⟨t, ?_, h⟩
    show (shown t).bind _ = _
    rw [shown_eq h]
    rfl
  | lookup socketFd =>
    obtain ⟨found, hlookup, hpeer, _⟩ := h.lookupPeer socketFd
    refine ⟨t, ?_, h⟩
    show (lookupPeer t socketFd).bind _ = _
    rw [hlookup, Option.bind_some, hpeer]
    rfl
  | terminate id =>
    obtain ⟨t', hterminate, hholds⟩ := terminate_refines h id
    refine ⟨t', ?_, hholds⟩
    show (terminateId t id).bind _ = _
    rw [hterminate]
    rfl
  | send id msg =>
    refine ⟨t, ?_, h⟩
    show (addressee t id).bind _ = _
    rw [addressee_eq h]
    rfl
  | exit =>
    refine ⟨{ t with clientCount := 0 }, ?_, h.length_eq, ArrayList.holds_zero _⟩
    show (ArrayList.scan _ _ _).bind _ = _
    rw [h.list.scan]
    rfl
  | leave socketFd =>
    obtain ⟨t', hremove, hholds⟩ := h.removeFd socketFd
    refine ⟨t', ?_, hholds⟩
    show (findClient t socketFd).bind _ = _
    rw [h.findClient, Option.bind_some]
    show (removeFd t socketFd).bind _ = _
    rw [hremove]
    rfl

end Holds

theorem run_refines {t : ClientTable} {l : ClientList} (h : t.Holds l.1) (as : List Section) :
    ∃ (t' : ClientTable) (l' : ClientList) (os : List Event), run step t as = some (t', os) ∧
      run (fun l a => some (l.next a)) l as = some (l', os) ∧ t'.Holds l'.1 := by
  induction as generalizing t l with
  | nil => exact ⟨t, l, [], rfl, rfl, h⟩
  | cons a as ih =>
    obtain ⟨u, hstep, hu⟩ := step_refines h a
    obtain ⟨t', l', os, ht, hl, hholds⟩ := ih hu
    exact ⟨t', l', (l.next a).2 ++ os, run_cons_eq_some.mpr ⟨u, _, os, hstep, ht, rfl⟩,
      run_cons_eq_some.mpr ⟨_, _, os, rfl, hl, rfl⟩, hholds⟩

theorem mem_numbered {infos : List ClientInfo} {id : Nat} {info : ClientInfo} :
    (id, info) ∈ numbered infos ↔ 1 ≤ id ∧ infos[id - 1]? = some info := by
  rw [numbered, List.mem_map]
  constructor
  · rintro ⟨⟨info', i⟩, hmem, he⟩
    obtain ⟨rfl, rfl⟩ := Prod.mk.inj he
    exact List.mk_mem_zipIdx_iff_le_and_getElem?_sub.mp hmem
  · intro h
    exact ⟨(info, id), List.mk_mem_zipIdx_iff_le_and_getElem?_sub.mpr h, rfl⟩

/-- Under whatever order of the sections, the array holds the list they compute, writes, prints
and closes what the list does, and is not accessed outside; and `send` addresses under an id
the entry that `list` shows under it. -/
theorem table_refines_list (as : List Section) :
    ∃ (t : ClientTable) (l : ClientList) (os : List Event),
      run step .start as = some (t, os) ∧
      run (fun l a => some (l.next a)) empty as = some (l, os) ∧
      (t.clients.length = maxClients ∧ t.clientCount = l.1.length ∧
        t.clients.take t.clientCount = l.1) ∧
      ∃ entries, shown t = some entries ∧ ∀ (id : Int) (info : ClientInfo),
        addressee t id = some (some info) ↔ ∃ n : Nat, id = n ∧ (n, info) ∈ entries := by
  obtain ⟨t, l, os, ht, hl, h⟩ := @run_refines .start empty ClientTable.holds_start as
  refine ⟨t, l, os, ht, hl, ⟨h.length_eq, h.list.length_eq.symm, h.list.take_eq⟩, numbered l.1,
    shown_eq h, ?_⟩
  intro id info
  rw [addressee_eq h, Option.some_inj, get]
  constructor
  · intro hget
    obtain ⟨hid, hget⟩ := Option.ite_none_right_eq_some.mp hget
    refine ⟨id.toNat, (Int.toNat_of_nonneg (by omega)).symm, mem_numbered.mpr ⟨by omega, ?_⟩⟩
    rw [show id.toNat - 1 = (id - 1).toNat by omega]
    exact hget
  · rintro ⟨n, rfl, hmem⟩
    obtain ⟨hpos, hget⟩ := mem_numbered.mp hmem
    obtain ⟨hlt, _⟩ := List.getElem?_eq_some_iff.mp hget
    rw [if_pos (by omega), show ((n : Int) - 1).toNat = n - 1 by omega]
    exact hget

end ClientList
end Chat
end LinuxEmbedded
