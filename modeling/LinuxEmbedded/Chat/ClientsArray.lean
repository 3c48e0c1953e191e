import LinuxEmbedded.Chat.Common
import LinuxEmbedded.Lib.ArrayList
import Mathlib.Data.List.Basic

/-
The array `clients[MAX_CLIENTS]` and `client_count` under the sections of
`client_mutex`.

Each section computes on the cells what the functions on lists say; `none` is an access
outside the array.  What a section leaves in a cell matters past the lock too, because
`ui_run` keeps a pointer into one.
-/
namespace LinuxEmbedded
namespace Chat

/-- The globals `clients` and `client_count`. -/
structure ClientTable where
  clients : List ClientInfo
  clientCount : Nat
  deriving DecidableEq, Repr

def ClientTable.start : ClientTable where
  clients := List.replicate maxClients ⟨0, [], 0⟩
  clientCount := 0

/-- The append of both handshakes. -/
def addClient (t : ClientTable) (info : ClientInfo) : Option ClientTable :=
  if t.clientCount < maxClients then do
    let clients ← ArrayList.store t.clients t.clientCount info
    some { clients, clientCount := t.clientCount + 1 }
  else some t

/-- The loop of `ui_run` and of `chat_thread` over the descriptors. -/
def findClient (t : ClientTable) (socketFd : Int) : Option (Option Nat) :=
  ArrayList.search (fun info => info.socketFd == socketFd) t.clients 0 t.clientCount

/-- What `ui_run` has after its section: the slot `peer_ip` points into, and the entry it found
there, unless `listening_port` is -1. -/
def lookupPeer (t : ClientTable) (socketFd : Int) : Option (Option (Nat × ClientInfo)) := do
  match ← findClient t socketFd with
  | some slot => do
    let info ← t.clients[slot]?
    some (if info.listeningPort = -1 then none else some (slot, info))
  | none => some none

/-- The loop that shifts the later entries left, and `client_count--`. -/
def shiftLeft (t : ClientTable) (i : Nat) : Option ClientTable := do
  let clients ← ArrayList.shiftDown t.clients i (t.clientCount - 1 - i)
  some { clients, clientCount := t.clientCount - 1 }

/-- The section at the end of `chat_thread`. -/
def removeFd (t : ClientTable) (socketFd : Int) : Option ClientTable := do
  match ← findClient t socketFd with
  | some i => shiftLeft t i
  | none => some t

/-- The section of `terminate id`, with the entry it addresses. -/
def terminateId (t : ClientTable) (id : Int) : Option (Option ClientInfo × ClientTable) :=
  if id < 1 ∨ (t.clientCount : Int) < id then some (none, t)
  else do
    let info ← t.clients[(id - 1).toNat]?
    let t ← shiftLeft t (id - 1).toNat
    some (some info, t)

/-! ## The list in the array -/

/-- The array holds `l`. -/
structure ClientTable.Holds (t : ClientTable) (l : List ClientInfo) : Prop where
  length_eq : t.clients.length = maxClients
  list : ArrayList.Holds t.clients t.clientCount l

namespace ClientTable

variable {t : ClientTable} {l : List ClientInfo}

theorem holds_start : start.Holds [] := ⟨List.length_replicate, ArrayList.holds_zero _⟩

theorem Holds.clientCount_le (h : t.Holds l) : t.clientCount ≤ maxClients :=
  h.length_eq ▸ h.list.count_le

theorem Holds.addClient (h : t.Holds l) (info : ClientInfo) :
    ∃ t', Chat.addClient t info = some t' ∧ t'.Holds ((appendClient l info).getD l) := by
  unfold Chat.addClient appendClient
  rw [h.list.length_eq]
  by_cases hroom : t.clientCount < maxClients
  · have hlt : t.clientCount < t.clients.length := h.length_eq ▸ hroom
    rw [if_pos hroom, if_pos hroom, ArrayList.store_of_lt hlt]
    refine ⟨_, rfl, ?_, h.list.append hlt info⟩
    exact (List.length_set ..).trans h.length_eq
  · rw [if_neg hroom, if_neg hroom]
    exact ⟨t, rfl, h⟩

theorem Holds.findClient (h : t.Holds l) (socketFd : Int) :
    Chat.findClient t socketFd = some (l.findIdx? fun info => info.socketFd == socketFd) :=
  h.list.search _

theorem Holds.shiftLeft (h : t.Holds l) {i : Nat} (hi : i < t.clientCount) :
    ∃ t', Chat.shiftLeft t i = some t' ∧ t'.Holds (l.eraseIdx i) := by
  obtain ⟨cells, hshift, hlen, hholds⟩ := h.list.shiftDown hi
  refine ⟨⟨cells, t.clientCount - 1⟩, ?_, hlen.trans h.length_eq, hholds⟩
  rw [Chat.shiftLeft, hshift]
  rfl

theorem Holds.findClient_lt (h : t.Holds l) {socketFd : Int} {i : Nat}
    (hfind : Chat.findClient t socketFd = some (some i)) : i < t.clientCount := by
  rw [h.findClient] at hfind
  rw [← h.list.length_eq]
  exact (List.findIdx?_eq_some_iff_getElem.mp (Option.some.inj hfind)).1

theorem Holds.removeFd (h : t.Holds l) (socketFd : Int) :
    ∃ t', Chat.removeFd t socketFd = some t' ∧ t'.Holds (removeClient l socketFd) := by
  have hfind := h.findClient socketFd
  rw [removeClient, List.eraseP_eq_eraseIdx]
  cases hidx : l.findIdx? fun info => info.socketFd == socketFd with
  | none =>
    refine ⟨t, ?_, h⟩
    rw [Chat.removeFd, hfind, hidx]
    rfl
  | some i =>
    rw [hidx] at hfind
    obtain ⟨t', hshift, hholds⟩ := h.shiftLeft (h.findClient_lt hfind)
    refine ⟨t', ?_, hholds⟩
    rw [Chat.removeFd, hfind]
    exact hshift

theorem Holds.terminateId (h : t.Holds l) (id : Int) :
    ∃ t', Chat.terminateId t id = some ((terminateClient l id).map Prod.fst, t') ∧
      t'.Holds (((terminateClient l id).map Prod.snd).getD l) := by
  unfold Chat.terminateId terminateClient
  rw [h.list.length_eq]
  by_cases hid : id < 1 ∨ (t.clientCount : Int) < id
  · rw [if_pos hid, if_pos hid]
    exact ⟨t, rfl, h⟩
  · have hlt : (id - 1).toNat < t.clientCount := by omega
    have hl : (id - 1).toNat < l.length := h.list.length_eq ▸ hlt
    obtain ⟨t', hshift, hholds⟩ := h.shiftLeft hlt
    rw [if_neg hid, if_neg hid, h.list.getElem? hlt, List.getElem?_eq_getElem hl]
    refine ⟨t', ?_, hholds⟩
    show (Chat.shiftLeft t _).bind _ = _
    rw [hshift]
    rfl

theorem Holds.lookupPeer (h : t.Holds l) (socketFd : Int) :
    ∃ found, Chat.lookupPeer t socketFd = some found ∧
      found.map Prod.snd = peerInfo l socketFd ∧
      ∀ slot info, found = some (slot, info) → t.clients[slot]? = some info := by
  have hfind := h.findClient socketFd
  rw [Chat.lookupPeer, peerInfo, List.find?_eq_bind_findIdx?_getElem?, hfind]
  cases hidx : l.findIdx? fun info => info.socketFd == socketFd with
  | none => exact ⟨none, rfl, rfl, fun _ _ hf => nomatch hf⟩
  | some slot =>
    rw [hidx] at hfind
    have hlt : slot < l.length := h.list.length_eq ▸ h.findClient_lt hfind
    have hcell : t.clients[slot]? = some l[slot] := by
      rw [h.list.getElem? (h.findClient_lt hfind), List.getElem?_eq_getElem hlt]
    refine ⟨if l[slot].listeningPort = -1 then none else some (slot, l[slot]), ?_, ?_, ?_⟩
    · show (t.clients[slot]?).bind _ = _
      rw [hcell]
      rfl
    · show _ = Option.filter _ l[slot]?
      rw [List.getElem?_eq_getElem hlt]
      by_cases hport : l[slot].listeningPort = -1
      · simp [hport, Option.filter]
      · simp [hport, Option.filter]
    · intro slot' info hf
      obtain ⟨_, hf⟩ := Option.ite_none_left_eq_some.mp hf
      obtain ⟨rfl, rfl⟩ := Prod.mk.inj (Option.some.inj hf)
      exact hcell

/-! ## The cells past the count -/

/-- A shift writes the cells from its index to the last entry but one. -/
theorem Holds.shiftLeft_cells (h : t.Holds l) {i : Nat} (hi : i < t.clientCount) {t' : ClientTable}
    (hshift : Chat.shiftLeft t i = some t') (j : Nat) :
    t'.clients[j]? =
      if i ≤ j ∧ j + 1 < t.clientCount then t.clients[j + 1]? else t.clients[j]? := by
  have hle := h.list.count_le
  obtain ⟨cells, hcells, _, hget⟩ :=
    ArrayList.shiftDown_getElem? (show i + (t.clientCount - 1 - i) < t.clients.length by omega)
  rw [Chat.shiftLeft, hcells] at hshift
  obtain rfl := Option.some.inj hshift
  have hiff : (i ≤ j ∧ j < i + (t.clientCount - 1 - i)) ↔ (i ≤ j ∧ j + 1 < t.clientCount) := by
    omega
  show cells[j]? = _
  rw [hget j]
  exact if_congr hiff rfl rfl

end ClientTable

end Chat
end LinuxEmbedded
