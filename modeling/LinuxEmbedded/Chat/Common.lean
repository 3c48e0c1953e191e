import LinuxEmbedded.Lib.Decimal

/-
Data shared by the parts of the chat application, and the sections of its threads
under `client_mutex`.

A C string is the list of its bytes.  `clients[0..client_count)` is a list.
-/
namespace LinuxEmbedded
namespace Chat

open Framing (Byte)

def maxClients : Nat := 10

def buffSize : Nat := 256

def msgSize : Nat := 100

/-- `sizeof(port_msg)`. -/
def portMsgSize : Nat := 32

/-- A port number as the kernel has it, `unsigned short`. -/
abbrev Port := BitVec 16

/-- An IPv4 address, first octet first. -/
structure InAddr where
  a : Byte
  b : Byte
  c : Byte
  d : Byte
  deriving DecidableEq, Repr

/-- `INADDR_ANY`. -/
def inaddrAny : InAddr := ⟨0, 0, 0, 0⟩

/-- An element of `clients`. -/
structure ClientInfo where
  socketFd : Int
  ipAddr : List Byte
  listeningPort : Int
  deriving DecidableEq, Repr

/-! ## The text of an address -/

def dot : Byte := 46

def inetNtop (addr : InAddr) : List Byte :=
  Decimal.text addr.a.toNat ++ dot :: Decimal.text addr.b.toNat ++
    dot :: Decimal.text addr.c.toNat ++ dot :: Decimal.text addr.d.toNat

/-- One to three digits, at most 255, and no leading zero. -/
def octet? (part : List Byte) : Option Byte :=
  if part ≠ [] ∧ part.all Decimal.isDigit = true ∧ Decimal.value part ≤ 255 ∧
      (part.head? = some (Decimal.digit 0) → part.length = 1) then
    some (BitVec.ofNat 8 (Decimal.value part))
  else none

def inetPton (text : List Byte) : Option InAddr :=
  match text.splitOn dot with
  | [a, b, c, d] => do some ⟨← octet? a, ← octet? b, ← octet? c, ← octet? d⟩
  | _ => none

/-! ## The table -/

/-- `clients[client_count++] = …` of both handshakes; `none` when the table is full. -/
def appendClient (clients : List ClientInfo) (info : ClientInfo) : Option (List ClientInfo) :=
  if clients.length < maxClients then some (clients ++ [info]) else none

/-- The lookup of `ui_run`: the first entry with the descriptor. -/
def peerInfo (clients : List ClientInfo) (socketFd : Int) : Option ClientInfo :=
  (clients.find? fun info => info.socketFd == socketFd).filter fun info =>
    info.listeningPort != -1

/-- The removal at the end of `chat_thread`. -/
def removeClient (clients : List ClientInfo) (socketFd : Int) : List ClientInfo :=
  clients.eraseP fun info => info.socketFd == socketFd

/-- The test of the `connect` command. -/
def isDuplicate (clients : List ClientInfo) (portNum : Int) : Bool :=
  clients.any fun info => info.listeningPort == portNum

/-- The entry `terminate id` removes, and the table without it. -/
def terminateClient (clients : List ClientInfo) (id : Int) :
    Option (ClientInfo × List ClientInfo) :=
  if id < 1 ∨ (clients.length : Int) < id then none
  else (clients[(id - 1).toNat]?).map fun info => (info, clients.eraseIdx (id - 1).toNat)

theorem terminateClient_spec {clients rest : List ClientInfo} {id : Int} {info : ClientInfo}
    (h : terminateClient clients id = some (info, rest)) :
    clients[(id - 1).toNat]? = some info ∧ rest = clients.eraseIdx (id - 1).toNat := by
  obtain ⟨_, hmap⟩ := Option.ite_none_left_eq_some.mp h
  obtain ⟨_, hget, he⟩ := Option.map_eq_some_iff.mp hmap
  obtain ⟨rfl, rfl⟩ := Prod.mk.inj he
  exact ⟨hget, rfl⟩

theorem terminateClient_sublist {clients rest : List ClientInfo} {id : Int} {info : ClientInfo}
    (h : terminateClient clients id = some (info, rest)) : rest.Sublist clients := by
  rw [(terminateClient_spec h).2]
  exact List.eraseIdx_sublist ..

end Chat
end LinuxEmbedded
