import LinuxEmbedded.Chat.Peers
import Mathlib.Logic.Function.Basic

/-
Chat processes that connect to each other.

Each process has the accept thread of `connection_thread`, the UI thread with its
`connect` commands, and chat threads.  Of the chat threads the handshakes only
notice that one may hold `client_mutex`, to look for an entry or to remove one.
No call fails, and `read` returns one whole message; a `close` loses nothing that
is on the way.
-/
namespace LinuxEmbedded
namespace Chat
namespace Network

open Framing (Byte)
open Peers (Peer bound SelfTest)

def listenBacklog : Nat := 50

/-- A connection, by the process that made it. -/
structure Conn (I : Type) where
  client : I
  /-- How many the client made before. -/
  number : Nat
  deriving DecidableEq

/-- The arguments of a `connect`, and the process that listens there. -/
structure Command (I : Type) where
  dest : Peer
  server : I

/-- The locals of `client_socketStart`. -/
structure Outgoing (I : Type) where
  conn : Conn I
  sockFd : Int
  serverIp : List Byte

/-- The locals of `server_startClientThread`. -/
structure Incoming (I : Type) where
  conn : Conn I
  clientFd : Int
  clientAddr : InAddr

/-- The next thing the UI thread does. -/
inductive UiPc (I : Type) where
  /-- `fgets`. -/
  | idle
  /-- The lock before the duplicate test. -/
  | lockTest (cmd : Command I)
  | test (cmd : Command I)
  | connect (cmd : Command I)
  | read (h : Outgoing I)
  | write (h : Outgoing I) (serverPort : Int)
  /-- The lock before the entry. -/
  | lock (h : Outgoing I) (serverPort : Int)
  | append (h : Outgoing I) (serverPort : Int)

/-- The next thing the accept thread does. -/
inductive AcceptPc (I : Type) where
  | accept
  | write (h : Incoming I)
  | read (h : Incoming I)
  | lock (h : Incoming I) (clientPort : Int)
  | append (h : Incoming I) (clientPort : Int)

inductive Thread where
  | ui
  | accept
  | chat
  deriving DecidableEq

/-- The processes and where they can be reached. -/
structure Net (I : Type) where
  port : I → Port
  /-- Who listens at an address, as a process sees it. -/
  route : I → InAddr → Port → Option I
  /-- How many messages a channel holds. -/
  capacity : Nat
  capacity_pos : 0 < capacity

structure State (I : Type) where
  ui : I → UiPc I
  accept : I → AcceptPc I
  mutex : I → Option Thread
  clients : I → List ClientInfo
  /-- The connections `accept` has not returned yet. -/
  backlog : I → List (Conn I)
  /-- How many connections each process has made. -/
  made : I → Nat
  server : Conn I → I
  toClient : Conn I → List (List Byte)
  toServer : Conn I → List (List Byte)

inductive Act (I : Type) where
  /-- The user types `connect`. -/
  | command (i : I) (garbage : InAddr) (ipAddr portStr : List Byte)
  /-- The UI thread goes on; `socket` returns `fd`. -/
  | ui (i : I) (fd : Int)
  /-- The accept thread goes on; `accept` returns `fd` and `addr`. -/
  | accept (i : I) (fd : Int) (addr : InAddr)
  | chatLock (i : I)
  /-- The section of a chat thread: it looks for its entry, or removes it. -/
  | chat (i : I) (removed : Option Int)

/-- An entry is appended, and the process at the other end. -/
structure Appended (I : Type) where
  info : ClientInfo
  other : I

variable {I : Type}

/-- `server_getPort()` of a process. -/
def Net.getPort (net : Net I) (i : I) : Port := serverGetPort (bound (net.port i))

def Net.target (net : Net I) (i : I) (dest : Peer) : Option I :=
  (inetPton dest.1).bind fun addr => net.route i addr (BitVec.ofInt 16 dest.2)

def start : State I where
  ui _ := .idle
  accept _ := .accept
  mutex _ := none
  clients _ := []
  backlog _ := []
  made _ := 0
  server c := c.client
  toClient _ := []
  toServer _ := []

variable [DecidableEq I]

namespace State

def setUi (s : State I) (i : I) (pc : UiPc I) : State I :=
  { s with ui := Function.update s.ui i pc }

def setAccept (s : State I) (i : I) (pc : AcceptPc I) : State I :=
  { s with accept := Function.update s.accept i pc }

def setMutex (s : State I) (i : I) (owner : Option Thread) : State I :=
  { s with mutex := Function.update s.mutex i owner }

def setClients (s : State I) (i : I) (clients : List ClientInfo) : State I :=
  { s with clients := Function.update s.clients i clients }

def setBacklog (s : State I) (i : I) (conns : List (Conn I)) : State I :=
  { s with backlog := Function.update s.backlog i conns }

def setToClient (s : State I) (c : Conn I) (msgs : List (List Byte)) : State I :=
  { s with toClient := Function.update s.toClient c msgs }

def setToServer (s : State I) (c : Conn I) (msgs : List (List Byte)) : State I :=
  { s with toServer := Function.update s.toServer c msgs }

/-- The next connection of `i`, to `j`. -/
def nextConn (s : State I) (i : I) : Conn I := ⟨i, s.made i⟩

/-- `connect` returns. -/
def establish (s : State I) (i j : I) : State I :=
  { s.setBacklog j (s.backlog j ++ [s.nextConn i]) with
    made := Function.update s.made i (s.made i + 1)
    server := Function.update s.server (s.nextConn i) j }

end State

/-- The entry, when there is room, and the end of the section. -/
def appendStep (s : State I) (i : I) (info : ClientInfo) (other : I) :
    State I × List (Appended I) :=
  match appendClient (s.clients i) info with
  | some clients => ((s.setClients i clients).setMutex i none, [⟨info, other⟩])
  | none => (s.setMutex i none, [])

/-- `client_socketStart` and the test before it. -/
def uiStep (net : Net I) (s : State I) (i : I) (fd : Int) :
    Option (State I × List (Appended I)) :=
  match s.ui i with
  | .idle => none
  | .lockTest cmd =>
    if s.mutex i = none then some ((s.setMutex i (some .ui)).setUi i (.test cmd), []) else none
  | .test cmd =>
    some ((s.setMutex i none).setUi i
      (if isDuplicate (s.clients i) cmd.dest.2 then .idle else .connect cmd), [])
  | .connect cmd =>
    if (s.backlog cmd.server).length < listenBacklog then
      some ((s.establish i cmd.server).setUi i (.read ⟨s.nextConn i, fd, cmd.dest.1⟩), [])
    else none
  | .read h =>
    match s.toClient h.conn with
    | [] => none
    | msg :: msgs =>
      ((chatReceiveMessage (.data msg)).bind sscanfPort).map fun serverPort =>
        ((s.setToClient h.conn msgs).setUi i (.write h serverPort), [])
  | .write h serverPort =>
    if (s.toServer h.conn).length < net.capacity then
      some ((s.setToServer h.conn (s.toServer h.conn ++ [portMsg (net.getPort i)])).setUi i
        (.lock h serverPort), [])
    else none
  | .lock h serverPort =>
    if s.mutex i = none then
      some ((s.setMutex i (some .ui)).setUi i (.append h serverPort), [])
    else none
  | .append h serverPort =>
    let (t, os) := appendStep s i ⟨h.sockFd, h.serverIp, serverPort⟩ (s.server h.conn)
    some (t.setUi i .idle, os)

/-- `connection_thread` and `server_startClientThread`. -/
def acceptStep (net : Net I) (s : State I) (i : I) (fd : Int) (addr : InAddr) :
    Option (State I × List (Appended I)) :=
  match s.accept i with
  | .accept =>
    match s.backlog i with
    | [] => none
    | c :: conns => some ((s.setBacklog i conns).setAccept i (.write ⟨c, fd, addr⟩), [])
  | .write h =>
    if (s.toClient h.conn).length < net.capacity then
      some ((s.setToClient h.conn (s.toClient h.conn ++ [portMsg (net.getPort i)])).setAccept i
        (.read h), [])
    else none
  | .read h =>
    match s.toServer h.conn with
    | [] => none
    | msg :: msgs =>
      ((chatReceiveMessage (.data msg)).bind sscanfPort).map fun clientPort =>
        ((s.setToServer h.conn msgs).setAccept i (.lock h clientPort), [])
  | .lock h clientPort =>
    if s.mutex i = none then
      some ((s.setMutex i (some .accept)).setAccept i (.append h clientPort), [])
    else none
  | .append h clientPort =>
    let (t, os) := appendStep s i ⟨h.clientFd, inetNtop h.clientAddr, clientPort⟩ h.conn.client
    some (t.setAccept i .accept, os)

def step (net : Net I) (s : State I) : Act I → Option (State I × List (Appended I))
  | .command i garbage ipAddr portStr =>
    match s.ui i, net.target i (ipAddr, atoi portStr) with
    | .idle, some j =>
      if SelfTest (net.port i) garbage ipAddr portStr then some (s, [])
      else some (s.setUi i (.lockTest ⟨(ipAddr, atoi portStr), j⟩), [])
    -- a connect to nobody fails
    | _, _ => none
  | .ui i fd => uiStep net s i fd
  | .accept i fd addr => acceptStep net s i fd addr
  | .chatLock i => if s.mutex i = none then some (s.setMutex i (some .chat), []) else none
  | .chat i removed =>
    if s.mutex i = some .chat then
      let clients := (removed.map (removeClient (s.clients i))).getD (s.clients i)
      some ((s.setClients i clients).setMutex i none, [])
    else none

/-- A handshake is not over at one of its ends. -/
def Unfinished (s : State I) : Prop :=
  (∃ i, s.ui i ≠ .idle) ∨ (∃ i, s.accept i ≠ .accept) ∨ ∃ i, s.backlog i ≠ []

/-- Neither a new command nor a chat thread that starts on something. -/
def Act.Continues : Act I → Prop
  | .ui _ _ | .accept _ _ _ | .chat _ _ => True
  | .command _ _ _ _ | .chatLock _ => False

end Network
end Chat
end LinuxEmbedded
