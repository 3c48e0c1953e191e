import LinuxEmbedded.Chat.Common
import Mathlib.Data.List.TakeWhile
import Mathlib.Data.Int.DivMod
import Mathlib.Algebra.Group.Int.Defs

/-
Messages and handshakes, `chat.c`, `server_socket.c` and `client_socket.c`.

Each function is written over what its calls into the kernel and the library
return.
-/
namespace LinuxEmbedded
namespace Chat

open Framing (Byte)

/-- What `read` returns. -/
inductive ReadResult where
  | data (bytes : List Byte)
  | eof
  | error
  deriving DecidableEq, Repr

/-- What `write` does: the process may be killed by `SIGPIPE`. -/
inductive WriteResult where
  | written
  | failed
  | killed
  deriving DecidableEq, Repr

def nul : Byte := 0

/-- The C string at the start of a buffer. -/
def cString (buffer : List Byte) : List Byte := buffer.takeWhile fun b => b != nul

/-- `chat_receiveMessage`: the string in the buffer when it returns more than 0. -/
def chatReceiveMessage : ReadResult → Option (List Byte)
  | .data [] => none
  | .data bytes => some (cString bytes)
  | .eof | .error => none

/-! ## `"PORT %d"` -/

/-- `"PORT"`. -/
def portWord : List Byte := [80, 79, 82, 84]

def space : Byte := 32

/-- `snprintf(port_msg, sizeof(port_msg), "PORT %d", server_getPort())`. -/
def portMsg (port : Port) : List Byte :=
  (portWord ++ space :: Decimal.text port.toNat).take (portMsgSize - 1)

/-- `isspace`. -/
def isSpace (b : Byte) : Bool := b == space || (9 ≤ b.toNat && b.toNat ≤ 13)

/-- The `int` that `%d` and `atoi` make of a numeral: `strtol` stops at the bounds of
`long`, and the rest is cut off. -/
def cInt (v : Int) : Int := (max (-2 ^ 63) (min v (2 ^ 63 - 1))).bmod (2 ^ 32)

/-- `%d`, from the sign on. -/
def scanInt (text : List Byte) : Option Int :=
  let (negative, rest) : Bool × List Byte :=
    match text with
    | [] => (false, [])
    | b :: rest => if b = 45 then (true, rest) else if b = 43 then (false, rest) else (false, text)
  let digits := rest.takeWhile Decimal.isDigit
  if digits = [] then none
  else some (cInt (if negative then -(Decimal.value digits : Int) else Decimal.value digits))

/-- `sscanf(buffer, "PORT %d", &port)`, when it returns 1. -/
def sscanfPort (buffer : List Byte) : Option Int :=
  if portWord.isPrefixOf buffer then
    scanInt ((buffer.drop portWord.length).dropWhile isSpace)
  else none

/-- `atoi`. -/
def atoi (text : List Byte) : Int := (scanInt (text.dropWhile isSpace)).getD 0

/-! ## The handshakes -/

/-- `getsockname` of `server_fd`. -/
abbrev Sockname := Option (InAddr × Port)

def serverGetServerAddr (sockname : Sockname) : InAddr := (sockname.map Prod.fst).getD inaddrAny

def serverGetPort (sockname : Sockname) : Port := (sockname.map Prod.snd).getD 0

structure ThreadCalls where
  malloc : Bool
  create : Bool
  deriving DecidableEq, Repr

def ThreadCalls.ok : ThreadCalls := ⟨true, true⟩

/-- How an attempt to connect leaves the process. -/
structure After where
  running : Bool
  /-- The socket of the attempt is open. -/
  socketOpen : Bool
  clients : List ClientInfo
  deriving DecidableEq, Repr

/-- `exit(EXIT_FAILURE)`, or killed. -/
def After.exited (clients : List ClientInfo) : After := ⟨false, false, clients⟩

def After.closed (clients : List ClientInfo) : After := ⟨true, false, clients⟩

/-- With a `chat_thread` for the connection. -/
def After.chatting (clients : List ClientInfo) : After := ⟨true, true, clients⟩

/-- The end of both handshakes: the entry and the thread. -/
def startChat (clients : List ClientInfo) (info : ClientInfo) (thread : ThreadCalls) : After :=
  match appendClient clients info with
  | none => .closed clients
  | some clients =>
    if thread.malloc && thread.create then .chatting clients else .exited clients

/-- `server_startClientThread`. -/
def serverStartClientThread (clients : List ClientInfo) (clientFd : Int) (clientAddr : InAddr)
    (sent : WriteResult) (received : ReadResult) (thread : ThreadCalls) : After :=
  match sent with
  | .failed | .killed => .exited clients
  | .written =>
    match chatReceiveMessage received with
    | none => .exited clients
    | some buffer =>
      match sscanfPort buffer with
      | none => .exited clients
      | some clientPort =>
        startChat clients ⟨clientFd, inetNtop clientAddr, clientPort⟩ thread

/-- What the calls of `client_socketStart` return for one destination. -/
structure ConnectCalls where
  socket : Option Int
  connected : Bool
  received : ReadResult
  sent : WriteResult
  thread : ThreadCalls
  deriving DecidableEq, Repr

/-- `client_socketStart`; `net` answers for each destination. -/
def clientSocketStart (clients : List ClientInfo) (serverIp : List Byte) (portNum : Int)
    (net : InAddr → Port → ConnectCalls) : After :=
  match inetPton serverIp with
  | none => .exited clients
  | some addr =>
    -- `htons` cuts the number to 16 bits
    let calls := net addr (BitVec.ofInt 16 portNum)
    match calls.socket with
    | none => .exited clients
    | some sockFd =>
      if !calls.connected then .exited clients
      else
        match chatReceiveMessage calls.received with
        | none => .exited clients
        | some buffer =>
          match sscanfPort buffer with
          | none => .exited clients
          | some serverPort =>
            match calls.sent with
            | .failed | .killed => .exited clients
            | .written => startChat clients ⟨sockFd, serverIp, serverPort⟩ calls.thread

/-! ## `ui_run` -/

inductive UiEnd where
  /-- Blocked in `read`. -/
  | reading
  | closed
  | unknownPeer
  | terminated
  deriving DecidableEq, Repr

/-- A message on the screen. -/
structure Shown where
  peerIp : List Byte
  listeningPort : Int
  message : List Byte
  deriving DecidableEq, Repr

/-- `"TERMINATE"`. -/
def terminateMsg : List Byte := [84, 69, 82, 77, 73, 78, 65, 84, 69]

/-- `ui_run` over its reads, each with the table it finds when it has locked. -/
def uiRun (socketFd : Int) : List (ReadResult × List ClientInfo) → List Shown × UiEnd
  | [] => ([], .reading)
  | (received, clients) :: reads =>
    match chatReceiveMessage received with
    | none => ([], .closed)
    | some buffer =>
      match peerInfo clients socketFd with
      | none => ([], .unknownPeer)
      | some peer =>
        if buffer = terminateMsg then ([], .terminated)
        else
          let (shown, ending) := uiRun socketFd reads
          (⟨peer.ipAddr, peer.listeningPort, buffer⟩ :: shown, ending)

/-! ## The text of a port -/

theorem portMsg_eq (port : Port) :
    portMsg port = portWord ++ space :: Decimal.text port.toNat := by
  have hlen : (Decimal.text port.toNat).length ≤ 4 + 1 := by
    refine Decimal.text_length_le ?_
    have hlt := port.isLt
    omega
  refine List.take_of_length_le ?_
  simp only [portWord, portMsgSize, List.length_append, List.length_cons, List.length_nil]
  omega

theorem cInt_of_small {n : Nat} (hn : n < 2 ^ 31) : cInt n = n := by
  have hclamp : max (-2 ^ 63 : Int) (min (n : Int) (2 ^ 63 - 1)) = n := by omega
  rw [cInt, hclamp]
  exact Int.bmod_eq_of_le (by omega) (by omega)

theorem isDigit_not_space {b : Byte} (hb : Decimal.isDigit b = true) : isSpace b = false := by
  simp only [Decimal.isDigit, decide_eq_true_eq] at hb
  have hspace : b ≠ space := by
    rintro rfl
    have h : space.toNat = 32 := rfl
    omega
  have hlow : ¬b.toNat ≤ 13 := by omega
  simp [isSpace, hspace, hlow]

theorem scanInt_digits {digits rest : List Byte}
    (hdigits : ∀ b ∈ digits, Decimal.isDigit b = true) (hne : digits ≠ [])
    (hrest : ∀ b ∈ rest.head?, Decimal.isDigit b = false) :
    scanInt (digits ++ rest) = some (cInt (Decimal.value digits)) := by
  have htake : (digits ++ rest).takeWhile Decimal.isDigit = digits := by
    rw [List.takeWhile_append_of_pos hdigits]
    cases rest with
    | nil => rw [List.takeWhile_nil, List.append_nil]
    | cons b rest =>
      rw [List.takeWhile_cons_of_neg (by simp [hrest b rfl]), List.append_nil]
  cases digits with
  | nil => exact absurd rfl hne
  | cons d ds =>
    have hd := hdigits d List.mem_cons_self
    simp only [Decimal.isDigit, decide_eq_true_eq] at hd
    have hminus : d ≠ 45 := by
      rintro rfl
      have h : (45 : Byte).toNat = 45 := rfl
      omega
    have hplus : d ≠ 43 := by
      rintro rfl
      have h : (43 : Byte).toNat = 43 := rfl
      omega
    rw [List.cons_append] at htake ⊢
    simp only [scanInt, if_neg hminus, if_neg hplus, htake, if_neg hne]
    rfl

/-- What `sscanf` makes of `PORT `, digits, and what follows them. -/
theorem sscanfPort_digits {digits rest : List Byte}
    (hdigits : ∀ b ∈ digits, Decimal.isDigit b = true) (hne : digits ≠ [])
    (hrest : ∀ b ∈ rest.head?, Decimal.isDigit b = false) :
    sscanfPort (portWord ++ space :: (digits ++ rest)) = some (cInt (Decimal.value digits)) := by
  have hword : portWord.isPrefixOf (portWord ++ space :: (digits ++ rest)) = true :=
    List.isPrefixOf_iff_prefix.mpr (List.prefix_append ..)
  have hskip : (space :: (digits ++ rest)).dropWhile isSpace = digits ++ rest := by
    rw [List.dropWhile_cons_of_pos (by rfl)]
    cases digits with
    | nil => exact absurd rfl hne
    | cons d ds =>
      have hd := isDigit_not_space (hdigits d List.mem_cons_self)
      rw [List.cons_append, List.dropWhile_cons_of_neg (by simp [hd])]
  rw [sscanfPort, if_pos hword, List.drop_left, hskip]
  exact scanInt_digits hdigits hne hrest

/-- A port survives the handshake. -/
theorem sscanfPort_portMsg (port : Port) : sscanfPort (portMsg port) = some port.toNat := by
  have hscan := @sscanfPort_digits _ [] (fun _ => Decimal.text_digits)
    (Decimal.text_ne_nil port.toNat) (by simp)
  have hlt : port.toNat < 2 ^ 16 := port.isLt
  have hint : cInt port.toNat = port.toNat := cInt_of_small (by omega)
  rw [List.append_nil, Decimal.value_text, ← portMsg_eq, hint] at hscan
  exact hscan

theorem chatReceiveMessage_chunk {bytes : List Byte} (hne : bytes ≠ []) (hnul : nul ∉ bytes) :
    chatReceiveMessage (.data bytes) = some bytes := by
  have hstring : cString bytes = bytes := by
    refine List.takeWhile_eq_self_iff.mpr ?_
    intro b hb
    simp only [bne_iff_ne, ne_eq]
    rintro rfl
    exact hnul hb
  cases bytes with
  | nil => exact absurd rfl hne
  | cons b bytes =>
    show some (cString (b :: bytes)) = _
    rw [hstring]

theorem nul_not_mem_portMsg (port : Port) : nul ∉ portMsg port := by
  rw [portMsg_eq]
  intro h
  rcases List.mem_append.mp h with h | h
  · revert h
    decide
  · rcases List.mem_cons.mp h with h | h
    · cases h
    · have hdigit := Decimal.text_digits h
      cases hdigit

/-- What one end reads of the message of the other. -/
theorem receive_portMsg (port : Port) :
    (chatReceiveMessage (.data (portMsg port))).bind sscanfPort = some (port.toNat : Int) := by
  have hne : portMsg port ≠ [] := by
    rw [portMsg_eq]
    simp [portWord]
  rw [chatReceiveMessage_chunk hne (nul_not_mem_portMsg port), Option.bind_some]
  exact sscanfPort_portMsg port

end Chat
end LinuxEmbedded
