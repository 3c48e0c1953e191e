import LinuxEmbedded.Chat.Handshake

/-
What a failed attempt to connect does to the process.

Nearly every failure ends in `handle_error`, which is `exit`, and with it every
other conversation ends.
-/
namespace LinuxEmbedded
namespace Chat

open Framing (Byte)

/-- The `connect` command.  When `inet_pton` fails the address compared is whatever
was in `addr`. -/
def connectCommand (sockname : Sockname) (garbage : InAddr) (clients : List ClientInfo)
    (ipAddr portStr : List Byte) (net : InAddr → Port → ConnectCalls) : After :=
  let portNum := atoi portStr
  let addr := (inetPton ipAddr).getD garbage
  if serverGetServerAddr sockname = addr ∧ ((serverGetPort sockname).toNat : Int) = portNum then
    .closed clients
  else if isDuplicate clients portNum then .closed clients
  else clientSocketStart clients ipAddr portNum net

/-- An attempt, with all the environment answers. -/
inductive Attempt where
  | incoming (clientFd : Int) (clientAddr : InAddr) (sent : WriteResult) (received : ReadResult)
    (thread : ThreadCalls)
  | outgoing (sockname : Sockname) (garbage : InAddr) (ipAddr portStr : List Byte)
    (net : InAddr → Port → ConnectCalls)

def Attempt.after (clients : List ClientInfo) : Attempt → After
  | .incoming clientFd clientAddr sent received thread =>
    serverStartClientThread clients clientFd clientAddr sent received thread
  | .outgoing sockname garbage ipAddr portStr net =>
    connectCommand sockname garbage clients ipAddr portStr net

/-- `PORT p` with `1 <= p <= 65535`. -/
def GoodHandshake (received : ReadResult) : Prop :=
  ∃ port : Port, port ≠ 0 ∧ received = .data (portMsg port)

/-- The other side closes or sends something else, or cannot be reached. -/
def Attempt.Failing : Attempt → Prop
  | .incoming _ _ sent received _ => sent ≠ .written ∨ ¬GoodHandshake received
  | .outgoing _ _ ipAddr portStr net =>
    ∀ addr, inetPton ipAddr = some addr →
      let calls := net addr (BitVec.ofInt 16 (atoi portStr))
      calls.socket = none ∨ calls.connected = false ∨ calls.sent ≠ .written ∨
        ¬GoodHandshake calls.received

/-- The process runs on, the socket of the attempt is closed, and the table is as it
was. -/
def After.Isolated (clients : List ClientInfo) (after : After) : Prop :=
  after.running = true ∧ after.socketOpen = false ∧ after.clients = clients

/-- `sscanf` finds a number in what has been read. -/
def Accepted (received : ReadResult) : Prop :=
  ((chatReceiveMessage received).bind sscanfPort).isSome = true

/-- The attempt is turned down before it has called anything, or it comes to the end of
the handshake and finds the table full. -/
def Attempt.TurnedDown (clients : List ClientInfo) : Attempt → Prop
  | .incoming _ _ sent received _ =>
    sent = .written ∧ Accepted received ∧ maxClients ≤ clients.length
  | .outgoing sockname garbage ipAddr portStr net =>
    (serverGetServerAddr sockname = (inetPton ipAddr).getD garbage ∧
      ((serverGetPort sockname).toNat : Int) = atoi portStr) ∨
    isDuplicate clients (atoi portStr) = true ∨
    ∃ addr, inetPton ipAddr = some addr ∧
      let calls := net addr (BitVec.ofInt 16 (atoi portStr))
      calls.socket.isSome = true ∧ calls.connected = true ∧ Accepted calls.received ∧
        calls.sent = .written ∧ maxClients ≤ clients.length

theorem not_isolated_exited (clients clients' : List ClientInfo) :
    ¬(After.exited clients').Isolated clients := by
  intro h
  cases h.1

theorem isolated_closed (clients : List ClientInfo) : (After.closed clients).Isolated clients :=
  ⟨rfl, rfl, rfl⟩

theorem startChat_isolated_iff {clients : List ClientInfo} {info : ClientInfo}
    {thread : ThreadCalls} :
    (startChat clients info thread).Isolated clients ↔ maxClients ≤ clients.length := by
  by_cases hroom : clients.length < maxClients
  · have hnot : ¬maxClients ≤ clients.length := by omega
    simp only [startChat, appendClient, if_pos hroom, hnot, iff_false]
    split
    · intro h
      cases h.2.1
    · exact not_isolated_exited _ _
  · have hfull : maxClients ≤ clients.length := by omega
    simp only [startChat, appendClient, if_neg hroom, hfull, iff_true]
    exact isolated_closed clients

theorem serverStartClientThread_isolated_iff {clients : List ClientInfo} {clientFd : Int}
    {clientAddr : InAddr} {sent : WriteResult} {received : ReadResult} {thread : ThreadCalls} :
    (serverStartClientThread clients clientFd clientAddr sent received thread).Isolated clients ↔
      sent = .written ∧ Accepted received ∧ maxClients ≤ clients.length := by
  unfold serverStartClientThread Accepted
  cases sent with
  | failed => simpa using not_isolated_exited clients clients
  | killed => simpa using not_isolated_exited clients clients
  | written =>
    cases chatReceiveMessage received with
    | none => simpa using not_isolated_exited clients clients
    | some buffer =>
      simp only [Option.bind_some, true_and]
      cases sscanfPort buffer with
      | none => simpa using not_isolated_exited clients clients
      | some clientPort => simpa using startChat_isolated_iff

theorem clientSocketStart_isolated_iff {clients : List ClientInfo} {serverIp : List Byte}
    {portNum : Int} {net : InAddr → Port → ConnectCalls} :
    (clientSocketStart clients serverIp portNum net).Isolated clients ↔
      ∃ addr, inetPton serverIp = some addr ∧
        let calls := net addr (BitVec.ofInt 16 portNum)
        calls.socket.isSome = true ∧ calls.connected = true ∧ Accepted calls.received ∧
          calls.sent = .written ∧ maxClients ≤ clients.length := by
  unfold clientSocketStart Accepted
  cases inetPton serverIp with
  | none => simpa using not_isolated_exited clients clients
  | some addr =>
    simp only [Option.some.injEq, exists_eq_left']
    obtain ⟨socket, connected, received, sent, thread⟩ := net addr (BitVec.ofInt 16 portNum)
    cases socket with
    | none => simpa using not_isolated_exited clients clients
    | some sockFd =>
      cases connected with
      | false => simpa using not_isolated_exited clients clients
      | true =>
        cases chatReceiveMessage received with
        | none => simpa using not_isolated_exited clients clients
        | some buffer =>
          simp only [Option.bind_some]
          cases sscanfPort buffer with
          | none => simpa using not_isolated_exited clients clients
          | some serverPort =>
            cases sent with
            | written => simpa using startChat_isolated_iff
            | _ => simpa using not_isolated_exited clients clients

/-- Whatever the other side does, only an attempt that is turned down is isolated. -/
theorem isolated_iff_turnedDown (clients : List ClientInfo) (attempt : Attempt) :
    (attempt.after clients).Isolated clients ↔ attempt.TurnedDown clients := by
  cases attempt with
  | incoming clientFd clientAddr sent received thread =>
    exact serverStartClientThread_isolated_iff
  | outgoing sockname garbage ipAddr portStr net =>
    show (connectCommand sockname garbage clients ipAddr portStr net).Isolated clients ↔
      _ ∨ _ ∨ _
    rw [← clientSocketStart_isolated_iff]
    unfold connectCommand
    by_cases hself : serverGetServerAddr sockname = (inetPton ipAddr).getD garbage ∧
        ((serverGetPort sockname).toNat : Int) = atoi portStr
    · rw [if_pos hself]
      exact iff_of_true (isolated_closed clients) (Or.inl hself)
    · by_cases hduplicate : isDuplicate clients (atoi portStr) = true
      · rw [if_neg hself, if_pos hduplicate]
        exact iff_of_true (isolated_closed clients) (Or.inr (Or.inl hduplicate))
      · rw [if_neg hself, if_neg hduplicate]
        constructor
        · exact fun h => Or.inr (Or.inr h)
        · rintro (h | h | h)
          · exact absurd h hself
          · exact absurd h hduplicate
          · exact h

/-- A peer connects and closes before it has sent anything. -/
theorem incoming_close_exits :
    ∃ (clients : List ClientInfo) (attempt : Attempt), attempt.Failing ∧
      (attempt.after clients).running = false ∧ ¬(attempt.after clients).Isolated clients := by
  refine ⟨[⟨4, inetNtop ⟨127, 0, 0, 1⟩, 5000⟩], .incoming 5 ⟨127, 0, 0, 1⟩ .written .eof .ok,
    ?_, rfl, ?_⟩
  · refine Or.inr ?_
    rintro ⟨port, _, h⟩
    cases h
  · exact not_isolated_exited _ _

end Chat
end LinuxEmbedded
