import LinuxEmbedded.Chat.Attempts
import LinuxEmbedded.Lib.Machine
import Mathlib.Data.List.Nodup

/-
Who is in the table.

The `connect` command tests the table in one section and appends in another, and in
between the handshake runs.  An incoming connection is appended without a test.
-/
namespace LinuxEmbedded
namespace Chat
namespace Peers

open Framing (Byte)

/-- The address and the listening port of an entry. -/
abbrev Peer := List Byte × Int

def peer (info : ClientInfo) : Peer := (info.ipAddr, info.listeningPort)

structure State where
  running : Bool
  clients : List ClientInfo
  /-- The arguments of the `client_socketStart` the UI thread is in. -/
  connecting : Option Peer
  deriving DecidableEq

def start : State := ⟨true, [], none⟩

inductive Act where
  /-- The tests of the `connect` command. -/
  | connect (garbage : InAddr) (ipAddr portStr : List Byte)
  /-- The rest of the command, `client_socketStart`. -/
  | socketStart (net : InAddr → Port → ConnectCalls)
  | incoming (clientFd : Int) (clientAddr : InAddr) (sent : WriteResult)
    (received : ReadResult) (thread : ThreadCalls)
  /-- The end of a `chat_thread`. -/
  | leave (socketFd : Int)
  | terminate (id : Int)
  | exit

/-- A connect refused as a duplicate, and the table at the test. -/
structure Refusal where
  dest : Peer
  clients : List ClientInfo
  deriving DecidableEq

/-- What `getsockname` tells: the server is bound to `INADDR_ANY`. -/
def bound (port : Port) : Sockname := some (inaddrAny, port)

/-- `Self-connection not allowed`. -/
def SelfTest (port : Port) (garbage : InAddr) (ipAddr portStr : List Byte) : Prop :=
  serverGetServerAddr (bound port) = (inetPton ipAddr).getD garbage ∧
    ((serverGetPort (bound port)).toNat : Int) = atoi portStr

instance (port : Port) (garbage : InAddr) (ipAddr portStr : List Byte) :
    Decidable (SelfTest port garbage ipAddr portStr) :=
  inferInstanceAs (Decidable (_ ∧ _))

def State.became (s : State) (after : After) : State :=
  { s with running := after.running, clients := after.clients }

def step (port : Port) (s : State) : Act → Option (State × List Refusal)
  | .connect garbage ipAddr portStr =>
    if s.running = true ∧ s.connecting = none then
      let dest := (ipAddr, atoi portStr)
      if SelfTest port garbage ipAddr portStr then some (s, [])
      else if isDuplicate s.clients dest.2 then some (s, [⟨dest, s.clients⟩])
      else some ({ s with connecting := some dest }, [])
    else none
  | .socketStart net =>
    match s.running, s.connecting with
    | true, some (ipAddr, portNum) =>
      some ({ s with connecting := none }.became
        (clientSocketStart s.clients ipAddr portNum net), [])
    | _, _ => none
  | .incoming clientFd clientAddr sent received thread =>
    if s.running = true then
      some (s.became (serverStartClientThread s.clients clientFd clientAddr sent received thread),
        [])
    else none
  | .leave socketFd =>
    if s.running = true then some ({ s with clients := removeClient s.clients socketFd }, [])
    else none
  | .terminate id =>
    if s.running = true ∧ s.connecting = none then
      some ({ s with clients := ((terminateClient s.clients id).map Prod.snd).getD s.clients }, [])
    else none
  | .exit =>
    if s.running = true ∧ s.connecting = none then some (⟨false, [], none⟩, []) else none

/-- Without a section of another thread in between, the two parts are the command. -/
theorem step_connect (port : Port) (s : State) (hs : s.running = true ∧ s.connecting = none)
    (garbage : InAddr) (ipAddr portStr : List Byte) (net : InAddr → Port → ConnectCalls) :
    ∃ t os, step port s (.connect garbage ipAddr portStr) = some (t, os) ∧
      ((step port t (.socketStart net)).map Prod.fst).getD t =
        s.became
          (connectCommand (bound port) garbage s.clients ipAddr portStr net) := by
  obtain ⟨running, clients, connecting⟩ := s
  obtain ⟨rfl, rfl⟩ := hs
  have hcommand : connectCommand (bound port) garbage clients ipAddr portStr net =
      if SelfTest port garbage ipAddr portStr then .closed clients
      else if isDuplicate clients (atoi portStr) then .closed clients
      else clientSocketStart clients ipAddr (atoi portStr) net := rfl
  rw [hcommand]
  by_cases hself : SelfTest port garbage ipAddr portStr
  · refine ⟨⟨true, clients, none⟩, [], by simp [step, hself], ?_⟩
    rw [if_pos hself]
    rfl
  · by_cases hdup : isDuplicate clients (atoi portStr) = true
    · refine ⟨⟨true, clients, none⟩, [⟨(ipAddr, atoi portStr), clients⟩],
        by simp [step, hself, hdup], ?_⟩
      rw [if_neg hself, if_pos hdup]
      rfl
    · refine ⟨⟨true, clients, some (ipAddr, atoi portStr)⟩, [], by simp [step, hself, hdup], ?_⟩
      rw [if_neg hself, if_neg hdup]
      rfl

/-! ## The peers of a handshake -/

/-- The entry `client_socketStart` has for the table. -/
def outgoingPeer (dest : Peer) (net : InAddr → Port → ConnectCalls) : Option Peer := do
  let addr ← inetPton dest.1
  let calls := net addr (BitVec.ofInt 16 dest.2)
  let buffer ← chatReceiveMessage calls.received
  let serverPort ← sscanfPort buffer
  if calls.socket.isSome ∧ calls.connected = true ∧ calls.sent = .written then
    some (dest.1, serverPort)
  else none

/-- The entry `server_startClientThread` has for the table. -/
def incomingPeer (clientAddr : InAddr) (sent : WriteResult) (received : ReadResult) :
    Option Peer := do
  let buffer ← chatReceiveMessage received
  let clientPort ← sscanfPort buffer
  if sent = .written then some (inetNtop clientAddr, clientPort) else none

/-- The table after a handshake, `none` for one that fails. -/
def addPeer (peers : List Peer) (new : Option Peer) : List Peer :=
  match new with
  | some p => if peers.length < maxClients then peers ++ [p] else peers
  | none => peers

theorem startChat_peers (clients : List ClientInfo) (info : ClientInfo) (thread : ThreadCalls) :
    (startChat clients info thread).clients.map peer =
      addPeer (clients.map peer) (some (peer info)) := by
  by_cases hroom : clients.length < maxClients
  · simp only [startChat, appendClient, addPeer, List.length_map, if_pos hroom]
    split <;> exact List.map_append ..
  · simp only [startChat, appendClient, addPeer, List.length_map, if_neg hroom]
    rfl

theorem clientSocketStart_peers (clients : List ClientInfo) (dest : Peer)
    (net : InAddr → Port → ConnectCalls) :
    (clientSocketStart clients dest.1 dest.2 net).clients.map peer =
      addPeer (clients.map peer) (outgoingPeer dest net) := by
  unfold clientSocketStart outgoingPeer
  cases inetPton dest.1 with
  | none => rfl
  | some addr =>
    simp only [Option.bind_eq_bind, Option.bind_some]
    obtain ⟨socket, connected, received, sent, thread⟩ := net addr (BitVec.ofInt 16 dest.2)
    cases chatReceiveMessage received with
    | none =>
      cases socket <;> cases connected <;> rfl
    | some buffer =>
      simp only [Option.bind_some]
      cases sscanfPort buffer with
      | none =>
        cases socket <;> cases connected <;> rfl
      | some serverPort =>
        cases socket <;> cases connected <;> cases sent <;> first | rfl | exact startChat_peers ..

theorem serverStartClientThread_peers (clients : List ClientInfo) (clientFd : Int)
    (clientAddr : InAddr) (sent : WriteResult) (received : ReadResult) (thread : ThreadCalls) :
    (serverStartClientThread clients clientFd clientAddr sent received thread).clients.map peer =
      addPeer (clients.map peer) (incomingPeer clientAddr sent received) := by
  unfold serverStartClientThread incomingPeer
  cases chatReceiveMessage received with
  | none => cases sent <;> rfl
  | some buffer =>
    simp only [Option.bind_eq_bind, Option.bind_some]
    cases sscanfPort buffer with
    | none => cases sent <;> rfl
    | some clientPort =>
      cases sent with
      | written => exact startChat_peers ..
      | _ => rfl

/-! ## Uniqueness -/

section Unique

variable (port : Port) (host : InAddr → Bool)

/-- The process listens on `port`, and is reached at the addresses of `host`. -/
def Itself (p : Peer) : Prop :=
  (inetPton p.1).any host = true ∧ p.2 = (serverGetPort (bound port)).toNat

instance (p : Peer) : Decidable (Itself port host p) := inferInstanceAs (Decidable (_ ∧ _))

def Distinct (peers : List Peer) : Prop := peers.Nodup ∧ ∀ p ∈ peers, ¬Itself port host p

/-- The table at the test has an entry for the destination. -/
def Refusal.Justified (r : Refusal) : Prop := r.dest ∈ r.clients.map peer

/-- No peer twice, nor the process itself, and no connect refused by mistake. -/
def Correct (os : List Refusal) (s : State) : Prop :=
  Distinct port host (s.clients.map peer) ∧ ∀ r ∈ os, r.Justified

/-- The number in a `PORT` message. -/
def portIn (received : ReadResult) : Option Int := (chatReceiveMessage received).bind sscanfPort

/-- A connect that gets past the self-connection test is not to this process, and no entry of
another address has the port number typed; the server that answers has that port number;
and who connects from outside is not this process, has no entry, and is not the
destination of a connect in progress. -/
def Plain (s : State) : Act → Prop
  | .connect garbage ipAddr portStr =>
    ¬SelfTest port garbage ipAddr portStr → ¬Itself port host (ipAddr, atoi portStr) ∧
      ∀ p ∈ s.clients.map peer, p.2 = atoi portStr → p.1 = ipAddr
  | .socketStart net =>
    ∀ dest ∈ s.connecting, ∀ addr ∈ inetPton dest.1,
      ∀ n ∈ portIn (net addr (BitVec.ofInt 16 dest.2)).received, n = dest.2
  | .incoming _ clientAddr _ received _ =>
    ∀ n ∈ portIn received, ¬Itself port host (inetNtop clientAddr, n) ∧
      (inetNtop clientAddr, n) ∉ s.clients.map peer ∧
      s.connecting ≠ some (inetNtop clientAddr, n)
  | .leave _ | .terminate _ | .exit => True

instance (s : State) : (a : Act) → Decidable (Plain port host s a)
  | .connect _ _ _ => inferInstanceAs (Decidable (_ → _ ∧ _))
  | .socketStart net =>
    inferInstanceAs (Decidable (∀ dest ∈ s.connecting, ∀ addr ∈ inetPton dest.1,
      ∀ n ∈ portIn (net addr (BitVec.ofInt 16 dest.2)).received, n = dest.2))
  | .incoming _ clientAddr _ received _ =>
    inferInstanceAs (Decidable (∀ n ∈ portIn received,
      ¬Itself port host (inetNtop clientAddr, n) ∧
        (inetNtop clientAddr, n) ∉ s.clients.map peer ∧
        s.connecting ≠ some (inetNtop clientAddr, n)))
  | .leave _ | .terminate _ | .exit => isTrue trivial

/-- A peer that would add to the table is another one than this process and those in it. -/
def Addable (peers : List Peer) (p : Peer) : Prop := p ∉ peers ∧ ¬Itself port host p

/-- The destination of a connect in progress is still as good as at its tests. -/
structure Kept (os : List Refusal) (s : State) : Prop where
  correct : Correct port host os s
  connecting : ∀ dest ∈ s.connecting, Addable port host (s.clients.map peer) dest

variable {port : Port} {host : InAddr → Bool}

theorem Distinct.add {peers : List Peer} (h : Distinct port host peers) {new : Option Peer}
    (hnew : ∀ p ∈ new, Addable port host peers p) : Distinct port host (addPeer peers new) := by
  cases new with
  | none => exact h
  | some q =>
    obtain ⟨hnotin, hother⟩ := hnew q rfl
    by_cases hroom : peers.length < maxClients
    · have hadd : addPeer peers (some q) = peers ++ [q] := if_pos hroom
      rw [hadd, Distinct, ← List.concat_eq_append, List.nodup_concat]
      refine ⟨⟨hnotin, h.1⟩, ?_⟩
      intro p hp
      rw [List.concat_eq_append, List.mem_append, List.mem_singleton] at hp
      rcases hp with hp | rfl
      · exact h.2 p hp
      · exact hother
    · have hadd : addPeer peers (some q) = peers := if_neg hroom
      rw [hadd]
      exact h

theorem mem_addPeer {peers : List Peer} {new : Option Peer} {p : Peer}
    (h : p ∈ addPeer peers new) : p ∈ peers ∨ p ∈ new := by
  cases new with
  | none => exact Or.inl h
  | some q =>
    unfold addPeer at h
    simp only at h
    split at h
    · rcases List.mem_append.mp h with h | h
      · exact Or.inl h
      · rw [List.mem_singleton.mp h]
        exact Or.inr rfl
    · exact Or.inl h

theorem Distinct.sublist {peers peers' : List Peer} (h : Distinct port host peers)
    (hsub : peers'.Sublist peers) : Distinct port host peers' :=
  ⟨h.1.sublist hsub, fun p hp => h.2 p (hsub.subset hp)⟩

theorem terminated_sublist (clients : List ClientInfo) (id : Int) :
    (((terminateClient clients id).map Prod.snd).getD clients).Sublist clients := by
  cases hterminate : terminateClient clients id with
  | none => exact List.Sublist.refl _
  | some p => exact terminateClient_sublist hterminate

/-- The entry of a connect is the destination with the number that the server sent. -/
theorem mem_outgoingPeer {dest p : Peer} {net : InAddr → Port → ConnectCalls}
    (h : p ∈ outgoingPeer dest net) :
    ∃ addr ∈ inetPton dest.1, ∃ n ∈ portIn (net addr (BitVec.ofInt 16 dest.2)).received,
      p = (dest.1, n) := by
  obtain ⟨addr, haddr, h⟩ := Option.bind_eq_some_iff.mp h
  obtain ⟨buffer, hbuffer, h⟩ := Option.bind_eq_some_iff.mp h
  obtain ⟨n, hn, h⟩ := Option.bind_eq_some_iff.mp h
  obtain ⟨_, h⟩ := Option.ite_none_right_eq_some.mp h
  exact ⟨addr, haddr, n, Option.bind_eq_some_iff.mpr ⟨buffer, hbuffer, hn⟩,
    (Option.some.inj h).symm⟩

theorem mem_incomingPeer {clientAddr : InAddr} {sent : WriteResult} {received : ReadResult}
    {p : Peer} (h : p ∈ incomingPeer clientAddr sent received) :
    ∃ n ∈ portIn received, p = (inetNtop clientAddr, n) := by
  obtain ⟨buffer, hbuffer, h⟩ := Option.bind_eq_some_iff.mp h
  obtain ⟨n, hn, h⟩ := Option.bind_eq_some_iff.mp h
  obtain ⟨_, h⟩ := Option.ite_none_right_eq_some.mp h
  exact ⟨n, Option.bind_eq_some_iff.mpr ⟨buffer, hbuffer, hn⟩, (Option.some.inj h).symm⟩

/-- A removal, or a command that leaves the table. -/
theorem Kept.fewer {os : List Refusal} {s t : State} (h : Kept port host os s)
    (hsub : t.clients.Sublist s.clients) (hconnecting : ∀ dest ∈ t.connecting,
      dest ∈ s.connecting) : Kept port host (os ++ []) t := by
  rw [List.append_nil]
  refine ⟨⟨h.correct.1.sublist (hsub.map peer), h.correct.2⟩, ?_⟩
  intro dest hdest
  obtain ⟨hnew, hother⟩ := h.connecting dest (hconnecting dest hdest)
  exact ⟨fun hmem => hnew ((hsub.map peer).subset hmem), hother⟩

/-- The tests of a connect. -/
theorem Kept.connect {os os' : List Refusal} {s t : State} {garbage : InAddr}
    {ipAddr portStr : List Byte} (h : Kept port host os s)
    (hplain : Plain port host s (.connect garbage ipAddr portStr))
    (ht : step port s (.connect garbage ipAddr portStr) = some (t, os')) :
    Kept port host (os ++ os') t := by
  obtain ⟨⟨_, hidle⟩, ht⟩ := Option.ite_none_right_eq_some.mp ht
  by_cases hself : SelfTest port garbage ipAddr portStr
  · rw [if_pos hself] at ht
    obtain ⟨rfl, rfl⟩ := Prod.mk.inj (Option.some.inj ht)
    exact h.fewer (List.Sublist.refl _) fun _ hdest => hdest
  · rw [if_neg hself] at ht
    obtain ⟨hother, honly⟩ := hplain hself
    by_cases hdup : isDuplicate s.clients (atoi portStr) = true
    · -- the entry with the port number is that of the destination
      rw [if_pos hdup] at ht
      obtain ⟨rfl, rfl⟩ := Prod.mk.inj (Option.some.inj ht)
      obtain ⟨entry, hentry, hport⟩ := List.any_eq_true.mp hdup
      have hmem := List.mem_map_of_mem (f := peer) hentry
      have hentryPort : (peer entry).2 = atoi portStr := by simpa [peer] using hport
      have hsame : peer entry = (ipAddr, atoi portStr) :=
        Prod.ext (honly _ hmem hentryPort) hentryPort
      refine ⟨⟨h.correct.1, ?_⟩, h.connecting⟩
      intro r hr
      rcases List.mem_append.mp hr with hr | hr
      · exact h.correct.2 r hr
      · rw [List.mem_singleton.mp hr]
        exact hsame ▸ hmem
    · rw [if_neg hdup] at ht
      obtain ⟨rfl, rfl⟩ := Prod.mk.inj (Option.some.inj ht)
      rw [List.append_nil]
      refine ⟨h.correct, ?_⟩
      intro dest hdest
      obtain rfl := Option.some.inj hdest
      refine ⟨?_, hother⟩
      intro hmem
      obtain ⟨entry, hentry, hpeer⟩ := List.mem_map.mp hmem
      have hport : entry.listeningPort = atoi portStr := congrArg Prod.snd hpeer
      exact hdup (List.any_eq_true.mpr ⟨entry, hentry, by simp [hport]⟩)

theorem Kept.step {os os' : List Refusal} {s t : State} {a : Act} (h : Kept port host os s)
    (hplain : Plain port host s a) (ht : Peers.step port s a = some (t, os')) :
    Kept port host (os ++ os') t := by
  cases a with
  | connect garbage ipAddr portStr => exact h.connect hplain ht
  | socketStart net =>
    simp only [Peers.step] at ht
    split at ht
    · rename_i ipAddr portNum _ hconnecting
      obtain ⟨rfl, rfl⟩ := Prod.mk.inj (Option.some.inj ht)
      have hdest : (ipAddr, portNum) ∈ s.connecting := hconnecting
      have hpeers := clientSocketStart_peers s.clients (ipAddr, portNum) net
      have hadd : ∀ p ∈ outgoingPeer (ipAddr, portNum) net,
          Addable port host (s.clients.map peer) p := by
        intro p hp
        obtain ⟨addr, haddr, n, hn, rfl⟩ := mem_outgoingPeer hp
        obtain rfl : n = portNum := hplain _ hdest addr haddr n hn
        exact h.connecting _ hdest
      rw [List.append_nil]
      refine ⟨⟨?_, h.correct.2⟩, fun _ hnone => nomatch hnone⟩
      show Distinct port host ((clientSocketStart s.clients ipAddr portNum net).clients.map peer)
      rw [hpeers]
      exact h.correct.1.add hadd
    · cases ht
  | incoming clientFd clientAddr sent received thread =>
    obtain ⟨_, ht⟩ := Option.ite_none_right_eq_some.mp ht
    obtain ⟨rfl, rfl⟩ := Prod.mk.inj (Option.some.inj ht)
    have hpeers := serverStartClientThread_peers s.clients clientFd clientAddr sent received thread
    have hadd : ∀ p ∈ incomingPeer clientAddr sent received,
        Addable port host (s.clients.map peer) p ∧ s.connecting ≠ some p := by
      intro p hp
      obtain ⟨n, hn, rfl⟩ := mem_incomingPeer hp
      obtain ⟨hother, hnew, hapart⟩ := hplain n hn
      exact ⟨⟨hnew, hother⟩, hapart⟩
    rw [List.append_nil]
    refine ⟨⟨?_, h.correct.2⟩, ?_⟩
    · show Distinct port host ((serverStartClientThread _ _ _ _ _ _).clients.map peer)
      rw [hpeers]
      exact h.correct.1.add fun p hp => (hadd p hp).1
    · intro dest hdest
      obtain ⟨hnew, hother⟩ := h.connecting dest hdest
      refine ⟨?_, hother⟩
      show dest ∉ (serverStartClientThread _ _ _ _ _ _).clients.map peer
      rw [hpeers]
      intro hmem
      rcases mem_addPeer hmem with hmem | hmem
      · exact hnew hmem
      · exact (hadd dest hmem).2 hdest
  | leave socketFd =>
    obtain ⟨_, ht⟩ := Option.ite_none_right_eq_some.mp ht
    obtain ⟨rfl, rfl⟩ := Prod.mk.inj (Option.some.inj ht)
    exact h.fewer List.eraseP_sublist fun _ hdest => hdest
  | terminate id =>
    obtain ⟨_, ht⟩ := Option.ite_none_right_eq_some.mp ht
    obtain ⟨rfl, rfl⟩ := Prod.mk.inj (Option.some.inj ht)
    exact h.fewer (terminated_sublist s.clients id) fun _ hdest => hdest
  | exit =>
    obtain ⟨_, ht⟩ := Option.ite_none_right_eq_some.mp ht
    obtain ⟨rfl, rfl⟩ := Prod.mk.inj (Option.some.inj ht)
    exact h.fewer (List.nil_sublist _) fun _ hnone => nomatch hnone

/-- In a run whose connects and incoming connections are plain no peer is in the table
twice, the process itself is not in it, and no connect is refused by mistake. -/
theorem correct_of_plain {as : List Act} {s : State} {os : List Refusal}
    (hplain : Machine.Meets (step port) (Plain port host) start as)
    (hrun : Machine.run (step port) start as = some (s, os)) : Correct port host os s := by
  have hstart : Kept port host [] start :=
    ⟨⟨⟨List.nodup_nil, by simp [start]⟩, by simp⟩, fun _ hnone => nomatch hnone⟩
  exact (Machine.meets_induction (P := Kept port host) hstart
    (fun _ _ _ _ _ h hplain ht => h.step hplain ht) hplain hrun).correct

/-- What a server that listens on `port` answers. -/
def answer (fd : Int) (port : Port) : ConnectCalls :=
  ⟨some fd, true, .data (portMsg port), .written, .ok⟩

/-- A connect, another peer that comes in before it is through, and the same connect once
more. -/
def connectTwice : List Act :=
  [.connect inaddrAny (inetNtop ⟨10, 0, 0, 7⟩) (Decimal.text 5000),
    .incoming 5 ⟨10, 0, 0, 8⟩ .written (.data (portMsg 5001)) .ok,
    .socketStart fun _ _ => answer 4 5000,
    .connect inaddrAny (inetNtop ⟨10, 0, 0, 7⟩) (Decimal.text 5000)]

theorem correct_of_plain_connectTwice :
    ∃ s os, Machine.run (step 6000) start connectTwice = some (s, os) ∧
      s.clients.map peer = [(inetNtop ⟨10, 0, 0, 8⟩, 5001), (inetNtop ⟨10, 0, 0, 7⟩, 5000)] ∧
      os.map Refusal.dest = [(inetNtop ⟨10, 0, 0, 7⟩, 5000)] ∧
      Correct 6000 (fun a => a.a = 127) os s := by
  have hmap : (Machine.run (step 6000) start connectTwice).map
        (fun q => (q.1.clients.map peer, q.2.map Refusal.dest)) =
      some ([(inetNtop ⟨10, 0, 0, 8⟩, 5001), (inetNtop ⟨10, 0, 0, 7⟩, 5000)],
        [(inetNtop ⟨10, 0, 0, 7⟩, 5000)]) := by
    decide +kernel
  obtain ⟨⟨s, os⟩, hrun, heq⟩ := Option.map_eq_some_iff.mp hmap
  obtain ⟨hpeers, hrefused⟩ := Prod.mk.inj heq
  exact ⟨s, os, hrun, hpeers, hrefused, correct_of_plain (by decide +kernel) hrun⟩

/-- A process connects to itself at `127.0.0.1`: two entries for one peer, and that is
the process.  Another host on the same port is then refused. -/
theorem connects_to_itself :
    ∃ s os, Machine.run (step 6000) start
        [.connect inaddrAny (inetNtop ⟨127, 0, 0, 1⟩) (Decimal.text 6000),
          .socketStart fun _ _ => answer 4 6000,
          .incoming 5 ⟨127, 0, 0, 1⟩ .written (.data (portMsg 6000)) .ok,
          .connect inaddrAny (inetNtop ⟨10, 0, 0, 7⟩) (Decimal.text 6000)] = some (s, os) ∧
      ¬(s.clients.map peer).Nodup ∧
      (∃ p ∈ s.clients.map peer, Itself 6000 (fun a => a.a = 127) p) ∧
      ∃ r ∈ os, ¬r.Justified := by
  have hmap : (Machine.run (step 6000) start
      [.connect inaddrAny (inetNtop ⟨127, 0, 0, 1⟩) (Decimal.text 6000),
        .socketStart fun _ _ => answer 4 6000,
        .incoming 5 ⟨127, 0, 0, 1⟩ .written (.data (portMsg 6000)) .ok,
        .connect inaddrAny (inetNtop ⟨10, 0, 0, 7⟩) (Decimal.text 6000)]).map
        (fun q => (q.1.clients, q.2)) =
      some ([⟨4, inetNtop ⟨127, 0, 0, 1⟩, 6000⟩, ⟨5, inetNtop ⟨127, 0, 0, 1⟩, 6000⟩],
        [⟨(inetNtop ⟨10, 0, 0, 7⟩, 6000),
          [⟨4, inetNtop ⟨127, 0, 0, 1⟩, 6000⟩, ⟨5, inetNtop ⟨127, 0, 0, 1⟩, 6000⟩]⟩]) := by
    decide +kernel
  obtain ⟨⟨s, os⟩, hrun, heq⟩ := Option.map_eq_some_iff.mp hmap
  obtain ⟨hclients, hevents⟩ := Prod.mk.inj heq
  have hclients : s.clients = _ := hclients
  have hevents : os = _ := hevents
  refine ⟨s, os, hrun, ?_, ?_, ?_⟩
  · rw [hclients]
    decide +kernel
  · rw [hclients]
    exact ⟨(inetNtop ⟨127, 0, 0, 1⟩, 6000), List.mem_cons_self, by decide +kernel⟩
  · rw [hevents]
    refine ⟨_, List.mem_singleton_self _, ?_⟩
    show ¬_ ∈ _
    decide +kernel

end Unique

end Peers
end Chat
end LinuxEmbedded
