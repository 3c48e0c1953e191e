import LinuxEmbedded.Chat.Handshake

/-
What the receiving peer makes of the sender's byte stream.

The handshake text and the messages follow each other without a length or a
delimiter, and each `read` is taken for one of them.
-/
namespace LinuxEmbedded
namespace Chat
namespace Stream

open Framing (Byte)

/-- The argument of `send` and `strlen(msg) <= MSG_SIZE`. -/
def Sendable (m : List Byte) : Prop :=
  m ≠ [] ∧ m.length ≤ msgSize ∧ nul ∉ m ∧ m ≠ terminateMsg

instance (m : List Byte) : Decidable (Sendable m) := inferInstanceAs (Decidable (_ ∧ _))

abbrev UserMessage := { m : List Byte // Sendable m }

/-- What one `read` into the buffer of `chat_receiveMessage` returns. -/
abbrev Chunk := { bytes : List Byte // bytes ≠ [] ∧ bytes.length ≤ buffSize - 1 }

/-- A read of `ui_run`, and the table at the lookup after it. -/
structure Read where
  chunk : Chunk
  clients : List ClientInfo

def Read.bytes (r : Read) : List Byte := r.chunk.1

/-- Which end of the connection receives. -/
inductive Role where
  | accepted (clientAddr : InAddr)
  | connected (serverIp : List Byte) (portNum : Int) (addr : InAddr)
    (parsed : inetPton serverIp = some addr)

def Role.ipAddr : Role → List Byte
  | .accepted clientAddr => inetNtop clientAddr
  | .connected serverIp _ _ _ => serverIp

/-- The handshake of the receiver, in which nothing fails but what it reads. -/
def Role.handshake (role : Role) (clients : List ClientInfo) (fd : Int) (received : ReadResult) :
    After :=
  match role with
  | .accepted clientAddr => serverStartClientThread clients fd clientAddr .written received .ok
  | .connected serverIp portNum _ _ =>
    clientSocketStart clients serverIp portNum fun _ _ => ⟨some fd, true, received, .written, .ok⟩

/-- All that the sender writes. -/
def sentBytes (port : Port) (ms : List UserMessage) (terminate : Bool) : List Byte :=
  portMsg port ++ (ms.map (·.1)).flatten ++ if terminate then terminateMsg else []

def run (fd : Int) (reads : List Read) : List Shown × UiEnd :=
  uiRun fd (reads.map fun r => (.data r.bytes, r.clients))

/-- The port is recorded, each message is shown as it was sent, and a `TERMINATE` ends
the connection. -/
def Delivered (role : Role) (clients : List ClientInfo) (fd : Int) (port : Port)
    (ms : List UserMessage) (terminate : Bool) (first : Chunk) (later : List Read) : Prop :=
  role.handshake clients fd (.data first.1) =
      .chatting (clients ++ [⟨fd, role.ipAddr, port.toNat⟩]) ∧
    (run fd later).1.map Shown.message = ms.map (·.1) ∧
    (terminate = true → (run fd later).2 = .terminated)

/-- Each read returns exactly what one `write` wrote. -/
def Aligned (port : Port) (ms : List UserMessage) (terminate : Bool) (first : Chunk)
    (later : List Read) : Prop :=
  first.1 = portMsg port ∧
    later.map Read.bytes = ms.map (·.1) ++ if terminate then [terminateMsg] else []

/-! ## One read -/

theorem handshake_eq (role : Role) (clients : List ClientInfo) (fd : Int)
    (received : ReadResult) : role.handshake clients fd received =
      match (chatReceiveMessage received).bind sscanfPort with
      | none => .exited clients
      | some port => startChat clients ⟨fd, role.ipAddr, port⟩ .ok := by
  cases role with
  | accepted clientAddr =>
    show serverStartClientThread clients fd clientAddr .written received .ok = _
    unfold serverStartClientThread
    cases chatReceiveMessage received with
    | none => rfl
    | some buffer =>
      simp only [Option.bind_some]
      cases sscanfPort buffer <;> rfl
  | connected serverIp portNum addr parsed =>
    simp only [Role.handshake, clientSocketStart, parsed]
    cases chatReceiveMessage received with
    | none => rfl
    | some buffer =>
      simp only [Option.bind_some]
      cases sscanfPort buffer <;> rfl

/-- The handshake records `port` if and only if `sscanf` finds it and the table has
room. -/
theorem handshake_records_iff {role : Role} {clients : List ClientInfo} {fd : Int} {port : Port}
    {bytes : List Byte} (hne : bytes ≠ []) (hnul : nul ∉ bytes) :
    role.handshake clients fd (.data bytes) =
        .chatting (clients ++ [⟨fd, role.ipAddr, port.toNat⟩]) ↔
      sscanfPort bytes = some port.toNat ∧ clients.length < maxClients := by
  rw [handshake_eq, chatReceiveMessage_chunk hne hnul, Option.bind_some]
  cases hscan : sscanfPort bytes with
  | none => simp [After.exited, After.chatting]
  | some v =>
    by_cases hroom : clients.length < maxClients
    · simp [startChat, appendClient, hroom, ThreadCalls.ok, After.chatting]
    · simp [startChat, appendClient, hroom, After.closed, After.chatting]

/-- A part of the port is another port. -/
theorem sscanfPort_of_cut {port : Port} {bytes more : List Byte} (h : bytes ++ more = portMsg port)
    (hmore : more ≠ []) : sscanfPort bytes ≠ some port.toNat := by
  intro hscan
  have hword : portWord.isPrefixOf bytes = true := by
    unfold sscanfPort at hscan
    split at hscan
    · assumption
    · cases hscan
  obtain ⟨rest, rfl⟩ := List.isPrefixOf_iff_prefix.mp hword
  rw [portMsg_eq, List.append_assoc] at h
  have hrest : rest ++ more = space :: Decimal.text port.toNat := List.append_cancel_left h
  cases rest with
  | nil => cases hscan
  | cons b ds =>
    obtain ⟨rfl, hds⟩ := List.cons.inj hrest
    by_cases hne : ds = []
    · subst hne
      cases hscan
    · have hdigits : ∀ b ∈ ds, Decimal.isDigit b = true := by
        intro b hb
        refine Decimal.text_digits (n := port.toNat) ?_
        rw [← hds]
        exact List.mem_append_left _ hb
      have hvalue := Decimal.value_lt_of_append hds.symm hne hmore
      have hread := @sscanfPort_digits ds [] hdigits hne (by simp)
      have hlt : port.toNat < 2 ^ 16 := port.isLt
      rw [List.append_nil, cInt_of_small (by omega), hscan] at hread
      have hsame := Int.ofNat.inj (Option.some.inj hread)
      omega

/-! ## The reads of `ui_run` -/

/-- The connection is in the table when the read looks it up. -/
def Read.Known (fd : Int) (r : Read) : Prop := (peerInfo r.clients fd).isSome = true

theorem run_cons {fd : Int} {r : Read} {later : List Read} (hnul : nul ∉ r.bytes) :
    run fd (r :: later) =
      match peerInfo r.clients fd with
      | none => ([], .unknownPeer)
      | some peer =>
        if r.bytes = terminateMsg then ([], .terminated)
        else
          (⟨peer.ipAddr, peer.listeningPort, r.bytes⟩ :: (run fd later).1, (run fd later).2) := by
  have hread : chatReceiveMessage (.data r.bytes) = some r.bytes :=
    chatReceiveMessage_chunk r.chunk.2.1 hnul
  show uiRun fd ((.data r.bytes, r.clients) :: _) = _
  rw [uiRun, hread]
  rfl

/-- Reads that are shown. -/
theorem run_append {fd : Int} {seen later : List Read}
    (hseen : ∀ r ∈ seen, nul ∉ r.bytes ∧ r.Known fd ∧ r.bytes ≠ terminateMsg) :
    (run fd (seen ++ later)).1.map Shown.message =
        seen.map Read.bytes ++ (run fd later).1.map Shown.message ∧
      (run fd (seen ++ later)).2 = (run fd later).2 := by
  induction seen with
  | nil => exact ⟨rfl, rfl⟩
  | cons r seen ih =>
    obtain ⟨hnul, hknown, hmsg⟩ := hseen r List.mem_cons_self
    obtain ⟨hshown, hend⟩ := ih fun x hx => hseen x (List.mem_cons_of_mem _ hx)
    obtain ⟨peer, hpeer⟩ := Option.isSome_iff_exists.mp hknown
    rw [List.cons_append, run_cons hnul, hpeer]
    simp only [if_neg hmsg, List.map_cons]
    rw [hshown, hend]
    exact ⟨rfl, rfl⟩

/-- What `ui_run` shows is the reads up to the one it stops at. -/
theorem run_split {fd : Int} {later : List Read} (hnul : ∀ r ∈ later, nul ∉ r.bytes) :
    ∃ seen rest, later = seen ++ rest ∧
      (run fd later).1.map Shown.message = seen.map Read.bytes ∧
      (∀ r ∈ seen, r.Known fd) ∧
      ((run fd later).2 = .terminated → ∃ r rest', rest = r :: rest' ∧ r.Known fd ∧
        r.bytes = terminateMsg) := by
  induction later with
  | nil =>
    refine ⟨[], [], rfl, rfl, by simp, ?_⟩
    intro h
    cases h
  | cons r later ih =>
    obtain ⟨seen, rest, hsplit, hshown, hknown, hend⟩ :=
      ih fun x hx => hnul x (List.mem_cons_of_mem _ hx)
    rw [run_cons (hnul r List.mem_cons_self)]
    cases hpeer : peerInfo r.clients fd with
    | none =>
      refine ⟨[], r :: later, rfl, rfl, by simp, ?_⟩
      intro h
      cases h
    | some peer =>
      have hr : r.Known fd := by
        rw [Read.Known, hpeer]
        rfl
      by_cases hmsg : r.bytes = terminateMsg
      · simp only [if_pos hmsg]
        exact ⟨[], r :: later, rfl, rfl, by simp, fun _ => ⟨r, later, rfl, hr, hmsg⟩⟩
      · simp only [if_neg hmsg, List.map_cons]
        refine ⟨r :: seen, rest, by rw [hsplit]; rfl, by rw [hshown]; rfl, ?_, hend⟩
        intro x hx
        rcases List.mem_cons.mp hx with rfl | hx
        · exact hr
        · exact hknown x hx

/-! ## The whole stream -/

section Whole

variable {role : Role} {clients : List ClientInfo} {fd : Int} {port : Port}
  {ms : List UserMessage} {terminate : Bool} {first : Chunk} {later : List Read}

theorem nul_not_mem_sent (port : Port) (ms : List UserMessage) (terminate : Bool) :
    nul ∉ sentBytes port ms terminate := by
  have hms : nul ∉ (ms.map (·.1)).flatten := by
    intro h
    obtain ⟨m, hm, hnul⟩ := List.mem_flatten.mp h
    obtain ⟨m, _, rfl⟩ := List.mem_map.mp hm
    exact m.2.2.2.1 hnul
  have hlast : nul ∉ if terminate then terminateMsg else [] := by
    cases terminate <;> decide
  intro h
  rcases List.mem_append.mp h with h | h
  · rcases List.mem_append.mp h with h | h
    · exact nul_not_mem_portMsg port h
    · exact hms h
  · exact hlast h

theorem shown_of_aligned (hnul : ∀ r ∈ later, nul ∉ r.bytes) (hknown : ∀ r ∈ later, r.Known fd)
    (hlater : later.map Read.bytes =
      ms.map (·.1) ++ if terminate then [terminateMsg] else []) :
    (run fd later).1.map Shown.message = ms.map (·.1) ∧
      (terminate = true → (run fd later).2 = .terminated) := by
  obtain ⟨seen, rest, rfl, hseen, hrest⟩ := List.map_eq_append_iff.mp hlater
  have hall : ∀ r ∈ seen, nul ∉ r.bytes ∧ r.Known fd ∧ r.bytes ≠ terminateMsg := by
    intro r hr
    refine ⟨hnul r (List.mem_append_left _ hr), hknown r (List.mem_append_left _ hr), ?_⟩
    have hm : r.bytes ∈ ms.map (·.1) := by
      rw [← hseen]
      exact List.mem_map_of_mem hr
    obtain ⟨m, _, hm⟩ := List.mem_map.mp hm
    rw [← hm]
    exact m.2.2.2.2
  obtain ⟨hshown, hend⟩ := @run_append fd seen rest hall
  rw [hshown, hend, hseen]
  cases terminate with
  | false =>
    have hnil : rest = [] := List.map_eq_nil_iff.mp hrest
    subst hnil
    refine ⟨List.append_nil _, ?_⟩
    intro h
    cases h
  | true =>
    obtain ⟨r, rfl, hr⟩ := List.map_eq_singleton_iff.mp hrest
    obtain ⟨peer, hpeer⟩ := Option.isSome_iff_exists.mp (hknown r (by simp))
    rw [run_cons (hnul r (by simp)), hpeer]
    simp [hr]

theorem delivered_of_aligned (hnul : ∀ r ∈ later, nul ∉ r.bytes) (hfirst : nul ∉ first.1)
    (hroom : clients.length < maxClients) (haligned : Aligned port ms terminate first later)
    (hknown : ∀ r ∈ later, r.Known fd) :
    Delivered role clients fd port ms terminate first later := by
  refine ⟨(handshake_records_iff first.2.1 hfirst).mpr ⟨?_, hroom⟩,
    shown_of_aligned hnul hknown haligned.2⟩
  rw [haligned.1]
  exact sscanfPort_portMsg port

/-- A first read that gives the port, when all of `kept` is read after it, is the
handshake text, and nothing else is read. -/
theorem first_of_cut {kept more : List Byte} (hscan : sscanfPort first.1 = some port.toNat)
    (hcut : first.1 ++ (kept ++ more) = portMsg port ++ kept) :
    first.1 = portMsg port ∧ more = [] := by
  have hlen := congrArg List.length hcut
  simp only [List.length_append] at hlen
  have hpre : first.1 <+: portMsg port :=
    List.prefix_of_prefix_length_le ⟨_, hcut⟩ (List.prefix_append ..) (by omega)
  obtain ⟨rest, hrest⟩ := hpre
  by_cases hnil : rest = []
  · subst hnil
    rw [List.append_nil] at hrest
    refine ⟨hrest, List.eq_nil_of_length_eq_zero ?_⟩
    rw [hrest] at hlen
    omega
  · exact absurd hscan (sscanfPort_of_cut hrest hnil)

theorem eq_nil_of_flatten {reads : List Read} (h : (reads.map Read.bytes).flatten = []) :
    reads = [] := by
  cases reads with
  | nil => rfl
  | cons r reads =>
    have hr : r.bytes = [] := List.flatten_eq_nil_iff.mp h _ (by simp)
    exact absurd hr r.chunk.2.1

theorem aligned_of_delivered (hnul : ∀ r ∈ later, nul ∉ r.bytes) (hfirst : nul ∉ first.1)
    (hcut : first.1 ++ (later.map Read.bytes).flatten = sentBytes port ms terminate)
    (h : Delivered role clients fd port ms terminate first later) :
    clients.length < maxClients ∧ Aligned port ms terminate first later ∧
      ∀ r ∈ later, r.Known fd := by
  obtain ⟨hrecords, hshown, hend⟩ := h
  obtain ⟨hscan, hroom⟩ := (handshake_records_iff first.2.1 hfirst).mp hrecords
  obtain ⟨seen, rest, rfl, hseen, hknown, hlast⟩ := @run_split fd _ hnul
  rw [hseen] at hshown
  rw [List.map_append, List.flatten_append, hshown] at hcut
  cases terminate with
  | false =>
    simp only [sentBytes, Bool.false_eq_true, if_false, List.append_nil] at hcut
    obtain ⟨hport, hmore⟩ := first_of_cut hscan hcut
    have hrest := eq_nil_of_flatten hmore
    subst hrest
    rw [List.append_nil]
    exact ⟨hroom, ⟨hport, by simpa using hshown⟩, hknown⟩
  | true =>
    obtain ⟨r, rest, rfl, hr, hmsg⟩ := hlast (hend rfl)
    have hlist : (ms.map (·.1)).flatten ++ ((r :: rest).map Read.bytes).flatten =
        ((ms.map (·.1)).flatten ++ terminateMsg) ++ (rest.map Read.bytes).flatten := by
      simp [hmsg]
    rw [hlist, sentBytes, if_pos rfl, List.append_assoc (portMsg port)] at hcut
    obtain ⟨hport, hmore⟩ := first_of_cut hscan hcut
    have hrest := eq_nil_of_flatten hmore
    subst hrest
    refine ⟨hroom, ⟨hport, by simp [hshown, hmsg]⟩, ?_⟩
    intro x hx
    rcases List.mem_append.mp hx with hx | hx
    · exact hknown x hx
    · rw [List.mem_singleton.mp hx]
      exact hr

/-- The peer receives what was sent if and only if its table has room, keeps the
connection, and each read returns what one `write` wrote. -/
theorem delivered_iff_aligned
    (hcut : first.1 ++ (later.map Read.bytes).flatten = sentBytes port ms terminate) :
    Delivered role clients fd port ms terminate first later ↔
      clients.length < maxClients ∧ Aligned port ms terminate first later ∧
        ∀ r ∈ later, r.Known fd := by
  have hsent := nul_not_mem_sent port ms terminate
  rw [← hcut] at hsent
  have hfirst : nul ∉ first.1 := fun h => hsent (List.mem_append_left _ h)
  have hnul : ∀ r ∈ later, nul ∉ r.bytes := fun r hr h =>
    hsent (List.mem_append_right _ (List.mem_flatten_of_mem (List.mem_map_of_mem hr) h))
  constructor
  · exact aligned_of_delivered hnul hfirst hcut
  · rintro ⟨hroom, haligned, hknown⟩
    exact delivered_of_aligned hnul hfirst hroom haligned hknown

end Whole

/-- The table of the peer with the connection in it. -/
def oneClient : List ClientInfo := [⟨4, inetNtop ⟨127, 0, 0, 1⟩, 5000⟩]

/-- `PORT 5000`, `hi` and `TERMINATE`, one read each. -/
theorem delivered_iff_aligned_one_message :
    Delivered (.accepted ⟨127, 0, 0, 1⟩) [] 4 5000 [⟨[104, 105], by decide⟩] true
      ⟨portMsg 5000, by decide⟩
      [⟨⟨[104, 105], by decide⟩, oneClient⟩, ⟨⟨terminateMsg, by decide⟩, oneClient⟩] := by
  refine (delivered_iff_aligned (by decide)).mpr ⟨by decide, ⟨rfl, rfl⟩, ?_⟩
  intro r hr
  rcases List.mem_cons.mp hr with rfl | hr
  · rfl
  · rw [List.mem_singleton.mp hr]
    rfl

/-- The message `1` arrives with the handshake text: the peer records port 50001 and
shows nothing. -/
theorem message_taken_for_port :
    ∃ (first : Chunk) (m : UserMessage), first.1 ++ ([].map Read.bytes).flatten =
        sentBytes 5000 [m] false ∧
      ((Role.accepted ⟨127, 0, 0, 1⟩).handshake [] 4 (.data first.1)).clients =
        [⟨4, inetNtop ⟨127, 0, 0, 1⟩, 50001⟩] ∧
      ¬Delivered (.accepted ⟨127, 0, 0, 1⟩) [] 4 5000 [m] false first [] := by
  refine ⟨⟨portMsg 5000 ++ [49], by decide⟩, ⟨[49], by decide⟩, by decide, by decide, ?_⟩
  intro h
  cases h.2.1

end Stream
end Chat
end LinuxEmbedded
