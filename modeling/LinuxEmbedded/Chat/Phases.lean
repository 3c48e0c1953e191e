import LinuxEmbedded.Chat.Network

/-
The phases of a handshake.

A handshake goes through seven phases in one order, whatever the other processes
do.  What the two threads, the backlog of the server and the two channels have of
a connection is a function of its phase.
-/
namespace LinuxEmbedded
namespace Chat
namespace Network

open Framing (Byte)

/-- What a thread is about to do on a connection. -/
inductive Stage where
  | away
  | read
  | write
  deriving DecidableEq

/-- What there is of a connection. -/
structure View where
  made : Bool
  queued : Nat
  server : Stage
  client : Stage
  toClient : List (List Byte)
  toServer : List (List Byte)

inductive Phase where
  | unmade
  /-- In the backlog. -/
  | waiting
  | greeting
  | greeted
  | answering
  | answered
  | over

def Phase.view (serverMsg clientMsg : List Byte) : Phase → View
  | .unmade => ⟨false, 0, .away, .away, [], []⟩
  | .waiting => ⟨true, 1, .away, .read, [], []⟩
  | .greeting => ⟨true, 0, .write, .read, [], []⟩
  | .greeted => ⟨true, 0, .read, .read, [serverMsg], []⟩
  | .answering => ⟨true, 0, .read, .write, [], []⟩
  | .answered => ⟨true, 0, .read, .away, [], [clientMsg]⟩
  | .over => ⟨true, 0, .away, .away, [], []⟩

section Views

variable {serverMsg clientMsg : List Byte} {φ : Phase} {v : View}

theorem View.unmade (h : v = φ.view serverMsg clientMsg) (hmade : v.made = false) :
    v = Phase.unmade.view serverMsg clientMsg := by
  subst h
  cases φ <;> first | rfl | cases hmade

theorem View.waiting (h : v = φ.view serverMsg clientMsg) (hqueued : 0 < v.queued) :
    v = Phase.waiting.view serverMsg clientMsg := by
  subst h
  cases φ <;> first | rfl | cases hqueued

theorem View.greeting (h : v = φ.view serverMsg clientMsg) (hserver : v.server = .write) :
    v = Phase.greeting.view serverMsg clientMsg := by
  subst h
  cases φ <;> first | rfl | cases hserver

theorem View.greeted (h : v = φ.view serverMsg clientMsg) (hmsgs : v.toClient ≠ []) :
    v = Phase.greeted.view serverMsg clientMsg := by
  subst h
  cases φ <;> first | rfl | exact absurd rfl hmsgs

theorem View.answering (h : v = φ.view serverMsg clientMsg) (hclient : v.client = .write) :
    v = Phase.answering.view serverMsg clientMsg := by
  subst h
  cases φ <;> first | rfl | cases hclient

theorem View.answered (h : v = φ.view serverMsg clientMsg) (hmsgs : v.toServer ≠ []) :
    v = Phase.answered.view serverMsg clientMsg := by
  subst h
  cases φ <;> first | rfl | exact absurd rfl hmsgs

/-- The client waits for the number of the server. -/
theorem View.client_read (h : v = φ.view serverMsg clientMsg) (hclient : v.client = .read) :
    0 < v.queued ∨ v.server = .write ∨ v.toClient ≠ [] := by
  subst h
  cases φ <;> simp_all [Phase.view]

/-- The server waits for the number of the client. -/
theorem View.server_read (h : v = φ.view serverMsg clientMsg) (hserver : v.server = .read) :
    v.toClient ≠ [] ∨ v.client = .write ∨ v.toServer ≠ [] := by
  subst h
  cases φ <;> simp_all [Phase.view]

end Views

/-! ## The view of a state -/

variable {I : Type}

def UiPc.conn? : UiPc I → Option (Conn I)
  | .read h | .write h _ | .lock h _ | .append h _ => some h.conn
  | .idle | .lockTest _ | .test _ | .connect _ => none

def AcceptPc.conn? : AcceptPc I → Option (Conn I)
  | .write h | .read h | .lock h _ | .append h _ => some h.conn
  | .accept => none

/-- The connection and the number that has been read from it. -/
def UiPc.learned : UiPc I → Option (Conn I × Int)
  | .write h serverPort | .lock h serverPort | .append h serverPort => some (h.conn, serverPort)
  | .idle | .lockTest _ | .test _ | .connect _ | .read _ => none

def AcceptPc.learned : AcceptPc I → Option (Conn I × Int)
  | .lock h clientPort | .append h clientPort => some (h.conn, clientPort)
  | .accept | .write _ | .read _ => none

variable [DecidableEq I]

def UiPc.stage (c : Conn I) : UiPc I → Stage
  | .read h => if h.conn = c then .read else .away
  | .write h _ => if h.conn = c then .write else .away
  | .idle | .lockTest _ | .test _ | .connect _ | .lock _ _ | .append _ _ => .away

def AcceptPc.stage (c : Conn I) : AcceptPc I → Stage
  | .write h => if h.conn = c then .write else .away
  | .read h => if h.conn = c then .read else .away
  | .accept | .lock _ _ | .append _ _ => .away

def view (s : State I) (c : Conn I) : View where
  made := c.number.blt (s.made c.client)
  queued := (s.backlog (s.server c)).count c
  server := (s.accept (s.server c)).stage c
  client := (s.ui c.client).stage c
  toClient := s.toClient c
  toServer := s.toServer c

/-- The connection is in one of the phases. -/
def Phased (net : Net I) (s : State I) (c : Conn I) : Prop :=
  ∃ φ : Phase, view s c = φ.view (portMsg (net.getPort (s.server c)))
    (portMsg (net.getPort c.client))

section Updates

variable (s : State I) (c : Conn I)

theorem view_setUi (i : I) (pc : UiPc I) :
    view (s.setUi i pc) c =
      { view s c with client := if c.client = i then pc.stage c else (s.ui c.client).stage c } := by
  by_cases hi : c.client = i
  · simp [view, State.setUi, hi]
  · simp [view, State.setUi, hi]

theorem view_setAccept (j : I) (pc : AcceptPc I) :
    view (s.setAccept j pc) c =
      { view s c with
        server := if s.server c = j then pc.stage c else (s.accept (s.server c)).stage c } := by
  by_cases hj : s.server c = j
  · simp [view, State.setAccept, hj]
  · simp [view, State.setAccept, hj]

theorem view_setBacklog (j : I) (conns : List (Conn I)) :
    view (s.setBacklog j conns) c =
      { view s c with
        queued := if s.server c = j then conns.count c else (s.backlog (s.server c)).count c } := by
  by_cases hj : s.server c = j
  · simp [view, State.setBacklog, hj]
  · simp [view, State.setBacklog, hj]

theorem view_setToClient (c' : Conn I) (msgs : List (List Byte)) :
    view (s.setToClient c' msgs) c =
      { view s c with toClient := if c = c' then msgs else s.toClient c } := by
  simp [view, State.setToClient, Function.update_apply]

theorem view_setToServer (c' : Conn I) (msgs : List (List Byte)) :
    view (s.setToServer c' msgs) c =
      { view s c with toServer := if c = c' then msgs else s.toServer c } := by
  simp [view, State.setToServer, Function.update_apply]

variable {s c}

theorem view_setUi_of_stage {i : I} {pc : UiPc I} (h : pc.stage c = (s.ui i).stage c) :
    view (s.setUi i pc) c = view s c := by
  rw [view_setUi]
  by_cases hi : c.client = i
  · rw [if_pos hi, h, ← hi]
    rfl
  · rw [if_neg hi]
    rfl

theorem view_setAccept_of_stage {j : I} {pc : AcceptPc I}
    (h : pc.stage c = (s.accept j).stage c) : view (s.setAccept j pc) c = view s c := by
  rw [view_setAccept]
  by_cases hj : s.server c = j
  · rw [if_pos hj, h, ← hj]
    rfl
  · rw [if_neg hj]
    rfl

theorem view_setBacklog_of_count {j : I} {conns : List (Conn I)}
    (h : conns.count c = (s.backlog j).count c) : view (s.setBacklog j conns) c = view s c := by
  rw [view_setBacklog]
  by_cases hj : s.server c = j
  · rw [if_pos hj, h, ← hj]
    rfl
  · rw [if_neg hj]
    rfl

theorem view_setToClient_of_ne {c' : Conn I} (hc : c ≠ c') (msgs : List (List Byte)) :
    view (s.setToClient c' msgs) c = view s c := by
  rw [view_setToClient, if_neg hc]
  rfl

theorem view_setToServer_of_ne {c' : Conn I} (hc : c ≠ c') (msgs : List (List Byte)) :
    view (s.setToServer c' msgs) c = view s c := by
  rw [view_setToServer, if_neg hc]
  rfl

end Updates

/-! ## What a step does to the handshakes -/

/-- The thread neither takes a new connection nor changes what it does on its own. -/
structure UiPc.Follows (old new : UiPc I) : Prop where
  stage : ∀ c, new.stage c = old.stage c
  conn : ∀ c, new.conn? = some c → old.conn? = some c
  learned : ∀ q, new.learned = some q → old.learned = some q

structure AcceptPc.Follows (old new : AcceptPc I) : Prop where
  stage : ∀ c, new.stage c = old.stage c
  conn : ∀ c, new.conn? = some c → old.conn? = some c
  learned : ∀ q, new.learned = some q → old.learned = some q

theorem UiPc.Follows.refl (pc : UiPc I) : pc.Follows pc := ⟨fun _ => rfl, fun _ => id, fun _ => id⟩

theorem AcceptPc.Follows.refl (pc : AcceptPc I) : pc.Follows pc :=
  ⟨fun _ => rfl, fun _ => id, fun _ => id⟩

/-- A thread that has left its connection. -/
theorem UiPc.Follows.of_none {old new : UiPc I} (hstage : ∀ c, new.stage c = old.stage c)
    (hconn : new.conn? = none) (hlearned : new.learned = none) : old.Follows new := by
  refine ⟨hstage, ?_, ?_⟩
  · intro c h
    rw [hconn] at h
    cases h
  · intro q h
    rw [hlearned] at h
    cases h

theorem AcceptPc.Follows.of_none {old new : AcceptPc I} (hstage : ∀ c, new.stage c = old.stage c)
    (hconn : new.conn? = none) (hlearned : new.learned = none) : old.Follows new := by
  refine ⟨hstage, ?_, ?_⟩
  · intro c h
    rw [hconn] at h
    cases h
  · intro q h
    rw [hlearned] at h
    cases h

/-- A step no handshake notices. -/
structure Quiet (s t : State I) : Prop where
  ui : ∀ i, (s.ui i).Follows (t.ui i)
  accept : ∀ i, (s.accept i).Follows (t.accept i)
  backlog : t.backlog = s.backlog
  made : t.made = s.made
  server : t.server = s.server
  toClient : t.toClient = s.toClient
  toServer : t.toServer = s.toServer

/-- The steps of the threads, as the handshakes see them. -/
inductive Moved (net : Net I) (s : State I) : State I → Prop where
  | quiet {t : State I} (h : Quiet s t) : Moved net s t
  | connected (i : I) (cmd : Command I) (fd : Int) (hpc : s.ui i = .connect cmd) :
    Moved net s ((s.establish i cmd.server).setUi i (.read ⟨s.nextConn i, fd, cmd.dest.1⟩))
  | accepted (j : I) (c : Conn I) (conns : List (Conn I)) (fd : Int) (addr : InAddr)
    (hpc : s.accept j = .accept) (hconns : s.backlog j = c :: conns) :
    Moved net s ((s.setBacklog j conns).setAccept j (.write ⟨c, fd, addr⟩))
  | greeted (j : I) (h : Incoming I) (hpc : s.accept j = .write h) :
    Moved net s ((s.setToClient h.conn (s.toClient h.conn ++
      [portMsg (net.getPort j)])).setAccept j (.read h))
  | learned (i : I) (h : Outgoing I) (msg : List Byte) (msgs : List (List Byte)) (p : Int)
    (hpc : s.ui i = .read h) (hmsgs : s.toClient h.conn = msg :: msgs)
    (hport : (chatReceiveMessage (.data msg)).bind sscanfPort = some p) :
    Moved net s ((s.setToClient h.conn msgs).setUi i (.write h p))
  | answered (i : I) (h : Outgoing I) (p : Int) (hpc : s.ui i = .write h p) :
    Moved net s ((s.setToServer h.conn (s.toServer h.conn ++
      [portMsg (net.getPort i)])).setUi i (.lock h p))
  | finished (j : I) (h : Incoming I) (msg : List Byte) (msgs : List (List Byte)) (p : Int)
    (hpc : s.accept j = .read h) (hmsgs : s.toServer h.conn = msg :: msgs)
    (hport : (chatReceiveMessage (.data msg)).bind sscanfPort = some p) :
    Moved net s ((s.setToServer h.conn msgs).setAccept j (.lock h p))

section Quiet

variable {s : State I} {i : I}

/-- Changes of the mutex and of the table of one process. -/
theorem quiet_of_tables {t : State I} (hui : t.ui = s.ui) (haccept : t.accept = s.accept)
    (hbacklog : t.backlog = s.backlog) (hmade : t.made = s.made) (hserver : t.server = s.server)
    (htoClient : t.toClient = s.toClient) (htoServer : t.toServer = s.toServer) : Quiet s t :=
  ⟨fun i => by rw [hui]; exact .refl _, fun i => by rw [haccept]; exact .refl _, hbacklog, hmade,
    hserver, htoClient, htoServer⟩

theorem quiet_setMutex (owner : Option Thread) : Quiet s (s.setMutex i owner) :=
  quiet_of_tables rfl rfl rfl rfl rfl rfl rfl

theorem Quiet.setUi {t : State I} (h : Quiet s t) {pc : UiPc I} (hpc : (s.ui i).Follows pc) :
    Quiet s (t.setUi i pc) := by
  refine ⟨?_, h.accept, h.backlog, h.made, h.server, h.toClient, h.toServer⟩
  intro x
  by_cases hx : x = i
  · have hnew : (t.setUi i pc).ui x = pc := by rw [hx]; exact Function.update_self ..
    rw [hnew, hx]
    exact hpc
  · have hold : (t.setUi i pc).ui x = t.ui x := Function.update_of_ne hx ..
    rw [hold]
    exact h.ui x

theorem Quiet.setAccept {t : State I} (h : Quiet s t) {pc : AcceptPc I}
    (hpc : (s.accept i).Follows pc) : Quiet s (t.setAccept i pc) := by
  refine ⟨h.ui, ?_, h.backlog, h.made, h.server, h.toClient, h.toServer⟩
  intro x
  by_cases hx : x = i
  · have hnew : (t.setAccept i pc).accept x = pc := by rw [hx]; exact Function.update_self ..
    rw [hnew, hx]
    exact hpc
  · have hold : (t.setAccept i pc).accept x = t.accept x := Function.update_of_ne hx ..
    rw [hold]
    exact h.accept x

theorem quiet_appendStep (info : ClientInfo) (other : I) :
    Quiet s (appendStep s i info other).1 := by
  unfold appendStep
  split <;> exact quiet_of_tables rfl rfl rfl rfl rfl rfl rfl

end Quiet

variable {net : Net I} {s t : State I} {os : List (Appended I)}

/-- The steps of the UI thread of `i`. -/
inductive UiMoved (net : Net I) (s : State I) (i : I) : State I → List (Appended I) → Prop where
  | lockTest (cmd : Command I) (hpc : s.ui i = .lockTest cmd) :
    UiMoved net s i ((s.setMutex i (some .ui)).setUi i (.test cmd)) []
  | test (cmd : Command I) (hpc : s.ui i = .test cmd) (next : UiPc I)
    (hnext : next = .idle ∨ next = .connect cmd) :
    UiMoved net s i ((s.setMutex i none).setUi i next) []
  | connect (cmd : Command I) (hpc : s.ui i = .connect cmd) (fd : Int) :
    UiMoved net s i
      ((s.establish i cmd.server).setUi i (.read ⟨s.nextConn i, fd, cmd.dest.1⟩)) []
  | read (h : Outgoing I) (hpc : s.ui i = .read h) (msg : List Byte) (msgs : List (List Byte))
    (p : Int) (hmsgs : s.toClient h.conn = msg :: msgs)
    (hport : (chatReceiveMessage (.data msg)).bind sscanfPort = some p) :
    UiMoved net s i ((s.setToClient h.conn msgs).setUi i (.write h p)) []
  | write (h : Outgoing I) (p : Int) (hpc : s.ui i = .write h p) :
    UiMoved net s i ((s.setToServer h.conn (s.toServer h.conn ++
      [portMsg (net.getPort i)])).setUi i (.lock h p)) []
  | lock (h : Outgoing I) (p : Int) (hpc : s.ui i = .lock h p) :
    UiMoved net s i ((s.setMutex i (some .ui)).setUi i (.append h p)) []
  | append (h : Outgoing I) (p : Int) (hpc : s.ui i = .append h p) :
    UiMoved net s i
      ((appendStep s i ⟨h.sockFd, h.serverIp, p⟩ (s.server h.conn)).1.setUi i .idle)
      (appendStep s i ⟨h.sockFd, h.serverIp, p⟩ (s.server h.conn)).2

/-- The steps of the accept thread of `j`. -/
inductive AcceptMoved (net : Net I) (s : State I) (j : I) :
    State I → List (Appended I) → Prop where
  | accept (hpc : s.accept j = .accept) (c : Conn I) (conns : List (Conn I))
    (hconns : s.backlog j = c :: conns) (fd : Int) (addr : InAddr) :
    AcceptMoved net s j ((s.setBacklog j conns).setAccept j (.write ⟨c, fd, addr⟩)) []
  | write (h : Incoming I) (hpc : s.accept j = .write h) :
    AcceptMoved net s j ((s.setToClient h.conn (s.toClient h.conn ++
      [portMsg (net.getPort j)])).setAccept j (.read h)) []
  | read (h : Incoming I) (hpc : s.accept j = .read h) (msg : List Byte)
    (msgs : List (List Byte)) (p : Int) (hmsgs : s.toServer h.conn = msg :: msgs)
    (hport : (chatReceiveMessage (.data msg)).bind sscanfPort = some p) :
    AcceptMoved net s j ((s.setToServer h.conn msgs).setAccept j (.lock h p)) []
  | lock (h : Incoming I) (p : Int) (hpc : s.accept j = .lock h p) :
    AcceptMoved net s j ((s.setMutex j (some .accept)).setAccept j (.append h p)) []
  | append (h : Incoming I) (p : Int) (hpc : s.accept j = .append h p) :
    AcceptMoved net s j
      ((appendStep s j ⟨h.clientFd, inetNtop h.clientAddr, p⟩ h.conn.client).1.setAccept j .accept)
      (appendStep s j ⟨h.clientFd, inetNtop h.clientAddr, p⟩ h.conn.client).2

theorem uiStep_cases {i : I} {fd : Int} (ht : uiStep net s i fd = some (t, os)) :
    UiMoved net s i t os := by
  cases hpc : s.ui i with
  | idle =>
    simp only [uiStep, hpc] at ht
    cases ht
  | lockTest cmd =>
    simp only [uiStep, hpc] at ht
    split at ht
    · cases ht
      exact .lockTest cmd hpc
    · cases ht
  | test cmd =>
    simp only [uiStep, hpc] at ht
    cases ht
    refine .test cmd hpc _ ?_
    split
    · exact Or.inl rfl
    · exact Or.inr rfl
  | connect cmd =>
    simp only [uiStep, hpc] at ht
    split at ht
    · cases ht
      exact .connect cmd hpc fd
    · cases ht
  | read h =>
    simp only [uiStep, hpc] at ht
    split at ht
    · cases ht
    · rename_i msg msgs hmsgs
      obtain ⟨p, hport, heq⟩ := Option.map_eq_some_iff.mp ht
      cases heq
      exact .read h hpc msg msgs p hmsgs hport
  | write h p =>
    simp only [uiStep, hpc] at ht
    split at ht
    · cases ht
      exact .write h p hpc
    · cases ht
  | lock h p =>
    simp only [uiStep, hpc] at ht
    split at ht
    · cases ht
      exact .lock h p hpc
    · cases ht
  | append h p =>
    simp only [uiStep, hpc] at ht
    cases ht
    exact .append h p hpc

theorem acceptStep_cases {j : I} {fd : Int} {addr : InAddr}
    (ht : acceptStep net s j fd addr = some (t, os)) : AcceptMoved net s j t os := by
  cases hpc : s.accept j with
  | accept =>
    simp only [acceptStep, hpc] at ht
    split at ht
    · cases ht
    · rename_i c conns hconns
      cases ht
      exact .accept hpc c conns hconns fd addr
  | write h =>
    simp only [acceptStep, hpc] at ht
    split at ht
    · cases ht
      exact .write h hpc
    · cases ht
  | read h =>
    simp only [acceptStep, hpc] at ht
    split at ht
    · cases ht
    · rename_i msg msgs hmsgs
      obtain ⟨p, hport, heq⟩ := Option.map_eq_some_iff.mp ht
      cases heq
      exact .read h hpc msg msgs p hmsgs hport
  | lock h p =>
    simp only [acceptStep, hpc] at ht
    split at ht
    · cases ht
      exact .lock h p hpc
    · cases ht
  | append h p =>
    simp only [acceptStep, hpc] at ht
    cases ht
    exact .append h p hpc

theorem UiMoved.moved {i : I} (ht : UiMoved net s i t os) : Moved net s t := by
  cases ht with
  | lockTest cmd hpc =>
    refine .quiet ((quiet_setMutex _).setUi ?_)
    rw [hpc]
    exact .of_none (fun _ => rfl) rfl rfl
  | test cmd hpc next hnext =>
    refine .quiet ((quiet_setMutex _).setUi ?_)
    rw [hpc]
    rcases hnext with rfl | rfl <;> exact .of_none (fun _ => rfl) rfl rfl
  | connect cmd hpc fd => exact .connected i cmd fd hpc
  | read h hpc msg msgs p hmsgs hport => exact .learned i h msg msgs p hpc hmsgs hport
  | write h p hpc => exact .answered i h p hpc
  | lock h p hpc =>
    refine .quiet ((quiet_setMutex _).setUi ?_)
    rw [hpc]
    exact ⟨fun _ => rfl, fun _ => id, fun _ => id⟩
  | append h p hpc =>
    refine .quiet ((quiet_appendStep _ _).setUi ?_)
    rw [hpc]
    exact .of_none (fun _ => rfl) rfl rfl

theorem AcceptMoved.moved {j : I} (ht : AcceptMoved net s j t os) : Moved net s t := by
  cases ht with
  | accept hpc c conns hconns fd addr => exact .accepted j c conns fd addr hpc hconns
  | write h hpc => exact .greeted j h hpc
  | read h hpc msg msgs p hmsgs hport => exact .finished j h msg msgs p hpc hmsgs hport
  | lock h p hpc =>
    refine .quiet ((quiet_setMutex _).setAccept ?_)
    rw [hpc]
    exact ⟨fun _ => rfl, fun _ => id, fun _ => id⟩
  | append h p hpc =>
    refine .quiet ((quiet_appendStep _ _).setAccept ?_)
    rw [hpc]
    exact .of_none (fun _ => rfl) rfl rfl

theorem step_moved {a : Act I} (ht : step net s a = some (t, os)) : Moved net s t := by
  cases a with
  | command i garbage ipAddr portStr =>
    simp only [step] at ht
    split at ht
    · rename_i j hpc _
      split at ht
      · obtain ⟨rfl, _⟩ := Prod.mk.inj (Option.some.inj ht)
        exact .quiet (quiet_of_tables rfl rfl rfl rfl rfl rfl rfl)
      · obtain ⟨rfl, _⟩ := Prod.mk.inj (Option.some.inj ht)
        refine .quiet (Quiet.setUi (quiet_of_tables rfl rfl rfl rfl rfl rfl rfl : Quiet s s) ?_)
        rw [hpc]
        exact .of_none (fun _ => rfl) rfl rfl
    · cases ht
  | ui i fd => exact (uiStep_cases ht).moved
  | accept i fd addr => exact (acceptStep_cases ht).moved
  | chatLock i =>
    simp only [step] at ht
    split at ht
    · obtain ⟨rfl, _⟩ := Prod.mk.inj (Option.some.inj ht)
      exact .quiet (quiet_of_tables rfl rfl rfl rfl rfl rfl rfl)
    · cases ht
  | chat i removed =>
    simp only [step] at ht
    split at ht
    · obtain ⟨rfl, _⟩ := Prod.mk.inj (Option.some.inj ht)
      exact .quiet (quiet_of_tables rfl rfl rfl rfl rfl rfl rfl)
    · cases ht

end Network
end Chat
end LinuxEmbedded
