import LinuxEmbedded.Chat.Phases

/-
What holds of the handshakes in every run, and the numbers they store.
-/
namespace LinuxEmbedded
namespace Chat
namespace Network

open Framing (Byte)

variable {I : Type}

theorem UiPc.conn_of_learned {pc : UiPc I} {c : Conn I} {p : Int}
    (h : pc.learned = some (c, p)) : pc.conn? = some c := by
  cases pc <;> simp_all [learned, conn?]

theorem AcceptPc.conn_of_learned {pc : AcceptPc I} {c : Conn I} {p : Int}
    (h : pc.learned = some (c, p)) : pc.conn? = some c := by
  cases pc <;> simp_all [learned, conn?]

variable [DecidableEq I]

theorem UiPc.stage_of_conn_ne {pc : UiPc I} {c : Conn I} (h : pc.conn? ≠ some c) :
    pc.stage c = .away := by
  cases pc <;> simp_all [conn?, stage]

theorem AcceptPc.stage_of_conn_ne {pc : AcceptPc I} {c : Conn I} (h : pc.conn? ≠ some c) :
    pc.stage c = .away := by
  cases pc <;> simp_all [conn?, stage]

/-- The UI thread of `i` is on a connection of `i`, and the number it has read is the
port of the server. -/
structure UiPc.Fits (net : Net I) (made : I → Nat) (server : Conn I → I) (i : I)
    (pc : UiPc I) : Prop where
  conn : ∀ c, pc.conn? = some c → c.client = i ∧ c.number < made c.client
  port : ∀ c p, pc.learned = some (c, p) → p = ((net.getPort (server c)).toNat : Int)

structure AcceptPc.Fits (net : Net I) (made : I → Nat) (server : Conn I → I) (j : I)
    (pc : AcceptPc I) : Prop where
  conn : ∀ c, pc.conn? = some c → server c = j ∧ c.number < made c.client
  port : ∀ c p, pc.learned = some (c, p) → p = ((net.getPort c.client).toNat : Int)

structure Inv (net : Net I) (s : State I) : Prop where
  phased : ∀ c, Phased net s c
  queued : ∀ j, ∀ c ∈ s.backlog j, s.server c = j
  ui : ∀ i, (s.ui i).Fits net s.made s.server i
  accept : ∀ j, (s.accept j).Fits net s.made s.server j

variable {net : Net I} {s t : State I}

omit [DecidableEq I] in
theorem UiPc.fits_of_none {made : I → Nat} {server : Conn I → I} {i : I} {pc : UiPc I}
    (hconn : pc.conn? = none) : pc.Fits net made server i := by
  refine ⟨?_, ?_⟩
  · intro c hc
    rw [hconn] at hc
    cases hc
  · intro c p hp
    have hc := UiPc.conn_of_learned hp
    rw [hconn] at hc
    cases hc

omit [DecidableEq I] in
theorem AcceptPc.fits_of_none {made : I → Nat} {server : Conn I → I} {j : I} {pc : AcceptPc I}
    (hconn : pc.conn? = none) : pc.Fits net made server j := by
  refine ⟨?_, ?_⟩
  · intro c hc
    rw [hconn] at hc
    cases hc
  · intro c p hp
    have hc := AcceptPc.conn_of_learned hp
    rw [hconn] at hc
    cases hc

theorem inv_start (net : Net I) : Inv net start where
  phased := fun _ => ⟨.unmade, rfl⟩
  queued := by
    intro j c hc
    cases hc
  ui := fun _ => UiPc.fits_of_none rfl
  accept := fun _ => AcceptPc.fits_of_none rfl

theorem Inv.quiet (h : Inv net s) (hq : Quiet s t) : Inv net t := by
  refine ⟨?_, ?_, ?_, ?_⟩
  · intro c
    have hview : view t c = view s c := by
      simp only [view, hq.made, hq.backlog, hq.server, hq.toClient, hq.toServer,
        (hq.ui _).stage, (hq.accept _).stage]
    rw [Phased, hview, hq.server]
    exact h.phased c
  · intro j c hc
    rw [hq.backlog] at hc
    rw [hq.server]
    exact h.queued j c hc
  · intro i
    refine ⟨?_, ?_⟩
    · intro c hc
      rw [hq.made]
      exact (h.ui i).conn c ((hq.ui i).conn c hc)
    · intro c p hp
      rw [hq.server]
      exact (h.ui i).port c p ((hq.ui i).learned _ hp)
  · intro j
    refine ⟨?_, ?_⟩
    · intro c hc
      rw [hq.server, hq.made]
      exact (h.accept j).conn c ((hq.accept j).conn c hc)
    · intro c p hp
      exact (h.accept j).port c p ((hq.accept j).learned _ hp)

/-- The handshakes after a step that moves one of them. -/
theorem phased_of_moved {c : Conn I} (h : ∀ x, Phased net s x)
    (hother : ∀ x, x ≠ c → view t x = view s x) (hserver : ∀ x, x ≠ c → t.server x = s.server x)
    (hmoved : Phased net t c) : ∀ x, Phased net t x := by
  intro x
  by_cases hx : x = c
  · rw [hx]
    exact hmoved
  · rw [Phased, hother x hx, hserver x hx]
    exact h x

section Moves

variable {i j : I} {c : Conn I}

theorem Inv.setUi (h : Inv net s) {pc : UiPc I} (hpc : pc.Fits net s.made s.server i) :
    ∀ x, ((s.setUi i pc).ui x).Fits net s.made s.server x :=
  (Function.forall_update_iff s.ui fun x pc => pc.Fits net s.made s.server x).mpr
    ⟨hpc, fun x _ => h.ui x⟩

theorem Inv.setAccept (h : Inv net s) {pc : AcceptPc I} (hpc : pc.Fits net s.made s.server j) :
    ∀ x, ((s.setAccept j pc).accept x).Fits net s.made s.server x :=
  (Function.forall_update_iff s.accept fun x pc => pc.Fits net s.made s.server x).mpr
    ⟨hpc, fun x _ => h.accept x⟩

theorem made_iff : (view s c).made = true ↔ c.number < s.made c.client :=
  Iff.of_eq Nat.blt_eq

/-- A connection that is not made yet is nowhere. -/
theorem Inv.not_queued (h : Inv net s) (hview : view s c = Phase.unmade.view
    (portMsg (net.getPort (s.server c))) (portMsg (net.getPort c.client))) (j : I) :
    c ∉ s.backlog j := by
  intro hc
  have hzero : (s.backlog (s.server c)).count c = 0 := congrArg View.queued hview
  rw [h.queued j c hc] at hzero
  exact List.count_eq_zero.mp hzero hc

theorem Inv.accepted (h : Inv net s) {conns : List (Conn I)} {fd : Int} {addr : InAddr}
    (hpc : s.accept j = .accept) (hconns : s.backlog j = c :: conns) :
    Inv net ((s.setBacklog j conns).setAccept j (.write ⟨c, fd, addr⟩)) := by
  have hmem : c ∈ s.backlog j := by
    rw [hconns]
    exact List.mem_cons_self
  have hserver : s.server c = j := h.queued j c hmem
  obtain ⟨φ, hφ⟩ := h.phased c
  have hwaiting := View.waiting hφ (by
    show 0 < (s.backlog (s.server c)).count c
    rw [hserver]
    exact List.count_pos_iff.mpr hmem)
  have hcount : conns.count c = 0 := by
    have hone : (s.backlog (s.server c)).count c = 1 := congrArg View.queued hwaiting
    rw [hserver, hconns, List.count_cons_self] at hone
    omega
  refine ⟨phased_of_moved h.phased (c := c) ?_ (fun _ _ => rfl) ⟨.greeting, ?_⟩, ?_, h.ui, ?_⟩
  · intro x hx
    have hstage : (AcceptPc.write ⟨c, fd, addr⟩).stage x =
        ((s.setBacklog j conns).accept j).stage x := by
      show _ = (s.accept j).stage x
      rw [hpc]
      exact if_neg (Ne.symm hx)
    rw [view_setAccept_of_stage hstage, view_setBacklog_of_count]
    rw [hconns, List.count_cons_of_ne (Ne.symm hx)]
  · rw [view_setAccept, view_setBacklog, hwaiting]
    simp [Phase.view, State.setBacklog, hserver, hcount, AcceptPc.stage]
  · intro x
    show ∀ c ∈ Function.update s.backlog j conns x, s.server c = x
    revert x
    refine (Function.forall_update_iff s.backlog fun x l => ∀ c ∈ l, s.server c = x).mpr
      ⟨?_, fun x _ => h.queued x⟩
    intro y hy
    exact h.queued j y (by rw [hconns]; exact List.mem_cons_of_mem c hy)
  · refine h.setAccept ⟨?_, ?_⟩
    · intro y hy
      cases hy
      exact ⟨hserver, made_iff.mp (congrArg View.made hwaiting)⟩
    · intro y p hp
      cases hp

theorem Inv.greeted (h : Inv net s) {k : Incoming I} (hpc : s.accept j = .write k) :
    Inv net ((s.setToClient k.conn (s.toClient k.conn ++ [portMsg (net.getPort j)])).setAccept j
      (.read k)) := by
  have hfits := h.accept j
  rw [hpc] at hfits
  have hserver : s.server k.conn = j := (hfits.conn k.conn rfl).1
  obtain ⟨φ, hφ⟩ := h.phased k.conn
  have hgreeting := View.greeting hφ (by
    show (s.accept (s.server k.conn)).stage k.conn = .write
    rw [hserver, hpc]
    exact if_pos rfl)
  have hempty : s.toClient k.conn = [] := congrArg View.toClient hgreeting
  refine ⟨phased_of_moved h.phased (c := k.conn) ?_ (fun _ _ => rfl) ⟨.greeted, ?_⟩, h.queued,
    h.ui, h.setAccept ⟨fun c hc => hfits.conn c hc, ?_⟩⟩
  · intro x hx
    rw [view_setAccept_of_stage, view_setToClient_of_ne hx]
    show AcceptPc.stage x (.read k) = (s.accept j).stage x
    rw [hpc]
    simp [AcceptPc.stage, Ne.symm hx]
  · rw [view_setAccept, view_setToClient, hgreeting, hempty]
    simp [Phase.view, State.setToClient, State.setAccept, hserver, AcceptPc.stage]
  · intro c p hp
    cases hp

theorem Inv.learned (h : Inv net s) {k : Outgoing I} {msg : List Byte}
    {msgs : List (List Byte)} {p : Int} (hpc : s.ui i = .read k)
    (hmsgs : s.toClient k.conn = msg :: msgs)
    (hport : (chatReceiveMessage (.data msg)).bind sscanfPort = some p) :
    Inv net ((s.setToClient k.conn msgs).setUi i (.write k p)) := by
  have hfits := h.ui i
  rw [hpc] at hfits
  have hclient : k.conn.client = i := (hfits.conn k.conn rfl).1
  obtain ⟨φ, hφ⟩ := h.phased k.conn
  have hgreeted := View.greeted hφ (by
    show s.toClient k.conn ≠ []
    rw [hmsgs]
    exact List.cons_ne_nil msg msgs)
  have hone : s.toClient k.conn = [portMsg (net.getPort (s.server k.conn))] :=
    congrArg View.toClient hgreeted
  rw [hone] at hmsgs
  obtain ⟨rfl, rfl⟩ := List.cons.inj hmsgs
  rw [receive_portMsg] at hport
  refine ⟨phased_of_moved h.phased (c := k.conn) ?_ (fun _ _ => rfl) ⟨.answering, ?_⟩, h.queued,
    h.setUi ⟨fun c hc => hfits.conn c hc, ?_⟩, h.accept⟩
  · intro x hx
    rw [view_setUi_of_stage, view_setToClient_of_ne hx]
    show UiPc.stage x (.write k p) = (s.ui i).stage x
    rw [hpc]
    simp [UiPc.stage, Ne.symm hx]
  · rw [view_setUi, view_setToClient, hgreeted]
    simp [Phase.view, hclient, UiPc.stage]
  · intro c q hq
    cases hq
    exact (Option.some.inj hport).symm

theorem Inv.answered (h : Inv net s) {k : Outgoing I} {p : Int} (hpc : s.ui i = .write k p) :
    Inv net ((s.setToServer k.conn (s.toServer k.conn ++ [portMsg (net.getPort i)])).setUi i
      (.lock k p)) := by
  have hfits := h.ui i
  rw [hpc] at hfits
  have hclient : k.conn.client = i := (hfits.conn k.conn rfl).1
  obtain ⟨φ, hφ⟩ := h.phased k.conn
  have hanswering := View.answering hφ (by
    show (s.ui k.conn.client).stage k.conn = .write
    rw [hclient, hpc]
    exact if_pos rfl)
  have hempty : s.toServer k.conn = [] := congrArg View.toServer hanswering
  refine ⟨phased_of_moved h.phased (c := k.conn) ?_ (fun _ _ => rfl) ⟨.answered, ?_⟩, h.queued,
    h.setUi ⟨fun c hc => hfits.conn c hc, fun c q hq => hfits.port c q hq⟩, h.accept⟩
  · intro x hx
    rw [view_setUi_of_stage, view_setToServer_of_ne hx]
    show UiPc.stage x (.lock k p) = (s.ui i).stage x
    rw [hpc]
    simp [UiPc.stage, Ne.symm hx]
  · rw [view_setUi, view_setToServer, hanswering, hempty]
    simp [Phase.view, hclient, UiPc.stage]

theorem Inv.finished (h : Inv net s) {k : Incoming I} {msg : List Byte}
    {msgs : List (List Byte)} {p : Int} (hpc : s.accept j = .read k)
    (hmsgs : s.toServer k.conn = msg :: msgs)
    (hport : (chatReceiveMessage (.data msg)).bind sscanfPort = some p) :
    Inv net ((s.setToServer k.conn msgs).setAccept j (.lock k p)) := by
  have hfits := h.accept j
  rw [hpc] at hfits
  have hserver : s.server k.conn = j := (hfits.conn k.conn rfl).1
  obtain ⟨φ, hφ⟩ := h.phased k.conn
  have hanswered := View.answered hφ (by
    show s.toServer k.conn ≠ []
    rw [hmsgs]
    exact List.cons_ne_nil msg msgs)
  have hone : s.toServer k.conn = [portMsg (net.getPort k.conn.client)] :=
    congrArg View.toServer hanswered
  rw [hone] at hmsgs
  obtain ⟨rfl, rfl⟩ := List.cons.inj hmsgs
  rw [receive_portMsg] at hport
  refine ⟨phased_of_moved h.phased (c := k.conn) ?_ (fun _ _ => rfl) ⟨.over, ?_⟩, h.queued,
    h.ui, h.setAccept ⟨fun c hc => hfits.conn c hc, ?_⟩⟩
  · intro x hx
    rw [view_setAccept_of_stage, view_setToServer_of_ne hx]
    show AcceptPc.stage x (.lock k p) = (s.accept j).stage x
    rw [hpc]
    simp [AcceptPc.stage, Ne.symm hx]
  · rw [view_setAccept, view_setToServer, hanswered]
    simp [Phase.view, hserver, State.setToServer, AcceptPc.stage]
  · intro c q hq
    cases hq
    exact (Option.some.inj hport).symm

theorem establish_server_of_ne {x : Conn I} (hx : x ≠ s.nextConn i) (j : I) :
    (s.establish i j).server x = s.server x := Function.update_of_ne hx ..

theorem establish_made_iff {x : Conn I} (hx : x ≠ s.nextConn i) (j : I) :
    x.number < (s.establish i j).made x.client ↔ x.number < s.made x.client := by
  show x.number < Function.update s.made i (s.made i + 1) x.client ↔ _
  by_cases hi : x.client = i
  · have hne : x.number ≠ s.made i := by
      intro heq
      apply hx
      rw [State.nextConn, ← heq, ← hi]
    rw [hi, Function.update_self]
    omega
  · rw [Function.update_of_ne hi]

theorem view_establish_of_ne {x : Conn I} (hx : x ≠ s.nextConn i) (j : I) :
    view (s.establish i j) x = view s x := by
  have hmade : (view (s.establish i j) x).made = (view s x).made := by
    rw [Bool.eq_iff_iff, made_iff, made_iff]
    exact establish_made_iff hx j
  have hserver := establish_server_of_ne hx j
  have hqueued : ((s.establish i j).backlog (s.server x)).count x =
      (s.backlog (s.server x)).count x := by
    show (Function.update s.backlog j (s.backlog j ++ [s.nextConn i]) (s.server x)).count x = _
    by_cases hj : s.server x = j
    · rw [hj, Function.update_self, List.count_append, List.count_singleton]
      simp [Ne.symm hx]
    · rw [Function.update_of_ne hj]
  show View.mk (view (s.establish i j) x).made (((s.establish i j).backlog
    ((s.establish i j).server x)).count x) ((s.accept ((s.establish i j).server x)).stage x)
    ((s.ui x.client).stage x) (s.toClient x) (s.toServer x) = _
  rw [hserver, hqueued, hmade]
  rfl

/-- `connect` returns, on a connection nobody has heard of. -/
theorem Inv.connected (h : Inv net s) {cmd : Command I} {fd : Int}
    (hpc : s.ui i = .connect cmd) :
    Inv net ((s.establish i cmd.server).setUi i (.read ⟨s.nextConn i, fd, cmd.dest.1⟩)) := by
  have hfresh : ∀ c : Conn I, c.number < s.made c.client → c ≠ s.nextConn i := by
    rintro c hc rfl
    exact Nat.lt_irrefl _ hc
  obtain ⟨φ, hφ⟩ := h.phased (s.nextConn i)
  have hunmade := View.unmade hφ (by
    rw [Bool.eq_false_iff, ne_eq, made_iff]
    exact Nat.lt_irrefl _)
  have hnotQueued := h.not_queued hunmade
  refine ⟨phased_of_moved h.phased (c := s.nextConn i) ?_
    (fun x hx => establish_server_of_ne hx _) ⟨.waiting, ?_⟩, ?_, ?_, ?_⟩
  · intro x hx
    rw [view_setUi_of_stage, view_establish_of_ne hx]
    show UiPc.stage x (.read _) = (s.ui i).stage x
    rw [hpc]
    exact if_neg (Ne.symm hx)
  · have hqueue : (s.backlog cmd.server).count (s.nextConn i) = 0 :=
      List.count_eq_zero.mpr (hnotQueued cmd.server)
    have haway : (s.accept cmd.server).stage (s.nextConn i) = .away := by
      refine AcceptPc.stage_of_conn_ne ?_
      intro hc
      exact hfresh _ ((h.accept cmd.server).conn _ hc).2 rfl
    have htoClient : s.toClient (s.nextConn i) = [] := congrArg View.toClient hunmade
    have htoServer : s.toServer (s.nextConn i) = [] := congrArg View.toServer hunmade
    have hmade : (view (s.establish i cmd.server) (s.nextConn i)).made = true := by
      rw [made_iff]
      show s.made i < Function.update s.made i (s.made i + 1) i
      rw [Function.update_self]
      exact Nat.lt_succ_self _
    have hserver : (s.establish i cmd.server).server (s.nextConn i) = cmd.server :=
      Function.update_self ..
    have hbacklog : (s.establish i cmd.server).backlog cmd.server =
        s.backlog cmd.server ++ [s.nextConn i] := Function.update_self ..
    rw [view_setUi]
    show View.mk (view (s.establish i cmd.server) (s.nextConn i)).made
      (((s.establish i cmd.server).backlog
        ((s.establish i cmd.server).server (s.nextConn i))).count (s.nextConn i))
      ((s.accept ((s.establish i cmd.server).server (s.nextConn i))).stage (s.nextConn i))
      (if i = i then UiPc.stage (s.nextConn i) (.read ⟨s.nextConn i, fd, cmd.dest.1⟩) else _)
      (s.toClient (s.nextConn i)) (s.toServer (s.nextConn i)) = _
    rw [hserver, hbacklog, hmade, haway, htoClient, htoServer, if_pos rfl, List.count_append,
      hqueue]
    simp [Phase.view, UiPc.stage]
  · intro x
    show ∀ c ∈ Function.update s.backlog cmd.server (s.backlog cmd.server ++ [s.nextConn i]) x,
      Function.update s.server (s.nextConn i) cmd.server c = x
    revert x
    refine (Function.forall_update_iff s.backlog fun x l =>
      ∀ c ∈ l, Function.update s.server (s.nextConn i) cmd.server c = x).mpr ⟨?_, ?_⟩
    · intro c hc
      rcases List.mem_append.mp hc with hc | hc
      · have hne : c ≠ s.nextConn i := fun heq => hnotQueued _ (heq ▸ hc)
        rw [Function.update_of_ne hne]
        exact h.queued _ c hc
      · rw [List.mem_singleton.mp hc, Function.update_self]
    · intro x _ c hc
      have hne : c ≠ s.nextConn i := fun heq => hnotQueued _ (heq ▸ hc)
      rw [Function.update_of_ne hne]
      exact h.queued x c hc
  · refine (Function.forall_update_iff s.ui fun x pc => pc.Fits net
      (s.establish i cmd.server).made (s.establish i cmd.server).server x).mpr ⟨⟨?_, ?_⟩, ?_⟩
    · intro c hc
      cases hc
      refine ⟨rfl, ?_⟩
      show s.made i < Function.update s.made i (s.made i + 1) i
      rw [Function.update_self]
      exact Nat.lt_succ_self _
    · intro c p hp
      cases hp
    · intro x _
      refine ⟨?_, ?_⟩
      · intro c hc
        obtain ⟨hx, hlt⟩ := (h.ui x).conn c hc
        exact ⟨hx, (establish_made_iff (hfresh c hlt) _).mpr hlt⟩
      · intro c p hp
        have hlt := ((h.ui x).conn c (UiPc.conn_of_learned hp)).2
        rw [establish_server_of_ne (hfresh c hlt)]
        exact (h.ui x).port c p hp
  · intro j
    refine ⟨?_, fun c p hp => (h.accept j).port c p hp⟩
    intro c hc
    obtain ⟨hj, hlt⟩ := (h.accept j).conn c hc
    refine ⟨?_, (establish_made_iff (hfresh c hlt) cmd.server).mpr hlt⟩
    show (s.establish i cmd.server).server c = j
    rw [establish_server_of_ne (hfresh c hlt)]
    exact hj

end Moves

theorem Inv.moved (h : Inv net s) (ht : Moved net s t) : Inv net t := by
  cases ht with
  | quiet hq => exact h.quiet hq
  | connected i cmd fd hpc => exact h.connected hpc
  | accepted j c conns fd addr hpc hconns => exact h.accepted hpc hconns
  | greeted j k hpc => exact h.greeted hpc
  | learned i k msg msgs p hpc hmsgs hport => exact h.learned hpc hmsgs hport
  | answered i k p hpc => exact h.answered hpc
  | finished j k msg msgs p hpc hmsgs hport => exact h.finished hpc hmsgs hport

/-! ## The numbers in the tables -/

/-- The entry has the port of the process at the other end. -/
def Appended.Agrees (net : Net I) (e : Appended I) : Prop :=
  e.info.listeningPort = (net.getPort e.other).toNat

theorem appendStep_agrees {i other : I} {info : ClientInfo}
    (hinfo : info.listeningPort = (net.getPort other).toNat) :
    ∀ e ∈ (appendStep s i info other).2, e.Agrees net := by
  unfold appendStep
  split
  · intro e he
    rw [List.mem_singleton.mp he]
    exact hinfo
  · intro e he
    cases he

theorem UiMoved.agrees (h : Inv net s) {i : I} {os : List (Appended I)}
    (ht : UiMoved net s i t os) : ∀ e ∈ os, e.Agrees net := by
  cases ht with
  | append k p hpc =>
    have hfits := h.ui i
    rw [hpc] at hfits
    exact appendStep_agrees (hfits.port k.conn p rfl)
  | _ => simp

theorem AcceptMoved.agrees (h : Inv net s) {j : I} {os : List (Appended I)}
    (ht : AcceptMoved net s j t os) : ∀ e ∈ os, e.Agrees net := by
  cases ht with
  | append k p hpc =>
    have hfits := h.accept j
    rw [hpc] at hfits
    exact appendStep_agrees (hfits.port k.conn p rfl)
  | _ => simp

theorem step_agrees (h : Inv net s) {a : Act I} {os : List (Appended I)}
    (ht : step net s a = some (t, os)) : ∀ e ∈ os, e.Agrees net := by
  cases a with
  | ui i fd => exact (uiStep_cases ht).agrees h
  | accept i fd addr => exact (acceptStep_cases ht).agrees h
  | command i garbage ipAddr portStr =>
    simp only [step] at ht
    split at ht
    · split at ht <;>
        · obtain ⟨_, rfl⟩ := Prod.mk.inj (Option.some.inj ht)
          simp
    · cases ht
  | _ =>
    simp only [step] at ht
    split at ht
    · obtain ⟨_, rfl⟩ := Prod.mk.inj (Option.some.inj ht)
      simp
    · cases ht

/-- In every run the invariant holds, and both ends of a connection store the port of
the other. -/
theorem inv_run {as : List (Act I)} {os : List (Appended I)}
    (h : Machine.run (step net) start as = some (s, os)) :
    Inv net s ∧ ∀ e ∈ os, e.Agrees net := by
  refine Machine.run_induction (P := fun _ os s => Inv net s ∧ ∀ e ∈ os, e.Agrees net)
    ⟨inv_start net, by simp⟩ ?_ h
  rintro as os u a t os' _ ⟨hinv, hagree⟩ ht
  refine ⟨hinv.moved (step_moved ht), ?_⟩
  intro e he
  rcases List.mem_append.mp he with he | he
  · exact hagree e he
  · exact step_agrees hinv ht e he

end Network
end Chat
end LinuxEmbedded
