import LinuxEmbedded.Chat.Agreement

/-
Handshakes never block each other for good.

A thread waits for its mutex, which a thread in a section holds, or for a message.
The accept thread waits for a client that it has greeted, so nothing is in the way of
that client; the UI thread waits for a server whose accept thread is at that
connection or at an earlier one.  So there is no ring of waiting threads, whatever
the connects are.
-/
namespace LinuxEmbedded
namespace Chat
namespace Network

open Framing (Byte)

variable {I : Type}

/-! ## Who holds the mutex -/

def UiPc.inSection : UiPc I → Bool
  | .test _ | .append _ _ => true
  | .idle | .lockTest _ | .connect _ | .read _ | .write _ _ | .lock _ _ => false

def AcceptPc.inSection : AcceptPc I → Bool
  | .append _ _ => true
  | .accept | .write _ | .read _ | .lock _ _ => false

/-- The mutex of `i` is held by a thread that is in its section. -/
structure Locked (s : State I) (i : I) : Prop where
  ui : s.mutex i = some .ui → (s.ui i).inSection = true
  accept : s.mutex i = some .accept → (s.accept i).inSection = true

theorem locked_start (i : I) : Locked (start : State I) i := by
  refine ⟨?_, ?_⟩ <;>
    · intro h
      cases h

/-- A process changes its own mutex and threads. -/
structure Local (i : I) (s t : State I) : Prop where
  mutex : ∀ x, x ≠ i → t.mutex x = s.mutex x
  ui : ∀ x, x ≠ i → t.ui x = s.ui x
  accept : ∀ x, x ≠ i → t.accept x = s.accept x

/-- Changes of the tables and the connections. -/
theorem local_of_rest {s t : State I} (i : I) (hmutex : t.mutex = s.mutex) (hui : t.ui = s.ui)
    (haccept : t.accept = s.accept) : Local i s t :=
  ⟨fun _ _ => by rw [hmutex], fun _ _ => by rw [hui], fun _ _ => by rw [haccept]⟩

variable [DecidableEq I] {net : Net I} {s t : State I} {os : List (Appended I)}

section Locks

variable {i : I}

theorem Local.setUi (h : Local i s t) (pc : UiPc I) : Local i s (t.setUi i pc) :=
  ⟨h.mutex, fun x hx => (Function.update_of_ne hx ..).trans (h.ui x hx), h.accept⟩

theorem Local.setAccept (h : Local i s t) (pc : AcceptPc I) : Local i s (t.setAccept i pc) :=
  ⟨h.mutex, h.ui, fun x hx => (Function.update_of_ne hx ..).trans (h.accept x hx)⟩

theorem Local.setMutex (h : Local i s t) (owner : Option Thread) :
    Local i s (t.setMutex i owner) :=
  ⟨fun x hx => (Function.update_of_ne hx ..).trans (h.mutex x hx), h.ui, h.accept⟩

theorem Local.locked (h : Local i s t) (hs : ∀ x, Locked s x) (hi : Locked t i) :
    ∀ x, Locked t x := by
  intro x
  by_cases hx : x = i
  · rw [hx]
    exact hi
  · refine ⟨?_, ?_⟩
    · rw [h.mutex x hx, h.ui x hx]
      exact (hs x).ui
    · rw [h.mutex x hx, h.accept x hx]
      exact (hs x).accept

theorem Locked.setUi {pc : UiPc I} (hui : s.mutex i = some .ui → pc.inSection = true)
    (haccept : s.mutex i = some .accept → (s.accept i).inSection = true) :
    Locked (s.setUi i pc) i := by
  have hself : (s.setUi i pc).ui i = pc := Function.update_self ..
  refine ⟨?_, haccept⟩
  rw [hself]
  exact hui

theorem Locked.setAccept {pc : AcceptPc I}
    (hui : s.mutex i = some .ui → (s.ui i).inSection = true)
    (haccept : s.mutex i = some .accept → pc.inSection = true) :
    Locked (s.setAccept i pc) i := by
  have hself : (s.setAccept i pc).accept i = pc := Function.update_self ..
  refine ⟨hui, ?_⟩
  rw [hself]
  exact haccept

@[simp] theorem setMutex_self (owner : Option Thread) : (s.setMutex i owner).mutex i = owner :=
  Function.update_self ..

omit [DecidableEq I] in
/-- A thread outside its section does not hold the mutex. -/
theorem Locked.not_ui (h : Locked s i) (hpc : (s.ui i).inSection = false) :
    s.mutex i ≠ some .ui := by
  intro hm
  rw [h.ui hm] at hpc
  cases hpc

omit [DecidableEq I] in
theorem Locked.not_accept (h : Locked s i) (hpc : (s.accept i).inSection = false) :
    s.mutex i ≠ some .accept := by
  intro hm
  rw [h.accept hm] at hpc
  cases hpc

/-- The UI thread goes on outside its sections. -/
theorem locked_setUi (h : ∀ x, Locked s x) (hmutex : t.mutex = s.mutex) (hui : t.ui = s.ui)
    (haccept : t.accept = s.accept) (hpc : (s.ui i).inSection = false) (pc : UiPc I) :
    ∀ x, Locked (t.setUi i pc) x := by
  refine ((local_of_rest i hmutex hui haccept).setUi pc).locked h (Locked.setUi ?_ ?_)
  · intro hm
    rw [hmutex] at hm
    exact absurd hm ((h i).not_ui hpc)
  · rw [hmutex, haccept]
    exact (h i).accept

theorem locked_setAccept (h : ∀ x, Locked s x) (hmutex : t.mutex = s.mutex) (hui : t.ui = s.ui)
    (haccept : t.accept = s.accept) (hpc : (s.accept i).inSection = false) (pc : AcceptPc I) :
    ∀ x, Locked (t.setAccept i pc) x := by
  refine ((local_of_rest i hmutex hui haccept).setAccept pc).locked h (Locked.setAccept ?_ ?_)
  · rw [hmutex, hui]
    exact (h i).ui
  · intro hm
    rw [hmutex] at hm
    exact absurd hm ((h i).not_accept hpc)

/-- The UI thread enters a section. -/
theorem locked_setUi_enter (h : ∀ x, Locked s x) {pc : UiPc I} (hpc : pc.inSection = true) :
    ∀ x, Locked ((s.setMutex i (some .ui)).setUi i pc) x := by
  refine (((local_of_rest i rfl rfl rfl).setMutex _).setUi pc).locked h (Locked.setUi ?_ ?_)
  · intro _
    exact hpc
  · intro hm
    rw [setMutex_self] at hm
    cases hm

theorem locked_setAccept_enter (h : ∀ x, Locked s x) {pc : AcceptPc I}
    (hpc : pc.inSection = true) :
    ∀ x, Locked ((s.setMutex i (some .accept)).setAccept i pc) x := by
  refine (((local_of_rest i rfl rfl rfl).setMutex _).setAccept pc).locked h
    (Locked.setAccept ?_ ?_)
  · intro hm
    rw [setMutex_self] at hm
    cases hm
  · intro _
    exact hpc

/-- A thread leaves its section. -/
theorem locked_setMutex_none (h : ∀ x, Locked s x) (hui : t.ui = s.ui)
    (haccept : t.accept = s.accept) (hmutex : t.mutex = s.mutex) :
    ∀ x, Locked (t.setMutex i none) x := by
  refine ((local_of_rest i hmutex hui haccept).setMutex none).locked h ⟨?_, ?_⟩ <;>
    · intro hm
      rw [setMutex_self] at hm
      cases hm

theorem locked_setUi_leave (h : ∀ x, Locked s x) (hmutex : t.mutex = s.mutex) (hui : t.ui = s.ui)
    (haccept : t.accept = s.accept) (pc : UiPc I) :
    ∀ x, Locked ((t.setMutex i none).setUi i pc) x := by
  refine (((local_of_rest i hmutex hui haccept).setMutex none).setUi pc).locked h
    (Locked.setUi ?_ ?_) <;>
    · intro hm
      rw [setMutex_self] at hm
      cases hm

theorem locked_setAccept_leave (h : ∀ x, Locked s x) (hmutex : t.mutex = s.mutex)
    (hui : t.ui = s.ui) (haccept : t.accept = s.accept) (pc : AcceptPc I) :
    ∀ x, Locked ((t.setMutex i none).setAccept i pc) x := by
  refine (((local_of_rest i hmutex hui haccept).setMutex none).setAccept pc).locked h
    (Locked.setAccept ?_ ?_) <;>
    · intro hm
      rw [setMutex_self] at hm
      cases hm

/-- The section that appends ends with the mutex free. -/
theorem appendStep_leaves (s : State I) (i : I) (info : ClientInfo) (other : I) :
    ∃ u : State I, (appendStep s i info other).1 = u.setMutex i none ∧ u.mutex = s.mutex ∧
      u.ui = s.ui ∧ u.accept = s.accept := by
  unfold appendStep
  split
  · exact ⟨_, rfl, rfl, rfl, rfl⟩
  · exact ⟨s, rfl, rfl, rfl, rfl⟩

theorem UiMoved.locked (h : ∀ x, Locked s x) (ht : UiMoved net s i t os) : ∀ x, Locked t x := by
  cases ht with
  | lockTest cmd hpc => exact locked_setUi_enter h rfl
  | lock k p hpc => exact locked_setUi_enter h rfl
  | test cmd hpc next hnext => exact locked_setUi_leave h rfl rfl rfl next
  | append k p hpc =>
    obtain ⟨u, hu, hmutex, hui, haccept⟩ :=
      appendStep_leaves s i ⟨k.sockFd, k.serverIp, p⟩ (s.server k.conn)
    rw [hu]
    exact locked_setUi_leave h hmutex hui haccept _
  | connect cmd hpc fd => exact locked_setUi h (by rfl) (by rfl) (by rfl) (by rw [hpc]; rfl) _
  | read k hpc => exact locked_setUi h (by rfl) (by rfl) (by rfl) (by rw [hpc]; rfl) _
  | write k p hpc => exact locked_setUi h (by rfl) (by rfl) (by rfl) (by rw [hpc]; rfl) _

theorem AcceptMoved.locked (h : ∀ x, Locked s x) (ht : AcceptMoved net s i t os) :
    ∀ x, Locked t x := by
  cases ht with
  | lock k p hpc => exact locked_setAccept_enter h rfl
  | append k p hpc =>
    obtain ⟨u, hu, hmutex, hui, haccept⟩ :=
      appendStep_leaves s i ⟨k.clientFd, inetNtop k.clientAddr, p⟩ k.conn.client
    rw [hu]
    exact locked_setAccept_leave h hmutex hui haccept _
  | accept hpc => exact locked_setAccept h (by rfl) (by rfl) (by rfl) (by rw [hpc]; rfl) _
  | write k hpc => exact locked_setAccept h (by rfl) (by rfl) (by rfl) (by rw [hpc]; rfl) _
  | read k hpc => exact locked_setAccept h (by rfl) (by rfl) (by rfl) (by rw [hpc]; rfl) _

theorem step_locked (h : ∀ x, Locked s x) {a : Act I} (ht : step net s a = some (t, os)) :
    ∀ x, Locked t x := by
  cases a with
  | command i garbage ipAddr portStr =>
    simp only [step] at ht
    split at ht
    · rename_i j hpc _
      split at ht
      · obtain ⟨rfl, _⟩ := Prod.mk.inj (Option.some.inj ht)
        exact h
      · obtain ⟨rfl, _⟩ := Prod.mk.inj (Option.some.inj ht)
        exact locked_setUi h (by rfl) (by rfl) (by rfl) (by rw [hpc]; rfl) _
    · cases ht
  | ui i fd => exact (uiStep_cases ht).locked h
  | accept i fd addr => exact (acceptStep_cases ht).locked h
  | chatLock i =>
    simp only [step] at ht
    split at ht
    · obtain ⟨rfl, _⟩ := Prod.mk.inj (Option.some.inj ht)
      refine ((local_of_rest i rfl rfl rfl).setMutex _).locked h ⟨?_, ?_⟩ <;>
        · intro hm
          rw [setMutex_self] at hm
          cases hm
    · cases ht
  | chat i removed =>
    simp only [step] at ht
    split at ht
    · obtain ⟨rfl, _⟩ := Prod.mk.inj (Option.some.inj ht)
      exact locked_setMutex_none h rfl rfl rfl
    · cases ht

theorem locked_run {as : List (Act I)} (h : Machine.run (step net) start as = some (s, os)) :
    ∀ x, Locked s x :=
  Machine.run_invariant (I := fun s : State I => ∀ x, Locked s x)
    (fun _ _ _ _ hu ht => step_locked hu ht) locked_start h

end Locks

/-! ## A thread that can go on -/

/-- Some thread that is at something has a step. -/
def CanGoOn (net : Net I) (s : State I) : Prop :=
  ∃ a : Act I, a.Continues ∧ (step net s a).isSome = true

theorem canGoOn_ui {i : I} (h : (uiStep net s i 0).isSome = true) : CanGoOn net s :=
  ⟨.ui i 0, trivial, h⟩

theorem canGoOn_accept {j : I} (h : (acceptStep net s j 0 inaddrAny).isSome = true) :
    CanGoOn net s :=
  ⟨.accept j 0 inaddrAny, trivial, h⟩

/-- The thread that holds a mutex can leave its section. -/
theorem canGoOn_of_held {i : I} (h : Locked s i) (hm : s.mutex i ≠ none) : CanGoOn net s := by
  cases howner : s.mutex i with
  | none => exact absurd howner hm
  | some owner =>
    cases owner with
    | ui =>
      have hin := h.ui howner
      refine canGoOn_ui (i := i) ?_
      cases hpc : s.ui i with
      | test cmd => simp [uiStep, hpc]
      | append k p => simp [uiStep, hpc]
      | _ =>
        rw [hpc] at hin
        cases hin
    | accept =>
      have hin := h.accept howner
      refine canGoOn_accept (j := i) ?_
      cases hpc : s.accept i with
      | append k p => simp [acceptStep, hpc]
      | _ =>
        rw [hpc] at hin
        cases hin
    | chat => exact ⟨.chat i none, trivial, by simp [step, howner]⟩

section Waiting

variable {i j : I}

theorem UiPc.of_stage_read {pc : UiPc I} {c : Conn I} (h : pc.stage c = .read) :
    ∃ k, pc = .read k ∧ k.conn = c := by
  cases pc with
  | read k =>
    by_cases hk : k.conn = c
    · exact ⟨k, rfl, hk⟩
    · simp [stage, hk] at h
  | write k p =>
    by_cases hk : k.conn = c <;> simp [stage, hk] at h
  | _ => cases h

theorem UiPc.of_stage_write {pc : UiPc I} {c : Conn I} (h : pc.stage c = .write) :
    ∃ k p, pc = .write k p ∧ k.conn = c := by
  cases pc with
  | write k p =>
    by_cases hk : k.conn = c
    · exact ⟨k, p, rfl, hk⟩
    · simp [stage, hk] at h
  | read k =>
    by_cases hk : k.conn = c <;> simp [stage, hk] at h
  | _ => cases h

theorem canGoOn_ui_write (hinv : Inv net s) {k : Outgoing I} {p : Int}
    (hpc : s.ui i = .write k p) : CanGoOn net s := by
  have hfits := hinv.ui i
  rw [hpc] at hfits
  have hclient : k.conn.client = i := (hfits.conn k.conn rfl).1
  obtain ⟨φ, hφ⟩ := hinv.phased k.conn
  have hanswering := View.answering hφ (by
    show (s.ui k.conn.client).stage k.conn = .write
    rw [hclient, hpc]
    exact if_pos rfl)
  have hempty : s.toServer k.conn = [] := congrArg View.toServer hanswering
  refine canGoOn_ui (i := i) ?_
  have hroom := net.capacity_pos
  simp [uiStep, hpc, hempty, hroom]

theorem canGoOn_ui_read (hinv : Inv net s) {k : Outgoing I} (hpc : s.ui i = .read k)
    (hmsgs : s.toClient k.conn ≠ []) : CanGoOn net s := by
  obtain ⟨φ, hφ⟩ := hinv.phased k.conn
  have hgreeted := View.greeted hφ hmsgs
  have hone : s.toClient k.conn = [portMsg (net.getPort (s.server k.conn))] :=
    congrArg View.toClient hgreeted
  refine canGoOn_ui (i := i) ?_
  simp [uiStep, hpc, hone, receive_portMsg]

/-- An accept thread in a handshake waits for nobody but its client, and that client for
nobody. -/
theorem canGoOn_of_serving (hinv : Inv net s) (hlocked : ∀ x, Locked s x)
    (hbusy : s.accept j ≠ .accept) : CanGoOn net s := by
  have hfits := hinv.accept j
  cases hpc : s.accept j with
  | accept => exact absurd hpc hbusy
  | write k =>
    rw [hpc] at hfits
    have hserver : s.server k.conn = j := (hfits.conn k.conn rfl).1
    obtain ⟨φ, hφ⟩ := hinv.phased k.conn
    have hgreeting := View.greeting hφ (by
      show (s.accept (s.server k.conn)).stage k.conn = .write
      rw [hserver, hpc]
      exact if_pos rfl)
    have hempty : s.toClient k.conn = [] := congrArg View.toClient hgreeting
    refine canGoOn_accept (j := j) ?_
    have hroom := net.capacity_pos
    simp [acceptStep, hpc, hempty, hroom]
  | read k =>
    rw [hpc] at hfits
    have hserver : s.server k.conn = j := (hfits.conn k.conn rfl).1
    obtain ⟨φ, hφ⟩ := hinv.phased k.conn
    have hread : (view s k.conn).server = .read := by
      show (s.accept (s.server k.conn)).stage k.conn = .read
      rw [hserver, hpc]
      exact if_pos rfl
    rcases View.server_read hφ hread with hmsgs | hwrite | hmsgs
    · -- the client has not read the number of the server
      have hgreeted := View.greeted hφ hmsgs
      obtain ⟨k', hpc', hconn⟩ := UiPc.of_stage_read (congrArg View.client hgreeted)
      exact canGoOn_ui_read hinv hpc' (by rw [hconn]; exact hmsgs)
    · obtain ⟨k', p, hpc', _⟩ := UiPc.of_stage_write hwrite
      exact canGoOn_ui_write hinv hpc'
    · have hanswered := View.answered hφ hmsgs
      have hone : s.toServer k.conn = [portMsg (net.getPort k.conn.client)] :=
        congrArg View.toServer hanswered
      refine canGoOn_accept (j := j) ?_
      simp [acceptStep, hpc, hone, receive_portMsg]
  | lock k p =>
    by_cases hm : s.mutex j = none
    · refine canGoOn_accept (j := j) ?_
      simp [acceptStep, hpc, hm]
    · exact canGoOn_of_held (hlocked j) hm
  | append k p =>
    refine canGoOn_accept (j := j) ?_
    simp [acceptStep, hpc]

theorem canGoOn_of_queued (hinv : Inv net s) (hlocked : ∀ x, Locked s x)
    (hqueued : s.backlog j ≠ []) : CanGoOn net s := by
  cases hpc : s.accept j with
  | accept =>
    obtain ⟨c, conns, hconns⟩ := List.exists_cons_of_ne_nil hqueued
    refine canGoOn_accept (j := j) ?_
    simp [acceptStep, hpc, hconns]
  | _ =>
    refine canGoOn_of_serving (j := j) hinv hlocked ?_
    rw [hpc]
    simp

/-- A UI thread in a `connect` waits for the accept thread of its server. -/
theorem canGoOn_of_calling (hinv : Inv net s) (hlocked : ∀ x, Locked s x)
    (hbusy : s.ui i ≠ .idle) : CanGoOn net s := by
  cases hpc : s.ui i with
  | idle => exact absurd hpc hbusy
  | lockTest cmd =>
    by_cases hm : s.mutex i = none
    · refine canGoOn_ui (i := i) ?_
      simp [uiStep, hpc, hm]
    · exact canGoOn_of_held (hlocked i) hm
  | test cmd =>
    refine canGoOn_ui (i := i) ?_
    simp [uiStep, hpc]
  | connect cmd =>
    by_cases hqueued : s.backlog cmd.server = []
    · refine canGoOn_ui (i := i) ?_
      simp [uiStep, hpc, hqueued, listenBacklog]
    · exact canGoOn_of_queued hinv hlocked hqueued
  | read k =>
    have hfits := hinv.ui i
    rw [hpc] at hfits
    have hclient : k.conn.client = i := (hfits.conn k.conn rfl).1
    obtain ⟨φ, hφ⟩ := hinv.phased k.conn
    have hread : (view s k.conn).client = .read := by
      show (s.ui k.conn.client).stage k.conn = .read
      rw [hclient, hpc]
      exact if_pos rfl
    rcases View.client_read hφ hread with hqueued | hwrite | hmsgs
    · have hmem : k.conn ∈ s.backlog (s.server k.conn) := List.count_pos_iff.mp hqueued
      exact canGoOn_of_queued hinv hlocked (List.ne_nil_of_mem hmem)
    · refine canGoOn_of_serving (j := s.server k.conn) hinv hlocked ?_
      intro haccept
      have hwrite : (s.accept (s.server k.conn)).stage k.conn = .write := hwrite
      rw [haccept] at hwrite
      cases hwrite
    · exact canGoOn_ui_read hinv hpc hmsgs
  | write k p => exact canGoOn_ui_write hinv hpc
  | lock k p =>
    by_cases hm : s.mutex i = none
    · refine canGoOn_ui (i := i) ?_
      simp [uiStep, hpc, hm]
    · exact canGoOn_of_held (hlocked i) hm
  | append k p =>
    refine canGoOn_ui (i := i) ?_
    simp [uiStep, hpc]

end Waiting

/-- Whatever the connects, a state with an unfinished handshake has a step, and each
entry has the port of the process at the other end. -/
theorem canGoOn_and_agree {as : List (Act I)}
    (h : Machine.run (step net) start as = some (s, os)) :
    (Unfinished s → CanGoOn net s) ∧ ∀ e ∈ os, e.Agrees net := by
  obtain ⟨hinv, hagree⟩ := inv_run h
  have hlocked := locked_run h
  refine ⟨?_, hagree⟩
  rintro (⟨i, hbusy⟩ | ⟨j, hbusy⟩ | ⟨j, hqueued⟩)
  · exact canGoOn_of_calling hinv hlocked hbusy
  · exact canGoOn_of_serving hinv hlocked hbusy
  · exact canGoOn_of_queued hinv hlocked hqueued

/-- Two processes on one host, that listen on 5000 and 5001. -/
def twoProcesses : Net Bool where
  port i := if i then 5001 else 5000
  route _ _ port := if port = 5000 then some false else if port = 5001 then some true else none
  capacity := 1
  capacity_pos := by decide

/-- They connect to each other.  One connection has its entries, the other waits for the
accept thread. -/
theorem canGoOn_and_agree_mutual :
    ∃ s os, Machine.run (step twoProcesses) start
        [.command false inaddrAny (inetNtop ⟨127, 0, 0, 1⟩) (Decimal.text 5001),
          .command true inaddrAny (inetNtop ⟨127, 0, 0, 1⟩) (Decimal.text 5000),
          .ui false 0, .ui true 0, .ui false 0, .ui true 0, .ui false 4, .ui true 4,
          .accept true 5 ⟨127, 0, 0, 1⟩, .accept true 0 inaddrAny, .ui false 0, .ui false 0,
          .accept true 0 inaddrAny, .ui false 0, .accept true 0 inaddrAny,
          .accept true 0 inaddrAny, .ui false 0] = some (s, os) ∧
      os.length = 2 ∧ CanGoOn twoProcesses s ∧ ∀ e ∈ os, e.Agrees twoProcesses := by
  have hmap : (Machine.run (step twoProcesses) start
      [.command false inaddrAny (inetNtop ⟨127, 0, 0, 1⟩) (Decimal.text 5001),
        .command true inaddrAny (inetNtop ⟨127, 0, 0, 1⟩) (Decimal.text 5000),
        .ui false 0, .ui true 0, .ui false 0, .ui true 0, .ui false 4, .ui true 4,
        .accept true 5 ⟨127, 0, 0, 1⟩, .accept true 0 inaddrAny, .ui false 0, .ui false 0,
        .accept true 0 inaddrAny, .ui false 0, .accept true 0 inaddrAny,
        .accept true 0 inaddrAny, .ui false 0]).map
        (fun q => (q.2.length, (q.1.backlog false).length)) = some (2, 1) := by decide +kernel
  obtain ⟨⟨s, os⟩, hrun, heq⟩ := Option.map_eq_some_iff.mp hmap
  obtain ⟨hlength, hbacklog⟩ := Prod.mk.inj heq
  obtain ⟨hgo, hagree⟩ := canGoOn_and_agree hrun
  refine ⟨s, os, hrun, hlength, hgo (Or.inr (Or.inr ⟨false, ?_⟩)), hagree⟩
  exact List.ne_nil_of_length_pos (by rw [show (s.backlog false).length = 1 from hbacklog]; decide)

end Network
end Chat
end LinuxEmbedded
