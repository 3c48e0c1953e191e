import LinuxEmbedded.Chat.UiRun

/-
A connection that has its descriptor number for itself.

A number that nobody used when the connection was made stays with it: the kernel gives it
to nobody else before it is closed, and closed it is by the thread of the connection, or by
the `terminate` that removes its entry.
-/
namespace LinuxEmbedded
namespace Chat
namespace OwnNumber

open Threads

/-- The connection is made with a number that no earlier thread uses and no entry has. -/
def FreeNumber (c : Nat) (s : Threads.State) : Threads.Act → Prop
  | .make _ fd =>
    s.next = c → (∀ x < c, (s.place x).fd? ≠ some fd) ∧ ∀ entry ∈ s.clients, entry.fd ≠ fd
  | _ => True

instance (c : Nat) (s : Threads.State) (a : Threads.Act) : Decidable (FreeNumber c s a) :=
  match a with
  | .make _ _ => inferInstanceAs (Decidable (_ → _))
  | .enter _ _ _ | .create _ | .chat _ _ | .terminate _ => isTrue trivial

/-- The `terminate` command picks the entry of the connection. -/
def terminates (c : Nat) (s : Threads.State) : Threads.Act → Bool
  | .terminate id =>
    match terminateEntry s.clients id with
    | some (entry, _) => entry.conn == c
    | none => false
  | _ => false

/-- The descriptor of the connection, while it is open, is that of nobody else. -/
structure Alone (c : Nat) (s : Threads.State) : Prop where
  place : ∀ fd, s.kernel fd = some c → (s.place c).fd? = some fd
  threads : ∀ fd, s.kernel fd = some c → ∀ x, (s.place x).fd? = some fd → x = c
  entries : ∀ fd, s.kernel fd = some c → ∀ entry ∈ s.clients, entry.fd = fd → entry.conn = c

/-- The descriptor is open, and the entry in the table until `ui_run` is left. -/
structure Up (c : Nat) (s : Threads.State) : Prop where
  isOpen : ∀ fd, (s.place c).fd? = some fd → s.kernel fd = some c
  listed : ∀ fd, s.place c = .starting fd ∨ s.place c = .reading fd →
    ∃ entry ∈ s.clients, entry.conn = c ∧ entry.fd = fd

theorem alone_start (c : Nat) : Alone c Threads.start where
  place := fun _ h => by cases h
  threads := fun _ h => by cases h
  entries := fun _ h => by cases h

theorem up_start (c : Nat) : Up c Threads.start where
  isOpen := fun _ h => by cases h
  listed := fun _ h => by rcases h with h | h <;> cases h

section Steps

variable {c : Nat} {s t : Threads.State}

theorem Alone.sublist (h : Alone c s) {clients : List Entry} (hsub : clients.Sublist s.clients) :
    Alone c { s with clients } :=
  ⟨h.place, h.threads, fun fd hfd entry he => h.entries fd hfd entry (hsub.subset he)⟩

theorem close_kernel {fd fd' : Int} (hopen : (s.close fd).kernel fd' = some c) :
    fd' ≠ fd ∧ s.kernel fd' = some c := by
  have hne : fd' ≠ fd := by
    rintro rfl
    rw [State.close_self] at hopen
    cases hopen
  exact ⟨hne, by rwa [State.close_of_ne s hne] at hopen⟩

theorem Alone.close (h : Alone c s) (fd : Int) : Alone c (s.close fd) :=
  ⟨fun fd' hopen => h.place fd' (close_kernel hopen).2,
    fun fd' hopen => h.threads fd' (close_kernel hopen).2,
    fun fd' hopen => h.entries fd' (close_kernel hopen).2⟩

/-- A thread goes on with its number. -/
theorem Alone.setPlace (h : Alone c s) {x : Nat} {p : Place} (hfd : p.fd? = (s.place x).fd?) :
    Alone c (s.setPlace x p) := by
  have hplace : ∀ y, ((s.setPlace x p).place y).fd? = (s.place y).fd? := by
    intro y
    by_cases hy : y = x
    · rw [hy, State.setPlace_self, hfd]
    · rw [State.setPlace_of_ne s p hy]
  refine ⟨fun fd hopen => ?_, fun fd hopen y hy => ?_, h.entries⟩
  · rw [hplace]
    exact h.place fd hopen
  · rw [hplace] at hy
    exact h.threads fd hopen y hy

/-- A thread closes its number, and is over. -/
theorem Alone.over (h : Alone c s) {x : Nat} {fd : Int} (hfd : (s.place x).fd? = some fd) :
    Alone c ((s.close fd).setPlace x .absent) := by
  have hne : ∀ {fd'}, (s.close fd).kernel fd' = some c → c ≠ x := by
    rintro fd' hopen rfl
    have hown := h.place fd' (close_kernel hopen).2
    rw [hfd] at hown
    exact (close_kernel hopen).1 (Option.some.inj hown).symm
  refine ⟨fun fd' hopen => ?_, fun fd' hopen y hy => ?_, (h.close fd).entries⟩
  · have hopen : (s.close fd).kernel fd' = some c := hopen
    rw [State.setPlace_of_ne _ _ (hne hopen)]
    exact h.place fd' (close_kernel hopen).2
  · have hopen : (s.close fd).kernel fd' = some c := hopen
    by_cases hyx : y = x
    · rw [hyx, State.setPlace_self] at hy
      cases hy
    · rw [State.setPlace_of_ne _ _ hyx] at hy
      exact h.threads fd' (close_kernel hopen).2 y hy

/-- A new connection, on a number that is free for the one followed. -/
theorem Alone.make (h : Alone c s) (hfresh : Fresh s) {side : Side} {fd : Int}
    (hclosed : s.kernel fd = none) (hfree : FreeNumber c s (.make side fd)) :
    Alone c { s with
      kernel := Function.update s.kernel fd (some s.next)
      busy := Function.update s.busy side (some s.next)
      place := Function.update s.place s.next (.handshake fd)
      next := s.next + 1 } := by
  by_cases hnext : s.next = c
  · subst hnext
    obtain ⟨hthreads, hentries⟩ := hfree rfl
    have habsent := hfresh s.next (Nat.le_refl _)
    -- it was not made before, so it has no other descriptor
    have honly : ∀ fd', Function.update s.kernel fd (some s.next) fd' = some s.next → fd' = fd := by
      intro fd' hopen
      by_contra hne
      rw [Function.update_of_ne hne] at hopen
      have hown := h.place fd' hopen
      rw [habsent] at hown
      cases hown
    refine ⟨fun fd' hopen => ?_, fun fd' hopen x hx => ?_, fun fd' hopen entry he hfd => ?_⟩
    · rw [honly fd' hopen]
      show (Function.update s.place s.next (.handshake fd) s.next).fd? = some fd
      rw [Function.update_self]
      rfl
    · rw [honly fd' hopen] at hx
      have hx : (Function.update s.place s.next (.handshake fd) x).fd? = some fd := hx
      by_contra hne
      rw [Function.update_of_ne hne] at hx
      rcases Nat.lt_or_ge x s.next with hlt | hge
      · exact hthreads x hlt hx
      · rw [hfresh x hge] at hx
        cases hx
    · rw [honly fd' hopen] at hfd
      exact absurd hfd (hentries entry he)
  · have hold : ∀ fd', Function.update s.kernel fd (some s.next) fd' = some c →
        fd' ≠ fd ∧ s.kernel fd' = some c := by
      intro fd' hopen
      have hne : fd' ≠ fd := by
        rintro rfl
        rw [Function.update_self] at hopen
        exact hnext (Option.some.inj hopen)
      exact ⟨hne, by rwa [Function.update_of_ne hne] at hopen⟩
    refine ⟨fun fd' hopen => ?_, fun fd' hopen x hx => ?_, fun fd' hopen => ?_⟩
    · show (Function.update s.place s.next _ c).fd? = some fd'
      rw [Function.update_of_ne (Ne.symm hnext)]
      exact h.place fd' (hold fd' hopen).2
    · have hx : (Function.update s.place s.next (.handshake fd) x).fd? = some fd' := hx
      by_cases hxn : x = s.next
      · rw [hxn, Function.update_self] at hx
        exact absurd (Option.some.inj hx).symm (hold fd' hopen).1
      · rw [Function.update_of_ne hxn] at hx
        exact h.threads fd' (hold fd' hopen).2 x hx
    · exact h.entries fd' (hold fd' hopen).2

theorem Alone.append (h : Alone c s) {info : ClientInfo} {x : Nat}
    (hfd : (s.place x).fd? = some info.socketFd) :
    Alone c { s with clients := s.clients ++ [⟨info, x⟩] } := by
  refine ⟨h.place, h.threads, fun fd hopen entry he hentry => ?_⟩
  rcases List.mem_append.mp he with he | he
  · exact h.entries fd hopen entry he hentry
  · cases List.mem_singleton.mp he
    have hentry : info.socketFd = fd := hentry
    exact h.threads fd hopen x (hentry ▸ hfd)

theorem terminateEntry_sublist {clients rest : List Entry} {id : Int} {entry : Entry}
    (h : terminateEntry clients id = some (entry, rest)) :
    entry ∈ clients ∧ rest.Sublist clients ∧
      ∀ x ∈ clients, x ≠ entry → x ∈ rest := by
  obtain ⟨_, h⟩ := Option.ite_none_left_eq_some.mp h
  obtain ⟨e, hget, h⟩ := Option.map_eq_some_iff.mp h
  obtain ⟨rfl, rfl⟩ := Prod.mk.inj h
  refine ⟨List.mem_of_getElem? hget, List.eraseIdx_sublist .., fun x hx hne => ?_⟩
  obtain ⟨i, hi⟩ := List.getElem?_of_mem hx
  refine List.mem_eraseIdx_iff_getElem?.mpr ⟨i, ?_, hi⟩
  rintro rfl
  rw [hget] at hi
  exact hne (Option.some.inj hi).symm

theorem Alone.moves (h : Alone c s) (hfresh : Fresh s) {a : Threads.Act} {os : List Threads.Event}
    (hfree : FreeNumber c s a) (hmoves : Threads.Moves s a t os) : Alone c t := by
  cases hmoves with
  | make hclosed => exact h.make hfresh hclosed hfree
  | append _ hplace =>
    refine Alone.setPlace (Alone.append h ?_) ?_
    · rw [hplace]
      rfl
    · show _ = (s.place _).fd?
      rw [hplace]
      rfl
  | full _ hplace =>
    have hover := h.over (by rw [hplace]; rfl)
    exact ⟨hover.place, hover.threads, hover.entries⟩
  | create _ hplace =>
    have hkeep := h.setPlace (p := .reading _) (by rw [hplace]; rfl)
    exact ⟨hkeep.place, hkeep.threads, hkeep.entries⟩
  | stay | noSuchId => exact h
  | leave hplace => exact h.setPlace (by rw [hplace]; rfl)
  | remove hplace =>
    exact (h.sublist List.eraseP_sublist).setPlace (by show _ = (s.place _).fd?; rw [hplace]; rfl)
  | close hplace => exact h.over (by rw [hplace]; rfl)
  | terminate _ hfound => exact (h.sublist (terminateEntry_sublist hfound).2.1).close _

/-! ## The connection stays up -/

/-- The descriptor and the entry of a connection whose thread does not move. -/
theorem Up.keep (h : Up c s) (hplace : t.place c = s.place c)
    (hkernel : ∀ fd, (s.place c).fd? = some fd → s.kernel fd = some c → t.kernel fd = some c)
    (hentries : ∀ entry ∈ s.clients, (s.place c).fd? = some entry.fd → entry.conn = c →
      entry ∈ t.clients) : Up c t := by
  refine ⟨fun fd hfd => ?_, fun fd hfd => ?_⟩
  · rw [hplace] at hfd
    exact hkernel fd hfd (h.isOpen fd hfd)
  · rw [hplace] at hfd
    obtain ⟨entry, he, hconn, rfl⟩ := h.listed fd hfd
    refine ⟨entry, hentries entry he ?_ hconn, hconn, rfl⟩
    rcases hfd with hfd | hfd <;> (rw [hfd]; rfl)

/-- The thread goes on with its number. -/
theorem Up.setPlace (h : Up c s) {p : Place} (hfd : p.fd? = (s.place c).fd?)
    (hlisted : ∀ fd, p = .starting fd ∨ p = .reading fd →
      ∃ entry ∈ s.clients, entry.conn = c ∧ entry.fd = fd) : Up c (s.setPlace c p) := by
  refine ⟨fun fd hown => ?_, fun fd hown => ?_⟩
  · rw [State.setPlace_self, hfd] at hown
    exact h.isOpen fd hown
  · rw [State.setPlace_self] at hown
    exact hlisted fd hown

/-- Another thread goes on. -/
theorem Up.other (h : Up c s) {x : Nat} (hx : c ≠ x) (p : Place) : Up c (s.setPlace x p) :=
  h.keep (State.setPlace_of_ne s p hx) (fun _ _ hopen => hopen) fun _ he _ _ => he

/-- Nothing is asked of a connection that is over, or at the end of `chat_thread`. -/
theorem up_of_place {p : Place} (hplace : t.place c = p)
    (hopen : ∀ fd, p.fd? = some fd → t.kernel fd = some c)
    (hlisted : ∀ fd, p ≠ .starting fd ∧ p ≠ .reading fd) : Up c t := by
  refine ⟨fun fd hfd => hopen fd (hplace ▸ hfd), fun fd hfd => ?_⟩
  rw [hplace] at hfd
  rcases hfd with hfd | hfd
  · exact absurd hfd (hlisted fd).1
  · exact absurd hfd (hlisted fd).2

/-- A thread closes its number, and is over. -/
theorem Up.over (h : Up c s) (halone : Alone c s) {x : Nat} {fd : Int}
    (hfd : (s.place x).fd? = some fd) : Up c ((s.close fd).setPlace x .absent) := by
  by_cases hx : c = x
  · subst hx
    exact up_of_place (State.setPlace_self ..) (fun _ he => by cases he) fun _ =>
      ⟨(fun he => by cases he), fun he => by cases he⟩
  · refine h.keep (State.setPlace_of_ne _ _ hx) (fun fd' hown hopen => ?_) fun _ he _ _ => he
    have hne : fd' ≠ fd := by
      rintro rfl
      exact hx (halone.threads fd' hopen x hfd).symm
    exact (State.close_of_ne s hne).trans hopen

/-- A thread leaves the loop. -/
theorem Up.leaving (h : Up c s) {x : Nat} {fd : Int} (hplace : s.place x = .reading fd) :
    Up c (s.setPlace x (.leaving fd)) := by
  by_cases hx : c = x
  · subst hx
    refine h.setPlace (by rw [hplace]; rfl) ?_
    rintro fd' (hfd | hfd) <;> cases hfd
  · exact h.other hx _

theorem Up.moves (h : Up c s) (halone : Alone c s) {a : Threads.Act}
    {os : List Threads.Event} (hother : terminates c s a = false)
    (hmoves : Threads.Moves s a t os) : Up c t := by
  cases hmoves with
  | @make side fd hclosed =>
    by_cases hnext : s.next = c
    · subst hnext
      have hplace : Function.update s.place s.next (.handshake fd) s.next = .handshake fd :=
        Function.update_self ..
      refine up_of_place hplace (fun fd' hfd => ?_) fun _ =>
        ⟨(fun he => by cases he), fun he => by cases he⟩
      obtain rfl := Option.some.inj hfd
      exact Function.update_self ..
    · refine h.keep (Function.update_of_ne (Ne.symm hnext) ..) (fun fd' _ hopen => ?_)
        fun _ he _ _ => he
      have hne : fd' ≠ fd := by
        rintro rfl
        rw [hclosed] at hopen
        cases hopen
      exact (Function.update_of_ne hne ..).trans hopen
  | @append side ipAddr listeningPort x fd _ hplace _ =>
    have hgrown : Up c { s with clients := s.clients ++ [⟨⟨fd, ipAddr, listeningPort⟩, x⟩] } :=
      h.keep rfl (fun _ _ hopen => hopen) fun _ he _ _ => List.mem_append_left _ he
    by_cases hx : c = x
    · subst hx
      refine hgrown.setPlace (by show _ = (s.place c).fd?; rw [hplace]; rfl) ?_
      rintro fd' (hfd | hfd) <;> cases hfd
      exact ⟨_, List.mem_append_right _ (List.mem_singleton_self _), rfl, rfl⟩
    · exact hgrown.other hx _
  | full _ hplace =>
    have hover := h.over halone (by rw [hplace]; rfl)
    exact ⟨hover.isOpen, hover.listed⟩
  | @create side x fd _ hplace =>
    have hkeep : Up c (s.setPlace x (.reading fd)) := by
      by_cases hx : c = x
      · subst hx
        refine h.setPlace (by rw [hplace]; rfl) ?_
        rintro fd' (hfd | hfd) <;> cases hfd
        exact h.listed fd (Or.inl hplace)
      · exact h.other hx _
    exact ⟨hkeep.isOpen, hkeep.listed⟩
  | stay | noSuchId => exact h
  | @leave x message fd hplace =>
    exact h.leaving hplace
  | @remove x message fd hplace =>
    have hfd : (s.place x).fd? = some fd := by rw [hplace]; rfl
    by_cases hx : c = x
    · subst hx
      refine up_of_place (State.setPlace_self ..) (fun fd' hown => ?_) fun _ =>
        ⟨(fun he => by cases he), fun he => by cases he⟩
      obtain rfl := Option.some.inj hown
      exact h.isOpen _ hfd
    · refine h.keep (State.setPlace_of_ne _ _ hx) (fun _ _ hopen => hopen) fun entry he hown _ => ?_
      -- another thread has another number
      have hne : entry.fd ≠ fd := by
        intro heq
        rw [heq] at hown
        exact hx (halone.threads fd (h.isOpen fd hown) x hfd).symm
      exact (List.mem_eraseP_of_neg (by simpa using hne)).mpr he
  | close hplace => exact h.over halone (by rw [hplace]; rfl)
  | @terminate id entry clients _ hfound =>
    obtain ⟨hmem, _, hkept⟩ := terminateEntry_sublist hfound
    have hconn : entry.conn ≠ c := by
      rw [terminates, hfound] at hother
      simpa using hother
    refine h.keep rfl (fun fd _ hopen => ?_) fun e he _ hc => ?_
    · have hne : fd ≠ entry.fd := by
        rintro rfl
        exact hconn (halone.entries _ hopen entry hmem rfl)
      exact (State.close_of_ne _ hne).trans hopen
    · exact hkept e he fun heq => hconn (heq ▸ hc)

/-- An entry is old, or that of the connection whose thread goes through its section. -/
theorem mem_clients_of_moves {a : Threads.Act} {os : List Threads.Event}
    (hmoves : Threads.Moves s a t os) {entry : Entry} (he : entry ∈ t.clients) :
    entry ∈ s.clients ∨ ∃ side ipAddr listeningPort, a = .enter side ipAddr listeningPort ∧
      s.busy side = some entry.conn ∧ entry.info.listeningPort = listeningPort := by
  cases hmoves with
  | @append side ipAddr listeningPort x fd hbusy =>
    rcases List.mem_append.mp he with he | he
    · exact Or.inl he
    · cases List.mem_singleton.mp he
      exact Or.inr ⟨side, ipAddr, listeningPort, rfl, hbusy, rfl⟩
  | remove => exact Or.inl (List.mem_of_mem_eraseP he)
  | terminate _ hfound => exact Or.inl ((terminateEntry_sublist hfound).2.1.subset he)
  | make | full | create | stay | leave | close | noSuchId => exact Or.inl he

end Steps

/-! ## In `ui_run` -/

open UiRun (Pc)

/-- The step is allowed. -/
def Free (c : Nat) (s : UiRun.State) : UiRun.Act → Prop
  | .thread a => FreeNumber c s.threads a
  | _ => True

instance (c : Nat) (s : UiRun.State) (a : UiRun.Act) : Decidable (Free c s a) :=
  match a with
  | .thread a => inferInstanceAs (Decidable (FreeNumber c s.threads a))
  | .call _ | .read _ _ | .lookup _ | .print _ => isTrue trivial

/-- The user of the process terminates the connection. -/
def ends (c : Nat) (s : UiRun.State) : UiRun.Act → Bool
  | .thread a => terminates c s.threads a
  | _ => false

/-- The handshake of the connection has this port. -/
def Names (c : Nat) (port : Int) (s : UiRun.State) (a : UiRun.Act) : Prop :=
  ∀ side ipAddr listeningPort, a = .thread (.enter side ipAddr listeningPort) →
    s.threads.busy side = some c → listeningPort = port

/-- The connection in the process, until the user of the process has terminated it
(`gone`). -/
structure Followed (c : Nat) (port : Int) (gone : Bool) (s : UiRun.State) : Prop where
  sound : s.Sound
  alone : Alone c s.threads
  up : gone = false → Up c s.threads
  file : ∀ x, c ∈ (s.ui x).file? → x = c
  own : gone = false → s.ui c ≠ .idle → (s.ui c).file? = some c
  port : ∀ entry ∈ s.threads.clients, entry.conn = c → entry.info.listeningPort = port

theorem followed_start (c : Nat) (port : Int) : Followed c port false UiRun.start where
  sound := UiRun.sound_start
  alone := alone_start c
  up := fun _ => up_start c
  file := fun _ h => by cases h
  own := fun _ h => absurd rfl h
  port := fun _ h => by cases h

section UiRun

variable {c : Nat} {port : Int} {gone : Bool} {s t : UiRun.State} {os : List UiRun.Event}
  (h : Followed c port gone s)
include h

/-- A thread goes on in the loop. -/
theorem Followed.setUi {x : Nat} (pc : Pc) (hloop : s.inLoop x = true)
    (hslots : ∀ file found buffer, pc = .printing file found buffer → found.slot < maxClients)
    (hfile : c ∈ pc.file? → x = c) (hown : gone = false → x = c → pc ≠ .idle → pc.file? = some c) :
    Followed c port gone (s.setUi x pc) := by
  refine ⟨h.sound.setUi hloop hslots, h.alone, h.up, fun y hy => ?_, fun hgone hne => ?_, h.port⟩
  · by_cases he : y = x
    · rw [he, UiRun.State.setUi_self] at hy
      exact he.trans (hfile hy)
    · rw [UiRun.State.setUi_of_ne s pc he] at hy
      exact h.file y hy
  · by_cases he : c = x
    · rw [he, UiRun.State.setUi_self] at hne
      rw [he, UiRun.State.setUi_self]
      exact he ▸ hown hgone he.symm hne
    · rw [UiRun.State.setUi_of_ne s pc he] at hne ⊢
      exact h.own hgone hne

theorem Followed.leave {x : Nat} {fd : Int} (hplace : s.threads.place x = .reading fd) :
    Followed c port gone (s.leave x fd) := by
  have hidle := h.setUi .idle (UiRun.State.inLoop_of_place hplace) (fun _ _ _ he => by cases he)
    (fun he => by cases he) fun _ _ hne => absurd rfl hne
  refine ⟨h.sound.leave hplace, ?_, fun hgone => ?_, hidle.file, hidle.own, h.port⟩
  · exact h.alone.setPlace (by rw [hplace]; rfl)
  · exact (h.up hgone).leaving hplace

theorem Followed.moves {a : UiRun.Act} (hfree : Free c s a) (hnames : Names c port s a)
    (hmoves : UiRun.Moves s a t os) : Followed c port (gone || ends c s a) t := by
  have hsound := h.sound.moves hmoves
  have hstays : ∀ {a}, ends c s a = false → Followed c port gone t →
      Followed c port (gone || ends c s a) t := by
    intro a hends ht
    rwa [hends, Bool.or_false]
  cases hmoves with
  | @thread a threads es table hstep harray hout =>
    have hthreads := Threads.step_moves hstep
    refine ⟨hsound, h.alone.moves h.sound.fresh hfree hthreads, fun hgone => ?_, h.file,
      fun hgone => h.own ?_, ?_⟩
    · obtain ⟨hgone, hends⟩ := Bool.or_eq_false_iff.mp hgone
      exact (h.up hgone).moves h.alone hends hthreads
    · exact (Bool.or_eq_false_iff.mp hgone).1
    · intro entry he hconn
      rcases mem_clients_of_moves hthreads he with hold | ⟨side, ipAddr, p, rfl, hbusy, hp⟩
      · exact h.port entry hold hconn
      · rw [hp]
        exact hnames side ipAddr p rfl (hconn ▸ hbusy)
  | @call x fd hplace hui =>
    refine hstays rfl (h.setUi _ (UiRun.State.inLoop_of_place hplace) (fun _ _ _ he => by cases he)
      (fun hopen => ?_) fun hgone hx _ => ?_)
    · exact h.alone.threads fd hopen x (by rw [hplace]; rfl)
    · subst hx
      exact (h.up hgone).isOpen fd (by rw [hplace]; rfl)
  | @received x file fd received buffer hplace hui =>
    have hfile : (s.ui x).file? = some file := by rw [hui]; rfl
    refine hstays rfl (h.setUi _ (UiRun.State.inLoop_of_place hplace) (fun _ _ _ he => by cases he)
      (fun he => h.file x (hfile.trans he)) fun hgone hx _ => ?_)
    have hown := h.own hgone (by rw [← hx, hui]; simp)
    rw [← hx] at hown
    exact hx ▸ hfile.symm.trans hown
  | ended hplace => exact hstays rfl (h.leave hplace)
  | leave hplace => exact hstays rfl (h.leave hplace)
  | @found x file slot fd buffer peer hplace hui hlookup =>
    have hfile : (s.ui x).file? = some file := by rw [hui]; rfl
    refine hstays rfl (h.setUi _ (UiRun.State.inLoop_of_place hplace) (fun _ found _ he => ?_)
      (fun he => h.file x (hfile.trans he)) fun hgone hx _ => ?_)
    · cases he
      exact hsound.slots x file _ buffer (UiRun.State.setUi_self ..)
    · have hown := h.own hgone (by rw [← hx, hui]; simp)
      rw [← hx] at hown
      exact hx ▸ hfile.symm.trans hown
  | print hplace =>
    exact hstays rfl (h.setUi .idle (UiRun.State.inLoop_of_place hplace)
      (fun _ _ _ he => by cases he) (fun he => by cases he) fun _ _ hne => absurd rfl hne)

/-- While the connection is up `ui_run` finds its peer. -/
theorem Followed.lookup_ne_none (hport : port ≠ -1) (hgone : gone = false) {fd : Int}
    (hplace : s.threads.place c = .reading fd) : lookupPeer s.table fd ≠ some none := by
  have hopen := (h.up hgone).isOpen fd (by rw [hplace]; rfl)
  obtain ⟨own, hown, _, hfd⟩ := (h.up hgone).listed fd (Or.inr hplace)
  -- the first entry with the number is one of the connection, so its port is right
  obtain ⟨peer, hfind⟩ : ∃ peer, s.infos.find? (fun info => info.socketFd == fd) = some peer := by
    rw [← Option.isSome_iff_exists, List.find?_isSome]
    exact ⟨own.info, List.mem_map_of_mem hown, beq_iff_eq.mpr hfd⟩
  obtain ⟨entry, hentry, hinfo⟩ := List.mem_map.mp (List.mem_of_find?_eq_some hfind)
  have hnumber : peer.socketFd = fd := by simpa using List.find?_some hfind
  have hconn := h.alone.entries fd hopen entry hentry (by rw [← hnumber, ← hinfo]; rfl)
  have hpeer : peerInfo s.infos fd = some peer := by
    rw [peerInfo, hfind]
    refine Option.filter_eq_some_iff.mpr ⟨rfl, ?_⟩
    rw [← hinfo, h.port entry hentry hconn]
    simpa using hport
  obtain ⟨found, hfound, hsame, _⟩ := h.sound.table.lookupPeer fd
  rw [hfound]
  rintro he
  rw [Option.some.inj he, hpeer] at hsame
  cases hsame

end UiRun

/-- When the kernel gives out no number that a thread still uses, every connection has its own. -/
theorem meets_free_of_unused {c : Nat} {as : List UiRun.Act} {t : UiRun.State}
    {os : List UiRun.Event} (hunused : Machine.Meets UiRun.step UiRun.Unused UiRun.start as)
    (h : Machine.run UiRun.step UiRun.start as = some (t, os)) :
    Machine.Meets UiRun.step (Free c) UiRun.start as := by
  have hsame : ∀ s a t os, s.OwnFiles → UiRun.step s a = some (t, os) →
      (UiRun.Unused s a ↔ UiRun.Unused s a ∧ Free c s a) := by
    intro s a t os hfiles hstep
    refine ⟨fun hu => ⟨hu, ?_⟩, fun hand => hand.1⟩
    cases UiRun.step_moves hstep with
    | @thread a threads es table hthreads =>
      cases Threads.step_moves hthreads with
      | @make side fd hclosed =>
        refine fun hnext => ⟨fun x hx => hu x (hnext ▸ hx), fun entry he hfd => ?_⟩
        have hopen := (hfiles.threads.entries entry he).1
        rw [hfd, hclosed] at hopen
        cases hopen
      | _ => trivial
    | _ => trivial
  have hboth := (Machine.meets_congr hsame
    (fun s a t os hfiles hu hstep => hfiles.moves hu (UiRun.step_moves hstep))
    UiRun.ownFiles_start h).mp hunused
  exact Machine.meets_mono (fun _ _ hand => hand.2) hboth

end OwnNumber
end Chat
end LinuxEmbedded
