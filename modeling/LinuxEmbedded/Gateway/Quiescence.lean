import LinuxEmbedded.Gateway.ShutdownWakeup

/-
What the shutdown finds still running.

Nothing joins the threads.  `main` destroys `conn_mutex` and frees the buffer when
its polling loop is over, wherever the others are.  They keep off both if, when
`conn_mutex` is destroyed, the connection manager has been through
`cleanup_connections` or is in a `select` that does not return any more and no handler
is at `conn_mutex` in another thread, no consumer is on its way into `sbuffer_pop` or
inside when the buffer is freed, and SIGINT finds `main` from then on.
-/
namespace LinuxEmbedded
namespace Gateway

namespace Sbuffer

variable {T : Type} {sb sb' : Sbuffer T}

theorem sbufferPushBody_size {data : SensorData T} {logs : List (Message T)}
    (h : sbufferPushBody sb data = some (sb', logs)) : sb'.size = sb.size := by
  have hoverwrite : ∀ {sb sb' : Sbuffer T} {logs}, sbufferOverwrite sb = some (sb', logs) →
      sb'.size = sb.size := by
    intro sb sb' logs h
    obtain ⟨tail, _, h⟩ := Option.bind_eq_some_iff.mp h
    obtain ⟨record, _, h⟩ := Option.bind_eq_some_iff.mp h
    rw [← (Prod.mk.inj (Option.some.inj h)).1]
  have hstore : ∀ {sb sb' : Sbuffer T}, sbufferStore sb data = some sb' → sb'.size = sb.size := by
    intro sb sb' h
    obtain ⟨buffer, _, h⟩ := Option.bind_eq_some_iff.mp h
    obtain ⟨head, _, h⟩ := Option.bind_eq_some_iff.mp h
    rw [← Option.some.inj h]
  unfold sbufferPushBody at h
  split at h
  · obtain ⟨⟨sb₁, dropped⟩, hfirst, h⟩ := Option.bind_eq_some_iff.mp h
    obtain ⟨sb₂, hsecond, h⟩ := Option.bind_eq_some_iff.mp h
    rw [← (Prod.mk.inj (Option.some.inj h)).1, hstore hsecond, hoverwrite hfirst]
  · obtain ⟨⟨sb₁, dropped⟩, hfirst, h⟩ := Option.bind_eq_some_iff.mp h
    obtain ⟨sb₂, hsecond, h⟩ := Option.bind_eq_some_iff.mp h
    rw [← (Prod.mk.inj (Option.some.inj h)).1, hstore hsecond,
      ← (Prod.mk.inj (Option.some.inj hfirst)).1]

theorem sbufferTake_size {data : SensorData T} (h : sbufferTake sb = some (data, sb')) :
    sb'.size = sb.size := by
  obtain ⟨record, _, h⟩ := Option.bind_eq_some_iff.mp h
  obtain ⟨tail, _, h⟩ := Option.bind_eq_some_iff.mp h
  rw [← (Prod.mk.inj (Option.some.inj h)).2]

end Sbuffer

namespace Shutdown

variable {T C : Type}

/-- The thread will neither use `conn_mutex` nor enter the buffer's operations once
the flag is set. -/
def Pc.released : Pc T → Bool
  | .main _ => true
  | .connection p =>
    match p with
    | .closing | .ended => true
    | _ => false
  | .consumer p =>
    match p with
    | .popping _ | .popLock _ | .testing _ | .waiting _ | .asleep _ | .woken _
    | .popUnlock _ _ => false
    | _ => true

def HandlerPc.released : HandlerPc → Bool
  | .idle | .logging => true
  | _ => false

/-- Blocked in `select`. -/
def Pc.selecting : Pc T → Bool
  | .connection .selecting => true
  | _ => false

/-- Nobody but `main` will use `conn_mutex`, unless `select` returns. -/
def ConnReleased (s : State T C) : Prop :=
  ((s.pc .connectionManager).released = true ∨ (s.pc .connectionManager).selecting = true) ∧
    ∀ t, t ≠ .main → (s.handler t).released = true

/-- No consumer will work on the buffer. -/
def SbufferReleased (s : State T C) : Prop := ∀ c, (s.pc (.consumer c)).released = true

/-- `main` destroys `conn_mutex` and calls `sbuffer_free` when the others have let go
of them, and from the first of these on `select` does not return and SIGINT is delivered
to `main` only. -/
def Calm (s : State T C) : Act T C → Prop
  | .run .main _ =>
    (s.pc .main = .main .destroying → ConnReleased s) ∧
      (s.pc .main = .main .freeing → SbufferReleased s)
  | .run .connectionManager _ => s.stage < 4 ∨ (s.pc .connectionManager).released = true
  | .sigint t => s.stage < 4 ∨ t = .main
  | _ => True

section Decide

variable [DecidableEq C] [Fintype C]

instance (s : State T C) : Decidable (ConnReleased s) :=
  decidable_of_iff (((s.pc .connectionManager).released = true ∨
      (s.pc .connectionManager).selecting = true) ∧
      (s.handler .connectionManager).released = true ∧
      ∀ c, (s.handler (.consumer c)).released = true) <| by
    refine and_congr_right fun _ => ⟨?_, ?_⟩
    · rintro ⟨hconnection, hconsumer⟩ t ht
      cases t with
      | main => exact absurd rfl ht
      | connectionManager => exact hconnection
      | consumer c => exact hconsumer c
    · intro h
      exact ⟨h _ (by simp), fun c => h _ (by simp)⟩

instance (s : State T C) : Decidable (SbufferReleased s) :=
  inferInstanceAs (Decidable (∀ _, _))

instance (s : State T C) : (a : Act T C) → Decidable (Calm s a)
  | .run .main _ =>
    match h : s.pc .main with
    | .main p =>
      decidable_of_iff ((p = .destroying → ConnReleased s) ∧ (p = .freeing → SbufferReleased s))
        (by simp [Calm, h])
    | .connection _ | .consumer _ => isTrue (by simp [Calm, h])
  | .run .connectionManager _ => inferInstanceAs (Decidable (_ < _ ∨ _ = _))
  | .run (.consumer _) _ | .handle _ | .wake _ => isTrue trivial
  | .sigint .main | .sigint .connectionManager | .sigint (.consumer _) =>
    inferInstanceAs (Decidable (_ < _ ∨ _ = _))

end Decide

/-- What may come after what: no step inside a push or a pop after `sbuffer_free`
has begun, and no lock or unlock of `conn_mutex` by another thread than `main`
after it is destroyed. -/
def MayPrecede (e e' : Event C) : Prop :=
  (e = .freeBegun → ∀ t, e' ≠ .inSbuffer t) ∧
    (e = .connDestroyed → ∀ t, t ≠ .main → e' ≠ .onConnMutex t)

/-- The shutdown is quiescent, and no push or pop works on a freed buffer. -/
def Quiescent (os : List (Event C)) : Prop := os.Pairwise MayPrecede ∧ ∀ t, .onFreed t ∉ os

/-! ## Threads that have let go -/

/-- With the flag set a thread that has let go stays away. -/
theorem next_released {s : State T C} {answer : Answer T C} {t : Thread C} {pc pc' : Pc T}
    {e : Effect T C} (hof : pc.Of t) (ht : t ≠ .main) (hflag : s.shutdownFlag = true)
    (hreleased : pc.released = true) (h : next s answer pc = some (e, pc')) :
    e = .skip ∧ pc.inSbuffer = false ∧ pc'.released = true := by
  cases pc with
  | main p =>
    cases t with
    | main => exact absurd rfl ht
    | _ => exact hof.elim
  | connection p =>
    obtain ⟨⟨e', p'⟩, hp, he⟩ := Option.map_eq_some_iff.mp h
    obtain ⟨rfl, rfl⟩ := Prod.mk.inj he
    cases p <;> simp only [Pc.released, Bool.false_eq_true] at hreleased
    · cases hp
      exact ⟨rfl, rfl, rfl⟩
    · cases hp
  | consumer p =>
    obtain ⟨⟨e', p'⟩, hp, he⟩ := Option.map_eq_some_iff.mp h
    obtain ⟨rfl, rfl⟩ := Prod.mk.inj he
    cases p <;> simp only [Pc.released, Bool.false_eq_true] at hreleased
    all_goals simp only [consumerNext, hflag] at hp
    all_goals repeat' split at hp
    all_goals cases hp
    all_goals simp [Pc.inSbuffer, Pc.released]

@[simp] theorem wake_released (pc : Pc T) : pc.wake.released = pc.released := by
  unfold Pc.wake
  split <;> rfl

@[simp] theorem wake_selecting (pc : Pc T) : pc.wake.selecting = pc.selecting := by
  unfold Pc.wake
  split <;> rfl

/-- `main` neither pushes nor pops. -/
theorem mainNext_quiet {s : State T C} {p p' : MainPc} {e : Effect T C}
    (h : mainNext s p = some (e, p')) : (∀ data, e ≠ .store data) ∧ e ≠ .take := by
  cases p <;> simp only [mainNext] at h <;> (try split at h) <;> cases h <;> simp

def Effect.usesConn : Effect T C → Bool
  | .lockConn | .unlockConn | .removed => true
  | _ => false

theorem consumerNext_usesConn {s : State T C} {answer : Answer T C} {p p' : ConsumerPc}
    {e : Effect T C} (h : consumerNext s answer p = some (e, p')) : e.usesConn = false := by
  simp only [consumerNext] at h
  repeat' split at h
  all_goals cases h
  all_goals rfl

/-- What `main` has passed when it destroys, frees and clears. -/
theorem next_marks {s : State T C} {answer : Answer T C} {t : Thread C} {pc pc' : Pc T}
    {e : Effect T C} (hof : pc.Of t) (h : next s answer pc = some (e, pc')) :
    (e = .destroyConn → t = .main ∧ 4 ≤ pc'.stage) ∧
      (e = .beginFree → t = .main ∧ 4 ≤ pc.stage ∧ 5 ≤ pc'.stage) ∧
      (e = .clear → t = .main ∧ 5 ≤ pc'.stage) := by
  by_cases hlast : e.last = true
  · cases pc with
    | main p =>
      have ht : t = .main := by
        cases t with
        | main => rfl
        | _ => exact hof.elim
      obtain ⟨⟨e', p'⟩, hp, he⟩ := Option.map_eq_some_iff.mp h
      obtain ⟨rfl, rfl⟩ := Prod.mk.inj he
      cases p <;> simp only [mainNext] at hp <;> (try split at hp) <;> cases hp <;>
        simp [ht, Pc.stage, MainPc.stage]
    | _ =>
      rcases next_last h hlast with ⟨_, hpc⟩ | ⟨_, hpc⟩ | hle
      · cases hpc
      · cases hpc
      · cases hle
  · refine ⟨?_, ?_, ?_⟩ <;> intro he <;> subst he <;> exact absurd rfl hlast

section Events

variable {s : State T C} {t : Thread C} {b : Bool} {e : Effect T C}

theorem mem_events {ev : Event C} (h : ev ∈ events s t b e) :
    (ev = .inSbuffer t ∧ b = true) ∨ (ev = .onConnMutex t ∧ e.usesConn = true) ∨
      (ev = .connDestroyed ∧ e = .destroyConn) ∨ (ev = .freeBegun ∧ e = .beginFree) ∨
      (ev = .onFreed t ∧ s.sb.size = 0 ∧ ((∃ data, e = .store data) ∨ e = .take)) := by
  rcases List.mem_append.mp h with h | h
  · cases b with
    | true => exact Or.inl ⟨List.mem_singleton.mp h, rfl⟩
    | false => cases h
  · cases e <;> simp only [List.not_mem_nil, List.mem_singleton] at h
    all_goals try split at h
    all_goals simp_all [Effect.usesConn]

theorem events_pairwise : (events s t b e).Pairwise MayPrecede := by
  have hfirst : ∀ ev : Event C, MayPrecede (.inSbuffer t) ev :=
    fun ev => ⟨(by intro h; cases h), (by intro h; cases h)⟩
  have hone : ∀ p : Prop, [Decidable p] → ∀ ev : Event C,
      (if p then [ev] else []).Pairwise MayPrecede := by
    intro p _ ev
    split <;> simp
  unfold events
  cases b <;> cases e <;> simp [hfirst, hone]

theorem Quiescent.append {os os' : List (Event C)} (h : Quiescent os)
    (h' : os'.Pairwise MayPrecede) (hfreed : ∀ t, .onFreed t ∉ os')
    (hcross : ∀ ev ∈ os, ∀ ev' ∈ os', MayPrecede ev ev') : Quiescent (os ++ os') := by
  refine ⟨List.pairwise_append.mpr ⟨h.1, h', hcross⟩, ?_⟩
  intro t hmem
  rcases List.mem_append.mp hmem with hmem | hmem
  · exact h.2 t hmem
  · exact hfreed t hmem

end Events

section Watch

variable [DecidableEq C] [Fintype C] {s v : State T C} {a : Act T C} {os : List (Event C)}

theorem apply_size {u : State T C} {t : Thread C} {e : Effect T C} (h : apply s t e = some u)
    (he : e ≠ .clear) : u.sb.size = s.sb.size := by
  cases e with
  | store data =>
    simp only [apply] at h
    split at h
    · next sb logs hbody =>
      rw [← Option.some.inj h]
      exact Sbuffer.sbufferPushBody_size hbody
    · rw [← Option.some.inj h]
      rfl
  | take =>
    simp only [apply] at h
    split at h
    · next data sb htake =>
      rw [← Option.some.inj h]
      exact Sbuffer.sbufferTake_size htake
    · rw [← Option.some.inj h]
      rfl
  | clear => exact absurd rfl he
  | signal woken =>
    obtain ⟨_, h⟩ := Option.ite_none_right_eq_some.mp h
    rw [← Option.some.inj h]
    cases woken <;> rfl
  | _ =>
    simp only [apply] at h
    repeat' split at h
    all_goals cases h
    all_goals rfl

/-- A thread that `select` blocks stays there until it runs. -/
theorem selecting_moves (hmove : Moves s a v os) {t : Thread C}
    (hidle : ∀ answer, a ≠ .run t answer) (h : (s.pc t).selecting = true) :
    (v.pc t).selecting = true := by
  have hsame : ∀ pc, pc = s.pc t ∨ pc = (s.pc t).wake → pc.selecting = true := by
    rintro pc (rfl | rfl)
    · exact h
    · rwa [wake_selecting]
  cases hmove with
  | @run x answer e pc u on idle next apply =>
    have hx : t ≠ x := by
      rintro rfl
      exact hidle answer rfl
    have hv : (u.goto x pc).pc t = u.pc t := Function.update_of_ne hx ..
    exact hsame _ (hv ▸ apply_pc apply t)
  | sigint _ => exact h
  | @handle x e hpc u next apply => exact hsame _ (apply_pc apply t)
  | @wake c =>
    refine hsame _ ?_
    by_cases hx : t = .consumer c
    · rw [hx]
      exact Or.inr (goto_pc_self ..)
    · exact Or.inl (Function.update_of_ne hx ..)

/-- With the flag set a thread that has let go stays so. -/
theorem released_moves (hinv : Inv s) (hstage : 1 ≤ s.stage) (hmove : Moves s a v os)
    {t : Thread C} (h : (s.pc t).released = true) : (v.pc t).released = true := by
  have hwoken : ∀ {u : State T C} {x : Thread C} {e}, apply s x e = some u →
      (u.pc t).released = true := by
    intro u x e happly
    rcases apply_pc happly t with he | he
    · rw [he]
      exact h
    · rw [he, wake_released]
      exact h
  cases hmove with
  | @run x answer e pc u on idle next apply =>
    show (Function.update u.pc x pc t).released = true
    by_cases hx : t = x
    · subst hx
      rw [Function.update_self]
      by_cases hmain : t = .main
      · subst hmain
        have hof := next_of (hinv.of .main) next
        cases pc with
        | main p => rfl
        | _ => exact hof.elim
      · exact (next_released (hinv.of t) hmain (hinv.flag hstage) h next).2.2
    · rw [Function.update_of_ne hx]
      exact hwoken apply
  | sigint _ => exact h
  | @handle x e hpc u next apply =>
    have hu : (u.pc t).released = true := hwoken apply
    exact hu
  | @wake c =>
    show (Function.update s.pc (.consumer c) _ t).released = true
    by_cases hx : t = .consumer c
    · subst hx
      rw [Function.update_self, wake_released]
      exact h
    · rw [Function.update_of_ne hx]
      exact h

/-- A handler past `conn_mutex` stays so until the next SIGINT. -/
theorem handler_released_moves (hmove : Moves s a v os) {t : Thread C} (hsigint : a ≠ .sigint t)
    (h : (s.handler t).released = true) : (v.handler t).released = true := by
  cases hmove with
  | @run x answer e pc u on idle next apply =>
    show (u.handler t).released = true
    rw [apply_handler apply]
    exact h
  | @sigint x alive =>
    show (Function.update s.handler x .flagLock t).released = true
    rw [Function.update_of_ne (by rintro rfl; exact hsigint rfl)]
    exact h
  | @handle x e hpc u next apply =>
    show (Function.update u.handler x hpc t).released = true
    rw [apply_handler apply]
    by_cases hx : t = x
    · subst hx
      rw [Function.update_self]
      cases hh : s.handler t <;> rw [hh] at next h <;>
        simp only [HandlerPc.released, Bool.false_eq_true] at h
      · cases next
      · cases next
        rfl
    · rw [Function.update_of_ne hx]
      exact h
  | wake => exact h

/-- If the connection manager runs it has let go. -/
def RunsReleased (s : State T C) (a : Act T C) : Prop :=
  ∀ answer, a = .run .connectionManager answer → (s.pc .connectionManager).released = true

theorem ConnReleased.moves (h : ConnReleased s) (hinv : Inv s) (hstage : 1 ≤ s.stage)
    (hruns : RunsReleased s a) (hsigint : ∀ t, a = .sigint t → t = .main)
    (hmove : Moves s a v os) : ConnReleased v := by
  refine ⟨?_, ?_⟩
  · by_cases hreleased : (s.pc .connectionManager).released = true
    · exact Or.inl (released_moves hinv hstage hmove hreleased)
    · refine Or.inr (selecting_moves hmove ?_ (h.1.resolve_left hreleased))
      intro answer ha
      exact hreleased (hruns answer ha)
  intro t ht
  exact handler_released_moves hmove (fun ha => ht (hsigint t ha)) (h.2 t ht)

omit [DecidableEq C] [Fintype C] in
/-- A handler's effect shows the use of `conn_mutex` only. -/
theorem handlerNext_events {t : Thread C} {h h' : HandlerPc} {e : Effect T C}
    (hnext : handlerNext h = some (e, h')) {ev : Event C} (hev : ev ∈ events s t false e) :
    ev = .onConnMutex t ∧ h.released = false := by
  rcases mem_events hev with ⟨_, hb⟩ | ⟨he, huses⟩ | ⟨_, he⟩ | ⟨_, he⟩ | ⟨_, _, he⟩
  · cases hb
  · cases h <;> cases hnext <;> simp_all [Effect.usesConn, HandlerPc.released]
  all_goals cases h <;> cases hnext <;> simp at he

/-- Once it is released `conn_mutex` is used by `main` only. -/
theorem ConnReleased.events (h : ConnReleased s) (hinv : Inv s) (hstage : 1 ≤ s.stage)
    (hruns : RunsReleased s a) (hmove : Moves s a v os) {t : Thread C}
    (hev : .onConnMutex t ∈ os) : t = .main := by
  by_contra ht
  cases hmove with
  | @run x answer e pc u on idle next apply =>
    rcases mem_events hev with ⟨he, _⟩ | ⟨he, huses⟩ | ⟨he, _⟩ | ⟨he, _⟩ | ⟨he, _⟩
    · cases he
    · cases he
      have hof := hinv.of t
      cases hp : s.pc t with
      | main p =>
        rw [hp] at hof
        cases t with
        | main => exact ht rfl
        | _ => exact hof.elim
      | connection p =>
        have htc : t = .connectionManager := by
          rw [hp] at hof
          cases t with
          | connectionManager => rfl
          | _ => exact hof.elim
        subst htc
        have he := (next_released hof ht (hinv.flag hstage) (hruns answer rfl) next).1
        rw [he] at huses
        cases huses
      | consumer p =>
        rw [hp] at next
        obtain ⟨⟨e', p'⟩, hp', he⟩ := Option.map_eq_some_iff.mp next
        obtain ⟨rfl, rfl⟩ := Prod.mk.inj he
        rw [consumerNext_usesConn hp'] at huses
        cases huses
    all_goals cases he
  | sigint _ => cases hev
  | @handle x e hpc u next apply =>
    obtain ⟨he, hunreleased⟩ := handlerNext_events next hev
    cases he
    rw [h.2 t ht] at hunreleased
    cases hunreleased
  | wake => cases hev

/-- Once everyone has let go nothing is pushed or popped. -/
theorem SbufferReleased.events (h : SbufferReleased s) (hruns : RunsReleased s a) (hinv : Inv s)
    (hstage : 1 ≤ s.stage) (hmove : Moves s a v os) {t : Thread C} :
    .inSbuffer t ∉ os ∧ .onFreed t ∉ os := by
  have hreleased : ∀ x answer, a = .run x answer → x ≠ .main → (s.pc x).released = true := by
    intro x answer ha hx
    cases x with
    | main => exact absurd rfl hx
    | connectionManager => exact hruns answer ha
    | consumer c => exact h c
  cases hmove with
  | @run x answer e pc u on idle next apply =>
    have hquiet : (s.pc x).inSbuffer = false ∧ (∀ data, e ≠ .store data) ∧ e ≠ .take := by
      by_cases hx : x = .main
      · subst hx
        have hof := hinv.of .main
        cases hp : s.pc .main with
        | main p =>
          rw [hp] at next
          obtain ⟨⟨e', p'⟩, hp', he⟩ := Option.map_eq_some_iff.mp next
          obtain ⟨rfl, rfl⟩ := Prod.mk.inj he
          exact ⟨rfl, mainNext_quiet hp'⟩
        | _ =>
          rw [hp] at hof
          exact hof.elim
      · obtain ⟨he, hout, _⟩ :=
          next_released (hinv.of x) hx (hinv.flag hstage) (hreleased x answer rfl hx) next
        simp [he, hout]
    obtain ⟨hout, hstore, htake⟩ := hquiet
    refine ⟨?_, ?_⟩ <;> intro hev <;>
      rcases mem_events hev with ⟨he, hb⟩ | ⟨he, _⟩ | ⟨he, _⟩ | ⟨he, _⟩ | ⟨he, _, hm⟩ <;>
      try cases he
    · rw [hout] at hb
      cases hb
    · rcases hm with ⟨data, hm⟩ | hm
      · exact hstore data hm
      · exact htake hm
  | sigint _ | wake => simp
  | @handle x e hpc u next apply =>
    refine ⟨?_, ?_⟩ <;> intro hev <;> cases (handlerNext_events next hev).1

/-! ## The run -/

/-- What is known of a run and the state it has reached. -/
structure Watched (os : List (Event C)) (s : State T C) : Prop where
  inv : Inv s
  conn : 4 ≤ s.stage → ConnReleased s
  sbuffer : 5 ≤ s.stage → SbufferReleased s
  size_pos : s.stage < 5 → 0 < s.sb.size
  free : .freeBegun ∈ os → 5 ≤ s.stage
  destroy : .connDestroyed ∈ os → 4 ≤ s.stage
  quiescent : Quiescent os

omit [DecidableEq C] [Fintype C] in
theorem watched_start {sb : Sbuffer T} (hsize : 0 < sb.size) :
    Watched [] (start sb : State T C) where
  inv := inv_start sb
  conn := by simp [State.stage, start, startPc, Pc.stage, MainPc.stage]
  sbuffer := by simp [State.stage, start, startPc, Pc.stage, MainPc.stage]
  size_pos := fun _ => hsize
  free := by simp
  destroy := by simp
  quiescent := ⟨List.Pairwise.nil, by simp⟩

/-- What an event says of the step that shows it. -/
theorem moves_marks (hinv : Inv s) (hmove : Moves s a v os) {ev : Event C} (hev : ev ∈ os) :
    (ev = .freeBegun → 4 ≤ s.stage ∧ 5 ≤ v.stage) ∧ (ev = .connDestroyed → 4 ≤ v.stage) ∧
      ∀ t, ev = .onFreed t → s.sb.size = 0 := by
  cases hmove with
  | @run t answer e pc u on idle next apply =>
    obtain ⟨hdestroy, hfree, _⟩ := next_marks (hinv.of t) next
    have hv : t = .main → (u.goto t pc).stage = pc.stage := by
      rintro rfl
      exact goto_main_stage u pc
    rcases mem_events hev with ⟨he, _⟩ | ⟨he, _⟩ | ⟨he, hm⟩ | ⟨he, hm⟩ | ⟨he, hsize, _⟩
    · simp [he]
    · simp [he]
    · obtain ⟨ht, hle⟩ := hdestroy hm
      simpa [he, hv ht] using hle
    · obtain ⟨ht, hle⟩ := hfree hm
      subst ht
      have hs : s.stage = (s.pc .main).stage := rfl
      simpa [he, hv, hs] using hle
    · simpa [he] using hsize
  | sigint _ => cases hev
  | @handle t e hpc u next apply =>
    simp [(handlerNext_events next hev).1]
  | wake => cases hev

/-- Before `main` begins to free it, the buffer keeps its size. -/
theorem moves_size (hinv : Inv s) (hmove : Moves s a v os) (hstage : v.stage < 5) :
    v.sb.size = s.sb.size := by
  cases hmove with
  | @run t answer e pc u on idle next apply =>
    by_cases he : e = .clear
    · obtain ⟨ht, hle⟩ := (next_marks (hinv.of t) next).2.2 he
      subst ht
      have hv := goto_main_stage u pc
      omega
    · have hsize : u.sb.size = s.sb.size := apply_size apply he
      exact hsize
  | sigint _ => rfl
  | @handle t e hpc u next apply =>
    have he : e ≠ .clear := by
      intro he
      have hlast := handlerNext_last next
      rw [he] at hlast
      cases hlast
    have hsize : u.sb.size = s.sb.size := apply_size apply he
    exact hsize
  | wake => rfl

theorem moves_pairwise (hmove : Moves s a v os) : os.Pairwise MayPrecede := by
  cases hmove with
  | sigint _ | wake => exact List.Pairwise.nil
  | _ => exact events_pairwise

/-- Only `main` passes the marks. -/
theorem moves_passes (hinv : Inv s) (hmove : Moves s a v os) (hlt : s.stage < v.stage)
    (hv : 4 ≤ v.stage) : ∃ answer, a = .run .main answer ∧
      (s.stage < 4 → s.pc .main = .main .destroying) ∧
      (s.stage < 5 → 5 ≤ v.stage → s.pc .main = .main .freeing) := by
  have hstays : v.stage ≠ s.stage := by omega
  cases hmove with
  | @run t answer e pc u on idle next apply =>
    obtain ⟨_, _, _, hdestroying, hfree⟩ := run_stage hinv.of next apply
    have hmain : t = .main := by
      by_contra ht
      refine hstays ?_
      show (Function.update u.pc t pc .main).stage = _
      rw [Function.update_of_ne (Ne.symm ht)]
      rcases apply_pc apply .main with he | he <;> simp [State.stage, he]
    subst hmain
    refine ⟨answer, rfl, fun hs => hdestroying hs hv, ?_⟩
    intro hs hge
    have he := hfree hs hge
    rcases next_last next (by rw [he]; rfl) with ⟨hd, _⟩ | ⟨_, hpc⟩ | hle
    · rw [he] at hd
      cases hd
    · exact hpc
    · have hstage : s.stage = (s.pc .main).stage := rfl
      omega
  | sigint _ => exact absurd rfl hstays
  | @handle t e hpc u next apply =>
    refine absurd ?_ hstays
    rcases apply_pc apply .main with he | he <;> simp [State.stage, he]
  | wake => exact absurd rfl hstays

omit [DecidableEq C] [Fintype C] in
theorem Calm.runsReleased (hcalm : Calm s a) (hs : ¬s.stage < 4) : RunsReleased s a := by
  intro answer ha
  subst ha
  exact hcalm.resolve_left hs

theorem Watched.moves_conn {os' : List (Event C)} (h : Watched os s) (hcalm : Calm s a)
    (hmove : Moves s a v os') (hv : 4 ≤ v.stage) : ConnReleased v := by
  by_cases hs : s.stage < 4
  · obtain ⟨answer, ha, hdestroying, _⟩ := moves_passes h.inv hmove (by omega) hv
    subst ha
    have hstage : s.stage = 3 := by
      rw [State.stage, hdestroying hs]
      rfl
    have hconn : ConnReleased s := hcalm.1 (hdestroying hs)
    refine hconn.moves h.inv (by omega) ?_ ?_ hmove
    · intro answer ha
      cases ha
    · intro t ht
      cases ht
  · refine (h.conn (by omega)).moves h.inv (by omega) (hcalm.runsReleased hs) ?_ hmove
    intro t ha
    subst ha
    exact hcalm.resolve_left hs

theorem Watched.moves_sbuffer {os' : List (Event C)} (h : Watched os s) (hcalm : Calm s a)
    (hmove : Moves s a v os') (hv : 5 ≤ v.stage) : SbufferReleased v := by
  by_cases hs : s.stage < 5
  · obtain ⟨answer, ha, hdestroying, hfreeing⟩ :=
      moves_passes h.inv hmove (by omega) (by omega)
    subst ha
    have hpc := hfreeing hs hv
    have hstage : s.stage = 4 := by
      rw [State.stage, hpc]
      rfl
    have hsbuffer : SbufferReleased s := hcalm.2 hpc
    exact fun c => released_moves h.inv (by omega) hmove (hsbuffer c)
  · exact fun c => released_moves h.inv (by omega) hmove (h.sbuffer (by omega) c)

theorem Watched.moves {os' : List (Event C)} (h : Watched os s) (hcalm : Calm s a)
    (hmove : Moves s a v os') : Watched (os ++ os') v := by
  have hle := h.inv.stage_le hmove
  have hsize : v.stage < 5 → 0 < v.sb.size := by
    intro hlt
    rw [moves_size h.inv hmove hlt]
    exact h.size_pos (by omega)
  refine ⟨h.inv.moves hmove, h.moves_conn hcalm hmove, h.moves_sbuffer hcalm hmove, hsize,
    ?_, ?_, ?_⟩
  · intro hmem
    rcases List.mem_append.mp hmem with hmem | hmem
    · exact Nat.le_trans (h.free hmem) hle
    · exact ((moves_marks h.inv hmove hmem).1 rfl).2
  · intro hmem
    rcases List.mem_append.mp hmem with hmem | hmem
    · exact Nat.le_trans (h.destroy hmem) hle
    · exact (moves_marks h.inv hmove hmem).2.1 rfl
  · -- nothing is pushed or popped after the second mark, nor `conn_mutex` used after the first
    have hquiet : 5 ≤ s.stage → ∀ t, .inSbuffer t ∉ os' ∧ .onFreed t ∉ os' :=
      fun hs t => (h.sbuffer hs).events (hcalm.runsReleased (by omega)) h.inv (by omega) hmove
    refine h.quiescent.append (moves_pairwise hmove) ?_ ?_
    · intro t hmem
      by_cases hs : s.stage < 5
      · have hzero := (moves_marks h.inv hmove hmem).2.2 t rfl
        have hpos := h.size_pos hs
        omega
      · exact (hquiet (by omega) t).2 hmem
    · intro ev hev ev' hev'
      refine ⟨?_, ?_⟩
      · intro he t he'
        subst he he'
        exact (hquiet (h.free hev) t).1 hev'
      · intro he t ht he'
        subst he he'
        have hstage := h.destroy hev
        exact ht
          ((h.conn hstage).events h.inv (by omega) (hcalm.runsReleased (by omega)) hmove hev')

/-- In every calm run the shutdown is quiescent. -/
theorem quiescent_of_calm {block : Option (List (SensorData T))} {size : Int} {sb : Sbuffer T}
    (hinit : sbufferInit .ok size block = some sb) {as : List (Act T C)}
    (hcalm : Machine.Meets step Calm (start sb) as)
    (hrun : Machine.run step (start sb) as = some (v, os)) : Quiescent os := by
  have hsize : 0 < sb.size := by
    unfold sbufferInit at hinit
    split at hinit
    · cases hinit
    · next hpos =>
      cases block with
      | none => cases hinit
      | some buffer =>
        rw [← Option.some.inj hinit]
        show 0 < size.toNat
        omega
  have hwatched : Watched os v := by
    refine Machine.meets_induction (P := fun os v => Watched os v) (watched_start hsize) ?_
      hcalm hrun
    intro os u a t os' h hc hstep
    exact h.moves hc (step_moves hstep)
  exact hwatched.quiescent

end Watch

/-- SIGINT at `main` while the connection manager is in `select` and the consumers are blocked on
`not_empty`; they leave before the buffer is looked at. -/
def idleSchedule : List (Act Unit (Fin 2)) :=
  List.replicate 2 (Act.run .connectionManager .none) ++
  Act.run (.consumer 0) (.opened true) :: List.replicate 5 (Act.run (.consumer 0) .none) ++
  Act.run (.consumer 1) (.opened true) :: List.replicate 5 (Act.run (.consumer 1) .none) ++
  Act.sigint .main :: List.replicate 4 (Act.handle .main) ++
  List.replicate 7 (Act.run .main .none) ++ List.replicate 5 (Act.run (.consumer 0) .none) ++
  List.replicate 5 (Act.run (.consumer 1) .none) ++ List.replicate 12 (Act.run .main .none)

theorem quiescent_of_calm_idle :
    ∃ (v : State Unit (Fin 2)) (os : List (Event (Fin 2))),
      sbufferInit .ok 1 (some [⟨0, (), 0⟩]) = some ⟨[⟨0, (), 0⟩], 1, 0, 0, 0⟩ ∧
      Machine.Meets step Calm (start ⟨[⟨0, (), 0⟩], 1, 0, 0, 0⟩) idleSchedule ∧
      Machine.run step (start ⟨[⟨0, (), 0⟩], 1, 0, 0, 0⟩) idleSchedule = some (v, os) ∧
      (v.pc .main).hasEnded = true ∧ (v.pc .connectionManager).selecting = true ∧
      Quiescent os := by
  have hinit : sbufferInit .ok 1 (some [⟨0, (), 0⟩]) =
      some (⟨[⟨0, (), 0⟩], 1, 0, 0, 0⟩ : Sbuffer Unit) := by decide
  have hcalm : Machine.Meets step Calm (start ⟨[⟨0, (), 0⟩], 1, 0, 0, 0⟩) idleSchedule := by
    decide +kernel
  have hended : ((Machine.run step (start ⟨[⟨0, (), 0⟩], 1, 0, 0, 0⟩) idleSchedule).map
      fun q => ((q.1.pc .main).hasEnded, (q.1.pc .connectionManager).selecting)) =
        some (true, true) := by decide +kernel
  obtain ⟨⟨v, os⟩, hrun, hv⟩ := Option.map_eq_some_iff.mp hended
  obtain ⟨hmain, hconnection⟩ := Prod.mk.inj hv
  exact ⟨v, os, hinit, hcalm, hrun, hmain, hconnection, quiescent_of_calm hinit hcalm hrun⟩

/-- The connection manager tests the flag, SIGINT arrives, nothing is stored, and it
reads and pushes a reading when `main` has emptied the buffer. -/
def lateSchedule : List (Act Unit (Fin 2)) :=
  List.replicate 2 (Act.run .connectionManager .none) ++
  [Act.run .connectionManager (.select true 0), .run .connectionManager (.accept true)] ++
  List.replicate 5 (Act.run .connectionManager .none) ++
  [Act.run .connectionManager (.select false 1)] ++
  List.replicate 2 (Act.run .connectionManager .none) ++ [Act.sigint .main] ++
  List.replicate 4 (Act.handle .main) ++ List.replicate 16 (Act.run .main .none) ++
  [Act.run .connectionManager (.read (some ⟨1, (), 0⟩))] ++
  List.replicate 2 (Act.run .connectionManager .none)

theorem pushes_on_freed :
    ∃ (v : State Unit (Fin 2)) (os : List (Event (Fin 2))),
      sbufferInit .ok 1 (some [⟨0, (), 0⟩]) = some ⟨[⟨0, (), 0⟩], 1, 0, 0, 0⟩ ∧
      Machine.run step (start ⟨[⟨0, (), 0⟩], 1, 0, 0, 0⟩) lateSchedule = some (v, os) ∧
      v.undefined = true ∧ ¬Quiescent os := by
  have hfreed : ((Machine.run step (start ⟨[⟨0, (), 0⟩], 1, 0, 0, 0⟩) lateSchedule).map
      fun q => (q.1.undefined, decide (Event.onFreed .connectionManager ∈ q.2))) =
      some (true, true) := by decide +kernel
  obtain ⟨⟨v, os⟩, hrun, hv⟩ := Option.map_eq_some_iff.mp hfreed
  obtain ⟨hundefined, hmem⟩ := Prod.mk.inj hv
  exact ⟨v, os, by decide, hrun, hundefined, fun h => h.2 _ (of_decide_eq_true hmem)⟩

end Shutdown
end Gateway
end LinuxEmbedded
