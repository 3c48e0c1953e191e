import LinuxEmbedded.Gateway.SbufferFifo
import LinuxEmbedded.Gateway.Quiescence

/-
What is left in the buffer when `main` calls `sbuffer_free`.

The threads are run together with the books of the buffer, in which each locked
section of `sbuffer.c` is one call.  `main` waits for consumers that leave as soon
as they see the flag, and it waits a bounded time.  Nothing is left behind for
sure only if nothing was stored, and nothing more was coming, when the flag was
set.
-/
namespace LinuxEmbedded
namespace Gateway
namespace Shutdown

variable {T C : Type}

/-! ## The books -/

/-- Readings go by the numbers of their pushes. -/
inductive Record (T : Type) where
  | stored (e : DropOldest.Event (SensorData T))
  /-- The push with this number has returned 0. -/
  | accepted (i : Nat)

/-- The system, and the calls on its buffer (ghost). -/
structure Audited (T C : Type) where
  system : State T C
  book : SbufferThreads.State T (Thread C)

def Audited.start (sb : Sbuffer T) : Audited T C := ⟨Shutdown.start sb, SbufferThreads.start sb⟩

def Act.thread : Act T C → Thread C
  | .run t _ | .sigint t | .handle t => t
  | .wake c => .consumer c

/-- What the step does to the shared state. -/
def effect (s : State T C) : Act T C → Effect T C
  | .run t answer => ((next s answer (s.pc t)).map Prod.fst).getD .skip
  | .handle t => ((handlerNext (s.handler t)).map Prod.fst).getD .skip
  | .sigint _ | .wake _ => .skip

/-- The call that takes effect. -/
def call? (t : Thread C) : Effect T C → Option (SbufferThreads.Act T (Thread C))
  | .store data => some (.push t data)
  | .take => some (.pop t)
  | .setFlag => some .shutdown
  | _ => none

/-- `sbuffer_push` returns 0 at the unlock. -/
def acceptedBy (s : Audited T C) : Act T C → List (Record T)
  | .run .connectionManager _ =>
    match s.system.pc .connectionManager, s.book.pushCount with
    | .connection (.pushUnlock _), n + 1 => [.accepted n]
    | _, _ => []
  | _ => []

section Step

variable [DecidableEq C] [Fintype C]

def Audited.step (s : Audited T C) (a : Act T C) : Option (Audited T C × List (Record T)) := do
  let (system, _) ← Shutdown.step s.system a
  let (book, os) :=
    ((call? a.thread (effect s.system a)).bind (SbufferThreads.step s.book)).getD (s.book, [])
  some (⟨system, book⟩, os.filterMap (fun e => e.stored?.map .stored) ++ acceptedBy s a)

end Step

def Record.stored? : Record T → Option (DropOldest.Event (SensorData T))
  | .stored e => some e
  | _ => none

def Record.accepted? : Record T → Option Nat
  | .accepted i => some i
  | _ => none

/-- What happened to stored readings. -/
def history (os : List (Record T)) : List (DropOldest.Event (SensorData T)) :=
  os.filterMap Record.stored?

/-- The pushes that have returned 0. -/
def acceptedPushes (os : List (Record T)) : List Nat := os.filterMap Record.accepted?

/-- Every reading for which `sbuffer_push` returned 0 has been popped or overwritten. -/
def Drained (os : List (Record T)) : Prop :=
  ∀ i ∈ acceptedPushes os,
    i ∈ (DropOldest.pops (history os)).map Prod.snd ∨ i ∈ DropOldest.overwrites (history os)

/-- The ready clients the pass goes on to. -/
def Section.left : Section → Nat
  | .touch ready | .remove ready => ready
  | .track _ | .cleanup => 0

/-- The connection manager has tested the flag and has a reading in hand or a ready
client left. -/
def Pc.mayPush : Pc T → Bool
  | .connection p =>
    match p with
    | .pushLock _ _ | .pushing _ _ => true
    | .serving ready | .signalling ready | .pushUnlock ready => 0 < ready
    | .connLock sec | .inSection sec => 0 < sec.left
    | _ => false
  | _ => false

/-- Inside `sbuffer_pop`, at the test of its wait loop. -/
def Pc.isTesting : Pc T → Bool
  | .consumer (.testing _) => true
  | _ => false

def Effect.setsFlag : Effect T C → Bool
  | .setFlag => true
  | _ => false

/-- Nothing is stored, but for a reading that a consumer inside `sbuffer_pop` is about
to take, and nothing more will be. -/
def Settled (s : State T C) : Prop :=
  (s.pc .connectionManager).mayPush = false ∧
    (s.sb.count = 0 ∨ s.sb.count = 1 ∧ ∃ c, (s.pc (.consumer c)).isTesting = true)

/-- The flag is set when things have settled. -/
def SetsSettled (s : Audited T C) (a : Act T C) : Prop :=
  s.system.shutdownFlag = false → (effect s.system a).setsFlag = true → Settled s.system

instance [Fintype C] (s : State T C) : Decidable (Settled s) :=
  inferInstanceAs (Decidable (_ ∧ _))

instance [Fintype C] (s : Audited T C) (a : Act T C) : Decidable (SetsSettled s a) :=
  inferInstanceAs (Decidable (_ → _ → _))

/-! ## The books are right -/

theorem history_append (os os' : List (Record T)) :
    history (os ++ os') = history os ++ history os' :=
  List.filterMap_append

theorem acceptedPushes_append (os os' : List (Record T)) :
    acceptedPushes (os ++ os') = acceptedPushes os ++ acceptedPushes os' :=
  List.filterMap_append

theorem accounts_run {α : Type} {cap : Nat} {os os' : List (DropOldest.Event α)}
    {q q' : DropOldest.State α} {bs : List (DropOldest.Act α)} (h : DropOldest.Accounts os q)
    (hrun : Machine.run (DropOldest.step cap) q bs = some (q', os')) :
    DropOldest.Accounts (os ++ os') q' := by
  refine Machine.run_induction (P := fun _ os' u => DropOldest.Accounts (os ++ os') u) ?_ ?_ hrun
  · rw [List.append_nil]
    exact h
  · intro as os₁ u a t os₂ _ ih hstep
    rw [← List.append_assoc]
    exact ih.step hstep

section Books

variable [DecidableEq C] [Fintype C] {N : Nat} {s u : State T C} {t : Thread C}
  {e : Effect T C} {b : SbufferThreads.State T (Thread C)}

/-- An effect changes the buffer by storing, taking and clearing only. -/
theorem apply_sb (h : apply s t e = some u) (hstore : ∀ data, e ≠ .store data)
    (htake : e ≠ .take) (hclear : e ≠ .clear) : u.sb = s.sb := by
  cases e with
  | store data => exact absurd rfl (hstore data)
  | take => exact absurd rfl htake
  | clear => exact absurd rfl hclear
  | signal woken =>
    obtain ⟨_, h⟩ := Option.ite_none_right_eq_some.mp h
    rw [← Option.some.inj h]
    cases woken <;> rfl
  | _ =>
    simp only [apply] at h
    repeat' split at h
    all_goals cases h
    all_goals rfl

/-- The book goes from `b` to `b'` and keeps up with the buffer `sb`. -/
structure Follows (N : Nat) (b b' : SbufferThreads.State T (Thread C))
    (os : List (SbufferThreads.Event T (Thread C))) (sb : Sbuffer T) : Prop where
  sb : b'.sb = sb
  awake : ∀ x, b'.asleep x = false
  count : b.pushCount ≤ b'.pushCount
  refines : ∀ q, SbufferThreads.Refines N b q → ∃ bs q',
    Machine.run (DropOldest.step N) q bs =
        some (q', os.filterMap SbufferThreads.Event.stored?) ∧
      SbufferThreads.Refines N b' q'

omit [Fintype C] in
theorem follows_push (hawake : ∀ x, b.asleep x = false)
    {data : SensorData T} {sb : Sbuffer T} {logs : List (Message T)}
    (hbody : sbufferPushBody b.sb data = some (sb, logs)) :
    ∃ b' os, SbufferThreads.step b (.push t data) = some (b', os) ∧ Follows N b b' os sb := by
  have hpush : SbufferThreads.step b (.push t data) = SbufferThreads.pushStep b t data := by
    rw [SbufferThreads.step, if_neg (by simp [hawake t])]
  have hcall : sbufferPush .ok b.sb data = some (0, sb, logs) := by
    simp [sbufferPush, PushCalls.ok, hbody]
  have hstep : ∃ os, SbufferThreads.step b (.push t data) = some ({ b with
      sb, stamps := b.stamps.set b.sb.head b.pushCount, pushCount := b.pushCount + 1 }, os) := by
    rw [hpush, SbufferThreads.pushStep, hcall]
    exact ⟨_, rfl⟩
  obtain ⟨os, hstep⟩ := hstep
  refine ⟨_, os, hstep, rfl, hawake, Nat.le_succ _, ?_⟩
  exact fun q hq => SbufferThreads.step_refines hq hstep

omit [Fintype C] in
theorem follows_take (hawake : ∀ x, b.asleep x = false)
    {data : SensorData T} {sb : Sbuffer T} (hcount : b.sb.count ≠ 0)
    (htake : sbufferTake b.sb = some (data, sb)) :
    ∃ b' os, SbufferThreads.step b (.pop t) = some (b', os) ∧ Follows N b b' os sb := by
  have hpop : SbufferThreads.step b (.pop t) = SbufferThreads.popStep b t := by
    rw [SbufferThreads.step, if_neg (by simp [hawake t])]
  have hcall : sbufferPop .ok b.shutdownFlag b.sb =
      some (.returns 0 (some data), sb, [logEvent "Data popped from buffer" []]) := by
    simp [sbufferPop, sbufferPopSection, PopCalls.ok, hcount, htake]
  have hstep : ∃ os, SbufferThreads.step b (.pop t) = some ({ b with
      sb, asleep := Function.update b.asleep t false }, os) := by
    rw [hpop, SbufferThreads.popStep, hcall]
    exact ⟨_, rfl⟩
  obtain ⟨os, hstep⟩ := hstep
  refine ⟨_, os, hstep, rfl, ?_, Nat.le_refl _, ?_⟩
  · intro x
    show Function.update b.asleep t false x = false
    by_cases hx : x = t
    · rw [hx, Function.update_self]
    · rw [Function.update_of_ne hx]
      exact hawake x
  · exact fun q hq => SbufferThreads.step_refines hq hstep

/-- The book follows an effect by the call that takes it. -/
theorem call_follows (hinv : SbufferThreads.Inv N b) (hsb : b.sb = s.sb)
    (hawake : ∀ x, b.asleep x = false) (h : apply s t e = some u) (hclear : e ≠ .clear)
    (htake : e = .take → s.sb.count ≠ 0) :
    ∃ b' os, ((call? t e).bind (SbufferThreads.step b)).getD (b, []) = (b', os) ∧
      Follows N b b' os u.sb := by
  by_cases hcall : call? t e = none
  · have hstore : ∀ data, e ≠ .store data := by
      rintro data rfl
      cases hcall
    have htake : e ≠ .take := by
      rintro rfl
      cases hcall
    refine ⟨b, [], by rw [hcall]; rfl, ?_, hawake, Nat.le_refl _, ?_⟩
    · rw [hsb, apply_sb h hstore htake hclear]
    · exact fun q hq => ⟨[], q, rfl, hq⟩
  · cases e with
    | store data =>
      obtain ⟨sb, logs, hbody⟩ : ∃ sb logs, sbufferPushBody b.sb data = some (sb, logs) := by
        by_cases hc : b.sb.count = b.sb.size
        · obtain ⟨record, -, hbody⟩ := Sbuffer.sbufferPushBody_of_full hinv.sb hc data
          exact ⟨_, _, hbody⟩
        · have hle := hinv.sb.count_le
          exact ⟨_, _, Sbuffer.sbufferPushBody_of_room hinv.sb (by omega) data⟩
      obtain ⟨b', os, hstep, hfollows⟩ := follows_push (N := N) (t := t) hawake hbody
      rw [hsb] at hbody
      simp only [apply, hbody] at h
      rw [← Option.some.inj h]
      exact ⟨b', os, by rw [call?, Option.bind_some, hstep]; rfl, hfollows⟩
    | take =>
      obtain ⟨data, _, hbody⟩ := Sbuffer.sbufferTake_of_pos hinv.sb
      obtain ⟨b', os, hstep, hfollows⟩ :=
        follows_take (N := N) (t := t) hawake (hsb ▸ htake rfl) hbody
      rw [hsb] at hbody
      simp only [apply, hbody] at h
      rw [← Option.some.inj h]
      rw [hsb] at hfollows
      exact ⟨b', os, by rw [call?, Option.bind_some, hstep]; rfl, hfollows⟩
    | setFlag =>
      cases h
      refine ⟨{ b with shutdownFlag := true }, [], rfl, hsb, hawake, Nat.le_refl _, ?_⟩
      exact fun q hq => SbufferThreads.step_refines (a := .shutdown) hq rfl
    | _ => exact absurd rfl hcall

omit [DecidableEq C] [Fintype C] in
/-- A take comes from a consumer that has found something stored. -/
theorem next_take {answer : Answer T C} {pc pc' : Pc T} (h : next s answer pc = some (.take, pc')) :
    s.sb.count ≠ 0 ∧ ∃ n, pc = .consumer (.testing n) := by
  cases pc with
  | main p =>
    obtain ⟨⟨e', p'⟩, hp, he⟩ := Option.map_eq_some_iff.mp h
    exact absurd (Prod.mk.inj he).1 (mainNext_quiet hp).2
  | connection p =>
    obtain ⟨⟨e', p'⟩, hp, he⟩ := Option.map_eq_some_iff.mp h
    simp only [connectionNext] at hp
    repeat' split at hp
    all_goals cases hp
    all_goals cases he
  | consumer p =>
    obtain ⟨⟨e', p'⟩, hp, he⟩ := Option.map_eq_some_iff.mp h
    simp only [consumerNext] at hp
    repeat' split at hp
    all_goals cases hp
    all_goals simp_all

omit [DecidableEq C] [Fintype C] in
/-- A store comes from the connection manager in its push. -/
theorem next_store {answer : Answer T C} {pc pc' : Pc T} {data : SensorData T}
    (h : next s answer pc = some (.store data, pc')) : pc.mayPush = true := by
  cases pc with
  | main p =>
    obtain ⟨⟨e', p'⟩, hp, he⟩ := Option.map_eq_some_iff.mp h
    exact absurd (Prod.mk.inj he).1 ((mainNext_quiet hp).1 data)
  | connection p =>
    obtain ⟨⟨e', p'⟩, hp, he⟩ := Option.map_eq_some_iff.mp h
    simp only [connectionNext] at hp
    repeat' split at hp
    all_goals cases hp
    all_goals simp_all [Pc.mayPush]
  | consumer p =>
    obtain ⟨⟨e', p'⟩, hp, he⟩ := Option.map_eq_some_iff.mp h
    simp only [consumerNext] at hp
    repeat' split at hp
    all_goals cases hp
    all_goals cases he

omit [DecidableEq C] [Fintype C] in
theorem effect_run {answer : Answer T C} {pc : Pc T}
    (h : next s answer (s.pc t) = some (e, pc)) : effect s (.run t answer) = e := by
  rw [effect, h]
  rfl

omit [DecidableEq C] [Fintype C] in
theorem effect_handle {hpc : HandlerPc} (h : handlerNext (s.handler t) = some (e, hpc)) :
    effect s (.handle t) = e := by
  rw [effect, h]
  rfl

/-- The buffer of the next state is the one the effect leaves. -/
theorem moves_effect {v : State T C} {a : Act T C} {evs : List (Event C)} (hinv : Inv s)
    (hmove : Moves s a v evs) : ∃ u, apply s a.thread (effect s a) = some u ∧ v.sb = u.sb ∧
      (effect s a = .take → s.sb.count ≠ 0) ∧ (effect s a = .clear → 5 ≤ v.stage) := by
  cases hmove with
  | @run t answer e pc u on idle next apply =>
    rw [effect_run next]
    refine ⟨u, apply, rfl, ?_, ?_⟩
    · intro he
      rw [he] at next
      exact (next_take next).1
    · intro he
      obtain ⟨rfl, hle⟩ := (next_marks (hinv.of t) next).2.2 he
      rw [goto_main_stage]
      exact hle
  | @handle t e hpc u next apply =>
    rw [effect_handle next]
    refine ⟨u, apply, rfl, ?_, ?_⟩ <;> intro he <;> rw [he] at next <;>
      cases hh : s.handler t <;> rw [hh] at next <;> cases next
  | sigint _ | wake => exact ⟨s, rfl, rfl, by simp [effect], by simp [effect]⟩

/-- Before the buffer is cleared, the book has the calls of the run in it. -/
structure Kept (N : Nat) (os : List (Record T)) (s : Audited T C) : Prop where
  inv : Inv s.system
  sb : s.book.sb = s.system.sb
  awake : ∀ t, s.book.asleep t = false
  queue : ∃ q, SbufferThreads.Refines N s.book q ∧ DropOldest.Accounts (history os) q
  accepted : ∀ i ∈ acceptedPushes os, i < s.book.pushCount

omit [DecidableEq C] [Fintype C] in
theorem acceptedBy_eq (s : Audited T C) (a : Act T C) :
    acceptedBy s a = [] ∨ ∃ i, acceptedBy s a = [.accepted i] ∧ i < s.book.pushCount := by
  unfold acceptedBy
  split
  · split
    · next n _ hn => exact Or.inr ⟨n, rfl, by omega⟩
    · exact Or.inl rfl
  · exact Or.inl rfl

theorem Kept.step {os os' : List (Record T)} {s v : Audited T C} {a : Act T C}
    (h : Kept N os s) (hstep : Audited.step s a = some (v, os')) (hstage : v.system.stage < 5) :
    Kept N (os ++ os') v := by
  obtain ⟨⟨system, evs⟩, hsystem, hstep⟩ := Option.bind_eq_some_iff.mp hstep
  obtain ⟨q, hq, haccounts⟩ := h.queue
  obtain ⟨u, happly, hu, htake, hclear⟩ := moves_effect h.inv (step_moves hsystem)
  have hv : v.system = system := by
    rw [← (Prod.mk.inj (Option.some.inj hstep)).1]
  have hnot : effect s.system a ≠ .clear := by
    intro he
    have hle := hclear he
    rw [hv] at hstage
    omega
  obtain ⟨b', osb, hcall, hfollows⟩ := call_follows hq.inv h.sb h.awake happly hnot htake
  obtain ⟨bs, q', hrun, hq'⟩ := hfollows.refines q hq
  simp only [hcall] at hstep
  obtain ⟨rfl, rfl⟩ := Prod.mk.inj (Option.some.inj hstep)
  have hhistory : history (osb.filterMap (fun e => e.stored?.map .stored) ++ acceptedBy s a) =
      osb.filterMap SbufferThreads.Event.stored? := by
    have haccepted : history (acceptedBy s a) = [] := by
      rcases acceptedBy_eq s a with he | ⟨i, he, _⟩ <;> rw [he] <;> rfl
    rw [history_append, haccepted, List.append_nil, history, List.filterMap_filterMap]
    refine List.filterMap_congr fun e _ => ?_
    cases e.stored? <;> rfl
  refine ⟨h.inv.moves (step_moves hsystem), ?_, hfollows.awake, ⟨q', hq', ?_⟩, ?_⟩
  · rw [hfollows.sb]
    exact hu.symm
  · rw [history_append, hhistory]
    exact accounts_run haccounts hrun
  · intro i hi
    have hstored : acceptedPushes (osb.filterMap (fun e => e.stored?.map .stored)) = [] := by
      rw [acceptedPushes, List.filterMap_filterMap]
      refine List.filterMap_eq_nil_iff.mpr fun e _ => ?_
      cases e.stored? <;> rfl
    rw [acceptedPushes_append, acceptedPushes_append, hstored, List.nil_append] at hi
    rcases List.mem_append.mp hi with hi | hi
    · exact Nat.lt_of_lt_of_le (h.accepted i hi) hfollows.count
    · rcases acceptedBy_eq s a with he | ⟨j, he, hlt⟩ <;> rw [he] at hi
      · cases hi
      · cases List.mem_singleton.mp hi
        exact Nat.lt_of_lt_of_le hlt hfollows.count

omit [DecidableEq C] [Fintype C] in
/-- With nothing stored everything accepted is accounted for. -/
theorem Kept.drained {os : List (Record T)} {s : Audited T C} (h : Kept N os s)
    (hcount : s.system.sb.count = 0) : Drained os := by
  intro i hi
  obtain ⟨q, hq, haccounts⟩ := h.queue
  have hqueue : q.queue = [] := by
    have hlen := SbufferThreads.stampedQueue_length hq.inv
    rw [← hq.queue_eq, h.sb, hcount] at hlen
    exact List.eq_nil_of_length_eq_zero hlen
  have hlt : i < q.next := by
    rw [hq.next_eq]
    exact h.accepted i hi
  have hpushed : i ∈ (DropOldest.pushes (history os)).map Prod.snd := by
    rw [haccounts.numbered]
    exact List.mem_range.mpr hlt
  obtain ⟨p, hp, rfl⟩ := List.mem_map.mp hpushed
  by_cases hover : p.2 ∈ DropOldest.overwrites (history os)
  · exact Or.inr hover
  · have hsurvives : p ∈ DropOldest.survivors (history os) :=
      List.mem_filter.mpr ⟨hp, by simpa using hover⟩
    rw [haccounts.kept, hqueue, List.append_nil] at hsurvives
    exact Or.inl (List.mem_map_of_mem hsurvives)

end Books

/-! ## Once things have settled -/

section Settle

variable [DecidableEq C] {s : State T C} {t : Thread C} {e : Effect T C}

/-- With the flag set and things settled nothing comes any more, and what a consumer
is about to take is gone before the broadcast is over. -/
def Quiet (s : State T C) : Prop :=
  s.shutdownFlag = true →
    (s.pc .connectionManager).mayPush = false ∧
      (s.sb.count = 0 ∨
        s.sb.count = 1 ∧ s.stage < 2 ∧ ∃ c, (s.pc (.consumer c)).isTesting = true)

omit [DecidableEq C] in
/-- With the flag set a thread gets no further reading. -/
theorem next_mayPush {answer : Answer T C} {pc pc' : Pc T} (hflag : s.shutdownFlag = true)
    (h : next s answer pc = some (e, pc')) (hpush : pc.mayPush = false) :
    pc'.mayPush = false := by
  cases pc with
  | connection p =>
    obtain ⟨⟨e', p'⟩, hp, he⟩ := Option.map_eq_some_iff.mp h
    obtain ⟨rfl, rfl⟩ := Prod.mk.inj he
    simp only [connectionNext, hflag] at hp
    repeat' split at hp
    all_goals cases hp
    all_goals simp_all [Pc.mayPush, Section.left]
    all_goals exact Nat.eq_zero_of_not_pos (of_decide_eq_false hpush)
  | _ =>
    obtain ⟨q, _, he⟩ := Option.map_eq_some_iff.mp h
    rw [← (Prod.mk.inj he).2]
    rfl

omit [DecidableEq C] in
theorem Pc.Of.of_mayPush {pc : Pc T} (h : pc.Of t) (hpush : pc.mayPush = true) :
    t = .connectionManager := by
  cases pc with
  | connection p =>
    cases t with
    | connectionManager => rfl
    | _ => exact h.elim
  | _ => cases hpush

@[simp] theorem wake_mayPush (pc : Pc T) : pc.wake.mayPush = pc.mayPush := by
  unfold Pc.wake
  split <;> rfl

@[simp] theorem wake_isTesting (pc : Pc T) : pc.wake.isTesting = pc.isTesting := by
  unfold Pc.wake
  split <;> rfl

omit [DecidableEq C] in
theorem Settled.quiet (h : Settled s) (hstage : s.stage < 2) : Quiet s := by
  intro _
  refine ⟨h.1, ?_⟩
  rcases h.2 with hc | ⟨hc, htesting⟩
  · exact Or.inl hc
  · exact Or.inr ⟨hc, hstage, htesting⟩

omit [DecidableEq C] in
/-- A state that differs in nothing that matters here. -/
theorem Quiet.woken {v : State T C} (h : Quiet s) (hflag : s.shutdownFlag = true)
    (hpc : ∀ x, v.pc x = s.pc x ∨ v.pc x = (s.pc x).wake) (hsb : v.sb = s.sb) : Quiet v := by
  intro _
  obtain ⟨hpush, hcount⟩ := h hflag
  refine ⟨?_, ?_⟩
  · rcases hpc .connectionManager with he | he <;> simpa [he] using hpush
  · rw [hsb]
    rcases hcount with hc | ⟨hc, hstage, c, htesting⟩
    · exact Or.inl hc
    · refine Or.inr ⟨hc, ?_, c, ?_⟩
      · rcases hpc .main with he | he <;> simpa [State.stage, he] using hstage
      · rcases hpc (.consumer c) with he | he <;> simpa [he] using htesting

variable [Fintype C] {u : State T C} {answer : Answer T C} {pc : Pc T}

theorem apply_take (hsb : s.sb.Inv) (h : apply s t .take = some u) :
    u.sb.count = s.sb.count - 1 := by
  obtain ⟨data, _, htake⟩ := Sbuffer.sbufferTake_of_pos hsb
  simp only [apply, htake] at h
  rw [← Option.some.inj h]
  rfl

/-- The consumer that is about to take excludes `main` from its section. -/
theorem Inv.stage_of_testing (hinv : Inv s) (hdefined : s.undefined = false)
    (hstage : s.stage < 2) {c : C} (htesting : (s.pc (.consumer c)).isTesting = true)
    (hnext : next s answer (s.pc t) = some (e, pc)) (happly : apply s t e = some u) :
    (u.goto t pc).stage < 2 := by
  by_contra hge
  obtain ⟨_, _, hmain⟩ := (run_stage hinv.of hnext happly).2.2.1 hstage (by omega)
  have halive : s.sbMutex.destroyed = false := by
    by_cases hd : s.sbMutex.destroyed = true
    · have hle := hinv.late hd
      omega
    · simpa using hd
  have hmainIn : (s.pc .main).inside = true := by
    rw [hmain]
    rfl
  have hconsumerIn : (s.pc (.consumer c)).inside = true := by
    revert htesting
    cases s.pc (.consumer c) with
    | consumer p => cases p <;> simp [Pc.isTesting, Pc.inside]
    | _ => simp [Pc.isTesting]
  cases (hinv.exclusive hdefined halive).unique hmainIn hconsumerIn

omit [DecidableEq C] [Fintype C] in
/-- A consumer that finds a reading takes it. -/
theorem next_of_testing {pc pc' : Pc T} (h : next s answer pc = some (e, pc'))
    (htesting : pc.isTesting = true) (hcount : s.sb.count ≠ 0) : e = .take := by
  cases pc with
  | consumer p =>
    cases p with
    | testing n =>
      simp [next, consumerNext, hcount] at h
      exact h.1.symm
    | _ => cases htesting
  | _ => cases htesting

/-- A step of a program after the flag is set. -/
theorem Quiet.run (h : Quiet s) (hinv : Inv s) (hsb : s.sb.Inv) (hdefined : s.undefined = false)
    (hflag : s.shutdownFlag = true) (hstage : (u.goto t pc).stage < 5)
    (hnext : next s answer (s.pc t) = some (e, pc)) (happly : apply s t e = some u) :
    Quiet (u.goto t pc) := by
  intro _
  obtain ⟨hpush, hcount⟩ := h hflag
  have hclear : e ≠ .clear := by
    rintro rfl
    obtain ⟨rfl, hle⟩ := (next_marks (hinv.of t) hnext).2.2 rfl
    have hv := goto_main_stage u pc
    omega
  have hstore : ∀ data, e ≠ .store data := by
    rintro data rfl
    have hmay := next_store hnext
    rw [(hinv.of t).of_mayPush hmay, hpush] at hmay
    cases hmay
  refine ⟨?_, ?_⟩
  · show (Function.update u.pc t pc .connectionManager).mayPush = false
    by_cases ht : t = .connectionManager
    · rw [ht, Function.update_self]
      rw [ht] at hnext
      exact next_mayPush hflag hnext hpush
    · rw [Function.update_of_ne (Ne.symm ht)]
      rcases apply_pc happly .connectionManager with he | he <;> simpa [he] using hpush
  · by_cases htake : e = .take
    · subst htake
      have hpos := (next_take hnext).1
      have hu : u.sb.count = s.sb.count - 1 := apply_take hsb happly
      refine Or.inl ?_
      show u.sb.count = 0
      omega
    · have hu : u.sb = s.sb := apply_sb happly hstore htake hclear
      show u.sb.count = 0 ∨ u.sb.count = 1 ∧ _
      rw [hu]
      rcases hcount with hc | ⟨hc, hlt, c, htesting⟩
      · exact Or.inl hc
      · refine Or.inr ⟨hc, hinv.stage_of_testing hdefined hlt htesting hnext happly, c, ?_⟩
        show (Function.update u.pc t pc (.consumer c)).isTesting = true
        by_cases ht : t = .consumer c
        · subst ht
          exact absurd (next_of_testing hnext htesting (by omega)) htake
        · rw [Function.update_of_ne (Ne.symm ht)]
          rcases apply_pc happly (.consumer c) with he | he <;> simpa [he] using htesting

omit [DecidableEq C] [Fintype C] in
theorem next_setFlag {pc pc' : Pc T} (h : next s answer pc = some (.setFlag, pc')) :
    pc = .main .flagging ∧ pc' = .main .flagUnlock := by
  cases pc with
  | main p =>
    obtain ⟨⟨e', p'⟩, hp, he⟩ := Option.map_eq_some_iff.mp h
    cases p <;> simp only [mainNext] at hp <;> (try split at hp) <;> cases hp <;> simp_all
  | connection p =>
    obtain ⟨⟨e', p'⟩, hp, he⟩ := Option.map_eq_some_iff.mp h
    simp only [connectionNext] at hp
    repeat' split at hp
    all_goals cases hp
    all_goals cases he
  | consumer p =>
    obtain ⟨⟨e', p'⟩, hp, he⟩ := Option.map_eq_some_iff.mp h
    simp only [consumerNext] at hp
    repeat' split at hp
    all_goals cases hp
    all_goals cases he

theorem Quiet.moves {v : State T C} {a : Act T C} {evs : List (Event C)} (h : Quiet s)
    (hinv : Inv s) (hsb : s.sb.Inv)
    (hset : s.shutdownFlag = false → (effect s a).setsFlag = true → Settled s)
    (hstage : v.stage < 5) (hmove : Moves s a v evs) : Quiet v := by
  have hunset : s.shutdownFlag ≠ true → s.stage < 2 := by
    intro hflag
    by_contra hge
    exact hflag (hinv.flag (by omega))
  cases hmove with
  | @run t answer e pc u on idle next apply =>
    by_cases hflag : s.shutdownFlag = true
    · have hdefined : s.undefined = false := (Bool.or_eq_false_iff.mp on).1
      exact h.run hinv hsb hdefined hflag hstage next apply
    · intro hv
      have he : e = .setFlag := ((apply_flag apply).mp hv).resolve_left hflag
      subst he
      have hsettled := hset (by simpa using hflag) (by rw [effect_run next]; rfl)
      obtain ⟨hpc, rfl⟩ := next_setFlag next
      have hof := hinv.of t
      rw [hpc] at hof
      cases t with
      | main =>
        cases apply
        refine Settled.quiet ⟨hsettled.1, ?_⟩ ?_ hv
        · exact hsettled.2
        · show (1 : Nat) < 2
          omega
      | _ => exact hof.elim
  | @handle t e hpc u next apply =>
    by_cases hflag : s.shutdownFlag = true
    · have hu : u.sb = s.sb := by
        refine apply_sb apply ?_ ?_ ?_ <;>
          cases hh : s.handler t <;> rw [hh] at next <;> cases next <;> simp
      exact h.woken hflag (fun x => apply_pc apply x) hu
    · intro hv
      have he : e = .setFlag := ((apply_flag apply).mp hv).resolve_left hflag
      subst he
      have hsettled := hset (by simpa using hflag) (by rw [effect_handle next]; rfl)
      cases apply
      exact Settled.quiet ⟨hsettled.1, hsettled.2⟩ (hunset hflag) hv
  | sigint _ => exact h
  | @wake c =>
    intro hv
    refine h.woken hv ?_ rfl hv
    intro x
    by_cases hx : x = .consumer c
    · subst hx
      exact Or.inr (Function.update_self ..)
    · exact Or.inl (Function.update_of_ne hx ..)

end Settle

/-- Every run in which things have settled when the flag is set. -/
theorem drained_of_settled [DecidableEq C] [Fintype C] {N : Nat} {sb : Sbuffer T} (hN : 1 ≤ N)
    {block : Option (List (SensorData T))} (hblock : ∀ b, block = some b → b.length = N)
    (hinit : sbufferInit .ok (N : Int) block = some sb) {as : List (Act T C)}
    {s : Audited T C} {os : List (Record T)}
    (hsettled : Machine.Meets Audited.step SetsSettled (.start sb) as)
    (hrun : Machine.run Audited.step (.start sb) as = some (s, os))
    (hfreeing : s.system.pc .main = .main .freeing) : Drained os := by
  obtain ⟨hinv, hempty⟩ := @SbufferThreads.inv_start T (Thread C) _ _ hN _ hblock hinit
  have hkept : s.system.stage < 5 → Kept N os s ∧ Quiet s.system := by
    refine Machine.meets_induction
      (P := fun os s => Inv s.system ∧ (s.system.stage < 5 → Kept N os s ∧ Quiet s.system))
      ?_ ?_ hsettled hrun |>.2
    · refine ⟨inv_start sb, fun _ => ⟨?_, ?_⟩⟩
      · refine ⟨inv_start sb, rfl, fun _ => rfl, ⟨DropOldest.empty, ⟨hinv, hempty.symm, rfl⟩,
          DropOldest.Accounts.start⟩, ?_⟩
        intro i hi
        cases hi
      · intro hflag
        cases hflag
    · intro os s a v os' ⟨hs, ih⟩ hset hstep
      obtain ⟨⟨system, evs⟩, hsystem, hbook⟩ := Option.bind_eq_some_iff.mp hstep
      have hv : v.system = system := by
        rw [← (Prod.mk.inj (Option.some.inj hbook)).1]
      have hmove := step_moves hsystem
      rw [← hv] at hmove
      refine ⟨hs.moves hmove, ?_⟩
      intro hstage
      have hle := hs.stage_le hmove
      obtain ⟨hk, hq⟩ := ih (by omega)
      obtain ⟨q, hrefines, _⟩ := hk.queue
      have hsb : s.system.sb.Inv := hk.sb ▸ hrefines.inv.sb
      exact ⟨hk.step hstep hstage, hq.moves hs hsb hset hstage hmove⟩
  have hstage : s.system.stage = 4 := by
    rw [State.stage, hfreeing]
    rfl
  obtain ⟨hk, hq⟩ := hkept (by omega)
  rcases (hq (hk.inv.flag (by omega))).2 with hcount | ⟨_, hlt, _⟩
  · exact hk.drained hcount
  · omega

/-! ## When nobody but `main` runs -/

def MainPc.holdsConn : MainPc → Bool
  | .flagging | .flagUnlock => true
  | _ => false

def MainPc.holdsSb : MainPc → Bool
  | .broadcasting | .wakeUnlock | .pollRead _ | .pollUnlock _ _ => true
  | _ => false

/-- Where `main` goes next with `count` readings stored, from the test of
`run_keep_alive` to the end of its polling loop. -/
def MainPc.then (count : Nat) : MainPc → Option MainPc
  | .keepAlive => some .flagLock
  | .flagLock => some .flagging
  | .flagging => some .flagUnlock
  | .flagUnlock => some .wakeLock
  | .wakeLock => some .broadcasting
  | .broadcasting => some .wakeUnlock
  | .wakeUnlock => some (.polling 0)
  | .polling i => some (if i < maxPolls then .pollLock i else .destroying)
  | .pollLock i => some (.pollRead i)
  | .pollRead i => some (.pollUnlock i count)
  | .pollUnlock i n => some (if n = 0 then .destroying else .polling (i + 1))
  | _ => none

def MainPc.after (count : Nat) : Nat → MainPc → Option MainPc
  | 0, p => some p
  | n + 1, p => (p.then count).bind (after count n)

/-- With a reading stored the polling loop runs to its end. -/
theorem MainPc.after_polls {count : Nat} (hcount : count ≠ 0) (k : Nat) :
    ∀ i, i + k = maxPolls → after count (4 * k + 1) (.polling i) = some .destroying := by
  induction k with
  | zero =>
    intro i hi
    have hlast : ¬i < maxPolls := by omega
    simp [after, MainPc.then, hlast]
  | succ k ih =>
    intro i hi
    have hmore : i < maxPolls := by omega
    have hfour : 4 * (k + 1) + 1 = 4 * k + 1 + 1 + 1 + 1 + 1 := by omega
    rw [hfour]
    simp only [after, MainPc.then, hmore, hcount, if_true, if_false, Option.bind_some]
    exact ih (i + 1) (by omega)

theorem MainPc.after_keepAlive {count : Nat} (hcount : count ≠ 0) :
    ∃ n, after count n .keepAlive = some .destroying := by
  have hwake : ∀ n, after count (n + 7) .keepAlive = after count n (.polling 0) := fun _ => rfl
  exact ⟨_, (hwake _).trans (after_polls hcount maxPolls 0 (Nat.zero_add _))⟩

section Alone

variable [DecidableEq C] [Fintype C]

/-- `main` is at `p`, nothing is in its way, and it holds what it has locked. -/
structure Alone (sb : Sbuffer T) (p : MainPc) (s : State T C) : Prop where
  pc : s.pc .main = .main p
  idle : s.handler .main = .idle
  defined : s.undefined = false
  flag : s.shutdownFlag = true
  conn : s.connMutex = ⟨if p.holdsConn then some .main else none, false⟩
  mutex : s.sbMutex = ⟨if p.holdsSb then some .main else none, false⟩
  sb : s.sb = sb

theorem main_step {s : Audited T C} {u : State T C} {p p' : MainPc} {e : Effect T C}
    (hpc : s.system.pc .main = .main p) (hidle : s.system.handler .main = .idle)
    (hdefined : s.system.undefined = false) (hnext : mainNext s.system p = some (e, p'))
    (happly : apply s.system .main e = some u) (hcall : call? .main e = none ∨ e = .setFlag) :
    ∃ book, Audited.step s (.run .main .none) = some (⟨u.goto .main (.main p'), book⟩, []) := by
  have hon : s.system.over = false := by
    rw [State.over, hdefined, hpc]
    cases p <;> first | rfl | cases hnext
  have hnext' : next s.system .none (s.system.pc .main) = some (e, .main p') := by
    rw [hpc, next, hnext]
    rfl
  have hsystem : Shutdown.step s.system (.run .main .none) =
      some (u.goto .main (.main p'), events s.system .main (s.system.pc .main).inSbuffer e) := by
    rw [Shutdown.step, if_neg (by simp [hon, hidle]), hnext']
    show (apply s.system .main e).bind _ = _
    rw [happly]
    rfl
  rcases hcall with hcall | rfl
  · exact ⟨s.book, by
      simp [Audited.step, hsystem, effect_run hnext', Act.thread, hcall, acceptedBy]⟩
  · exact ⟨{ s.book with shutdownFlag := true }, by
      simp [Audited.step, hsystem, effect_run hnext', call?, SbufferThreads.step, acceptedBy]⟩

omit [Fintype C] in
theorem alone_goto {u : State T C} {sb : Sbuffer T} {p : MainPc} (hidle : u.handler .main = .idle)
    (hdefined : u.undefined = false) (hflag : u.shutdownFlag = true)
    (hconn : u.connMutex = ⟨if p.holdsConn then some .main else none, false⟩)
    (hmutex : u.sbMutex = ⟨if p.holdsSb then some .main else none, false⟩) (hsb : u.sb = sb) :
    Alone sb p (u.goto .main (.main p)) where
  pc := goto_pc_self u .main (.main p)
  idle := hidle
  defined := hdefined
  flag := hflag
  conn := hconn
  mutex := hmutex
  sb := hsb

theorem Alone.goes {s : Audited T C} {sb : Sbuffer T} {p p' : MainPc}
    (h : Alone sb p s.system) (hthen : p.then sb.count = some p') :
    ∃ v, Audited.step s (.run .main .none) = some (v, []) ∧ Alone sb p' v.system := by
  obtain ⟨hpc, hidle, hdefined, hflag, hconn, hmutex, hsb⟩ := h
  have hgo : ∀ {e u}, mainNext s.system p = some (e, p') → apply s.system .main e = some u →
      (call? .main e = none ∨ e = .setFlag) → Alone sb p' (u.goto .main (.main p')) →
      ∃ v, Audited.step s (.run .main .none) = some (v, []) ∧ Alone sb p' v.system := by
    intro e u hnext happly hcall halone
    obtain ⟨book, hstep⟩ := main_step hpc hidle hdefined hnext happly hcall
    exact ⟨_, hstep, halone⟩
  cases p <;> cases hthen
  case keepAlive =>
    exact hgo (by simp [mainNext, hflag]; rfl) rfl (Or.inl rfl)
      (alone_goto hidle hdefined hflag hconn hmutex hsb)
  case flagLock =>
    exact hgo (u := { s.system with connMutex := ⟨some .main, false⟩ }) rfl
      (by simp [apply, hconn, MainPc.holdsConn]) (Or.inl rfl)
      (alone_goto hidle hdefined hflag rfl hmutex hsb)
  case flagging =>
    exact hgo rfl rfl (Or.inr rfl) (alone_goto hidle hdefined rfl hconn hmutex hsb)
  case flagUnlock =>
    exact hgo (u := { s.system with connMutex := ⟨none, false⟩ }) rfl
      (by simp [apply, hconn, MainPc.holdsConn]) (Or.inl rfl)
      (alone_goto hidle hdefined hflag rfl hmutex hsb)
  case wakeLock =>
    exact hgo (u := { s.system with sbMutex := ⟨some .main, false⟩ }) rfl
      (by simp [apply, hmutex, MainPc.holdsSb]) (Or.inl rfl)
      (alone_goto hidle hdefined hflag hconn rfl hsb)
  case broadcasting =>
    exact hgo rfl rfl (Or.inl rfl) (alone_goto hidle hdefined hflag hconn hmutex hsb)
  case wakeUnlock =>
    exact hgo (u := { s.system with sbMutex := ⟨none, false⟩ }) rfl
      (by simp [apply, hmutex, MainPc.holdsSb]) (Or.inl rfl)
      (alone_goto hidle hdefined hflag hconn rfl hsb)
  case polling i =>
    refine hgo rfl rfl (Or.inl rfl) (alone_goto hidle hdefined hflag ?_ ?_ hsb) <;>
      split <;> assumption
  case pollLock i =>
    exact hgo (u := { s.system with sbMutex := ⟨some .main, false⟩ }) rfl
      (by simp [apply, hmutex, MainPc.holdsSb]) (Or.inl rfl)
      (alone_goto hidle hdefined hflag hconn rfl hsb)
  case pollRead i =>
    refine hgo (by simp [mainNext, hsb]; rfl) rfl (Or.inl rfl)
      (alone_goto hidle hdefined hflag hconn hmutex hsb)
  case pollUnlock i n =>
    refine hgo (u := { s.system with sbMutex := ⟨none, false⟩ }) rfl
      (by simp [apply, hmutex, MainPc.holdsSb]) (Or.inl rfl)
      (alone_goto hidle hdefined hflag ?_ ?_ hsb) <;> split <;> first | assumption | rfl

theorem Alone.run {sb : Sbuffer T} {p' : MainPc} (n : Nat) :
    ∀ {s : Audited T C} {p : MainPc}, Alone sb p s.system → p.after sb.count n = some p' →
      ∃ v, Machine.run Audited.step s (List.replicate n (.run .main .none)) = some (v, []) ∧
        Alone sb p' v.system := by
  induction n with
  | zero =>
    intro s p h hafter
    cases hafter
    exact ⟨s, rfl, h⟩
  | succ n ih =>
    intro s p h hafter
    obtain ⟨q, hthen, hafter⟩ := Option.bind_eq_some_iff.mp hafter
    obtain ⟨u, hstep, hu⟩ := h.goes hthen
    obtain ⟨v, hrun, hv⟩ := ih hu hafter
    exact ⟨v, Machine.run_cons_eq_some.mpr ⟨u, [], [], hstep, hrun, rfl⟩, hv⟩

/-- Left alone with a reading stored, `main` goes through its polls and calls
`sbuffer_free` with the reading still there. -/
theorem main_alone_frees {s : Audited T C} {sb : Sbuffer T} (h : Alone sb .keepAlive s.system)
    (hcount : sb.count ≠ 0) : ∃ as v, Machine.run Audited.step s as = some (v, []) ∧
      v.system.pc .main = .main .freeing ∧ v.system.sb = sb := by
  obtain ⟨n, hafter⟩ := MainPc.after_keepAlive hcount
  obtain ⟨u, hrun, hu⟩ := h.run n hafter
  obtain ⟨book, hstep⟩ := main_step (u := { u.system with connMutex := ⟨none, true⟩ }) hu.pc
    hu.idle hu.defined rfl (by simp [apply, hu.conn, MainPc.holdsConn]) (Or.inl rfl)
  refine ⟨_, ⟨_, book⟩, Machine.run_snoc_eq_some.mpr ⟨u, [], [], hrun, hstep, rfl⟩, ?_, ?_⟩
  · show Function.update u.system.pc .main (.main .freeing) .main = _
    rw [Function.update_self]
  · exact hu.sb

end Alone

/-- The first steps of the connection manager: it accepts a client and pushes what it
reads from it. -/
def pushOne : List (Act Unit (Fin 2)) :=
  List.replicate 2 (Act.run .connectionManager .none) ++
  [Act.run .connectionManager (.select true 0), .run .connectionManager (.accept true)] ++
  List.replicate 5 (Act.run .connectionManager .none) ++
  [Act.run .connectionManager (.select false 1)] ++
  List.replicate 2 (Act.run .connectionManager .none) ++
  [Act.run .connectionManager (.read (some ⟨1, (), 0⟩))] ++
  List.replicate 2 (Act.run .connectionManager .none) ++
  [Act.run .connectionManager (.woken none)] ++ List.replicate 4 (Act.run .connectionManager .none)

/-- The reading is popped before SIGINT. -/
def settledSchedule : List (Act Unit (Fin 2)) :=
  pushOne ++ [Act.run (.consumer ⟨0, Nat.two_pos⟩) (.opened true)] ++
  List.replicate 5 (Act.run (.consumer ⟨0, Nat.two_pos⟩) .none) ++ [Act.sigint .main] ++
  List.replicate 4 (Act.handle .main) ++ List.replicate 12 (Act.run .main .none)

def State.mainPc (s : State T C) : Option MainPc :=
  match s.pc .main with
  | .main p => some p
  | _ => none

theorem State.pc_of_mainPc {s : State T C} {p : MainPc} (h : s.mainPc = some p) :
    s.pc .main = .main p := by
  unfold State.mainPc at h
  split at h
  · next q hq =>
    cases h
    exact hq
  · cases h

/-- The reading is stored when SIGINT arrives, and both consumers find the flag set and leave. -/
def storedSchedule : List (Act Unit (Fin 2)) :=
  let first : Thread (Fin 2) := .consumer ⟨0, Nat.two_pos⟩
  let second : Thread (Fin 2) := .consumer ⟨1, Nat.one_lt_two⟩
  pushOne ++ [Act.run first (.opened true), Act.run second (.opened true)] ++
  [Act.sigint .main] ++ List.replicate 4 (Act.handle .main) ++
  List.replicate 2 (Act.run first .none) ++ List.replicate 2 (Act.run second .none)

/-- It is still there when `main` calls `sbuffer_free`. -/
theorem discards_one_reading :
    ∃ (as : List (Act Unit (Fin 2))) (s : Audited Unit (Fin 2)) (os : List (Record Unit)),
      sbufferInit .ok ((1 : Nat) : Int) (some [⟨0, (), 0⟩]) = some ⟨[⟨0, (), 0⟩], 1, 0, 0, 0⟩ ∧
      Machine.run Audited.step (.start ⟨[⟨0, (), 0⟩], 1, 0, 0, 0⟩) as = some (s, os) ∧
      s.system.pc .main = .main .freeing ∧ s.system.sb.count = 1 ∧ ¬Drained os := by
  have hends : ((Machine.run Audited.step (.start ⟨[⟨0, (), 0⟩], 1, 0, 0, 0⟩)
      storedSchedule).map fun q => decide ((q.1.system.mainPc = some .keepAlive ∧
        q.1.system.handler .main = .idle ∧ q.1.system.undefined = false ∧
        q.1.system.shutdownFlag = true ∧ q.1.system.connMutex = .fresh ∧
        q.1.system.sbMutex = .fresh ∧ q.1.system.sb.count = 1) ∧
        acceptedPushes q.2 = [0] ∧ DropOldest.pops (history q.2) = [] ∧
        DropOldest.overwrites (history q.2) = [])) = some true := by
    decide +kernel
  obtain ⟨⟨u, os⟩, hrun, hu⟩ := Option.map_eq_some_iff.mp hends
  obtain ⟨⟨hpc, hidle, hdefined, hflag, hconn, hmutex, hcount⟩, haccepted, hpops, hover⟩ :=
    of_decide_eq_true hu
  have halone : Alone u.system.sb .keepAlive u.system :=
    ⟨State.pc_of_mainPc hpc, hidle, hdefined, hflag, hconn, hmutex, rfl⟩
  have hstored : u.system.sb.count = 1 := hcount
  obtain ⟨as, v, hmore, hfreeing, hsb⟩ := main_alone_frees halone (by omega)
  refine ⟨storedSchedule ++ as, v, os, by decide,
    Machine.run_append_eq_some.mpr ⟨u, os, [], hrun, hmore, (List.append_nil os).symm⟩, hfreeing,
    by rw [hsb]; exact hstored, ?_⟩
  intro hdrained
  have hzero := hdrained 0 (by rw [haccepted]; simp)
  rw [hpops, hover] at hzero
  simp at hzero

theorem drained_of_settled_one_reading :
    ∃ (s : Audited Unit (Fin 2)) (os : List (Record Unit)),
      sbufferInit .ok ((1 : Nat) : Int) (some [⟨0, (), 0⟩]) = some ⟨[⟨0, (), 0⟩], 1, 0, 0, 0⟩ ∧
      Machine.Meets Audited.step SetsSettled (.start ⟨[⟨0, (), 0⟩], 1, 0, 0, 0⟩)
        settledSchedule ∧
      Machine.run Audited.step (.start ⟨[⟨0, (), 0⟩], 1, 0, 0, 0⟩) settledSchedule =
        some (s, os) ∧
      acceptedPushes os = [0] ∧ Drained os := by
  have hinit : sbufferInit .ok ((1 : Nat) : Int) (some [⟨0, (), 0⟩]) =
      some (⟨[⟨0, (), 0⟩], 1, 0, 0, 0⟩ : Sbuffer Unit) := by decide
  have hblock := length_of_allocated (rfl : [(⟨0, (), 0⟩ : SensorData Unit)].length = 1)
  have hsettled : Machine.Meets Audited.step SetsSettled (.start ⟨[⟨0, (), 0⟩], 1, 0, 0, 0⟩)
      settledSchedule := by decide +kernel
  have hends : ((Machine.run Audited.step (.start ⟨[⟨0, (), 0⟩], 1, 0, 0, 0⟩)
      settledSchedule).map fun q => (q.1.system.mainPc, acceptedPushes q.2)) =
        some (some .freeing, [0]) := by decide +kernel
  obtain ⟨⟨s, os⟩, hrun, hs⟩ := Option.map_eq_some_iff.mp hends
  obtain ⟨hfreeing, haccepted⟩ := Prod.mk.inj hs
  exact ⟨s, os, hinit, hsettled, hrun, haccepted, drained_of_settled (Nat.le_refl 1) hblock hinit
    hsettled hrun (State.pc_of_mainPc hfreeing)⟩

end Shutdown
end Gateway
end LinuxEmbedded
