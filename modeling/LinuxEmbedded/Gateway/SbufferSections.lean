import LinuxEmbedded.Gateway.SbufferFifo
import LinuxEmbedded.Gateway.SbufferWakeup

/-
The pthread calls of `sbuffer.c` make its mutex-protected sections atomic.

`SbufferWakeup` takes the lock, the work, the signal and the unlock one at a time,
`SbufferThreads` takes a whole section in one step.  A run of the first is a run of
the second: a push takes effect where its record is stored, a pop where it finds
the buffer nonempty or gives up.
-/
namespace LinuxEmbedded
namespace Gateway
namespace SbufferWakeup

variable {T P C : Type}

/-- What a run shows of the calls. -/
inductive Event (T P C : Type) where
  | logged (m : Message T)
  | stored (p : P) (data : SensorData T)
  /-- What the call of `sbuffer_pop` is going to return. -/
  | returned (c : C) (ret : Int) (data : Option (SensorData T))

/-- What becomes of the calls in a step. -/
def effects (s : State T P C) : Act T P C → List (Event T P C)
  | .store p =>
    match s.producers p with
    | .locked data => [.stored p data]
    | _ => []
  | .popSection c =>
    match sbufferPopSection .ok s.shutdownFlag s.sb with
    | some (.returns ret data, _, _) => [.returned c ret data]
    | _ => []
  | _ => []

variable [DecidableEq P] [DecidableEq C] [Fintype C]

def tracedStep (s : State T P C) (a : Act T P C) :
    Option (State T P C × List (Event T P C)) :=
  (step s a).map fun q => (q.1, q.2.map .logged ++ effects s a)

/-! ## The two grains -/

/-- Whether a consumer is in `pthread_cond_wait` as the sections see it, which do not tell
how a test of the loop was reached. -/
def ConsumerPc.waits? : ConsumerPc → Option Bool
  | .asleep | .woken => some true
  | .testing => none
  | _ => some false

structure Matches (s : State T P C) (u : SbufferThreads.State T (Thread P C)) : Prop where
  sb : u.sb = s.sb
  flag : u.shutdownFlag = s.shutdownFlag
  producers : ∀ p, u.asleep (.producer p) = false
  consumers : ∀ c b, (s.consumers c).waits? = some b → u.asleep (.consumer c) = b

omit [DecidableEq P] [DecidableEq C] [Fintype C] in
/-- A step that stores nothing and moves no consumer in or out of its wait. -/
theorem Matches.quiet {s t : State T P C} {u : SbufferThreads.State T (Thread P C)}
    (h : Matches s u) (hsb : t.sb = s.sb) (hflag : t.shutdownFlag = s.shutdownFlag)
    (hwait : ∀ c b, (t.consumers c).waits? = some b → (s.consumers c).waits? = some b) :
    Matches t u where
  sb := h.sb.trans hsb.symm
  flag := h.flag.trans hflag.symm
  producers := h.producers
  consumers c b hb := h.consumers c b (hwait c b hb)

omit [DecidableEq P] [Fintype C] in
theorem waits_moveConsumer {s : State T P C} {c : C} {pc : ConsumerPc}
    (h : ∀ b, pc.waits? = some b → (s.consumers c).waits? = some b) (c' : C) (b : Bool)
    (hb : ((s.moveConsumer c pc).consumers c').waits? = some b) :
    (s.consumers c').waits? = some b := by
  by_cases hc : c' = c
  · subst hc
    have hb : (Function.update s.consumers c' pc c').waits? = some b := hb
    rw [Function.update_self] at hb
    exact h b hb
  · have hb : (Function.update s.consumers c pc c').waits? = some b := hb
    rw [Function.update_of_ne hc] at hb
    exact hb

/-- What the sections show of the calls. -/
def visible : SbufferThreads.Event T (Thread P C) → Option (Event T P C)
  | .logged m => some (.logged m)
  | .popReturned (.consumer c) ret data => some (.returned c ret data)
  | _ => none

def Event.stored? : Event T P C → Option (P × SensorData T)
  | .stored p data => some (p, data)
  | _ => none

/-- The records stored, with the threads that pushed them. -/
def stores (os : List (Event T P C)) : List (P × SensorData T) := os.filterMap Event.stored?

/-- The rest of what is shown: the messages, and what the pops return. -/
def answers (os : List (Event T P C)) : List (Event T P C) :=
  os.filter fun e => e.stored?.isNone

def pushCall? : SbufferThreads.Act T (Thread P C) → Option (P × SensorData T)
  | .push (.producer p) data => some (p, data)
  | _ => none

/-- The records of the pops that return 0. -/
def taken (os : List (Event T P C)) : List (SensorData T) :=
  os.filterMap fun
    | .returned _ ret data => if ret = 0 then data else none
    | _ => none

/-- The sections `bs`, with what they did, look like the calls. -/
structure Shows (bs : List (SbufferThreads.Act T (Thread P C)))
    (es : List (SbufferThreads.Event T (Thread P C))) (os : List (Event T P C)) : Prop where
  stores : bs.filterMap pushCall? = stores os
  answers : es.filterMap visible = answers os
  pushed : SbufferThreads.pushedRecords bs = (SbufferWakeup.stores os).map Prod.snd
  popped : SbufferThreads.poppedRecords es = taken os

omit [DecidableEq P] [DecidableEq C] [Fintype C] in
theorem taken_append (os os' : List (Event T P C)) : taken (os ++ os') = taken os ++ taken os' :=
  List.filterMap_append

omit [DecidableEq P] [DecidableEq C] [Fintype C] in
theorem poppedRecords_append (es es' : List (SbufferThreads.Event T (Thread P C))) :
    SbufferThreads.poppedRecords (es ++ es') =
      SbufferThreads.poppedRecords es ++ SbufferThreads.poppedRecords es' :=
  List.filterMap_append

omit [DecidableEq P] [DecidableEq C] [Fintype C] in
theorem Shows.append {bs bs' : List (SbufferThreads.Act T (Thread P C))}
    {es es' : List (SbufferThreads.Event T (Thread P C))} {os os' : List (Event T P C)}
    (h : Shows bs es os) (h' : Shows bs' es' os') :
    Shows (bs ++ bs') (es ++ es') (os ++ os') where
  stores := by
    rw [List.filterMap_append, h.stores, h'.stores]
    exact List.filterMap_append.symm
  answers := by
    rw [List.filterMap_append, h.answers, h'.answers]
    exact (List.filter_append ..).symm
  pushed := by
    rw [SbufferThreads.pushedRecords, List.filterMap_append, ← SbufferThreads.pushedRecords,
      ← SbufferThreads.pushedRecords, h.pushed, h'.pushed, ← List.map_append]
    exact congrArg _ List.filterMap_append.symm
  popped := by
    rw [poppedRecords_append, h.popped, h'.popped, taken_append]

/-- A step at the grain of the pthread calls is answered by one section, or by none. -/
def Answered (u : SbufferThreads.State T (Thread P C)) (t : State T P C)
    (os : List (Event T P C)) : Prop :=
  ∃ bs v es, Machine.run SbufferThreads.step u bs = some (v, es) ∧ Matches t v ∧
    Shows bs es os

omit [Fintype C] in
theorem Answered.quiet {s t : State T P C} {u : SbufferThreads.State T (Thread P C)}
    (h : Matches s u) (hsb : t.sb = s.sb) (hflag : t.shutdownFlag = s.shutdownFlag)
    (hwait : ∀ c b, (t.consumers c).waits? = some b → (s.consumers c).waits? = some b) :
    Answered u t [] :=
  ⟨[], u, [], rfl, h.quiet hsb hflag hwait, rfl, rfl, rfl, rfl⟩

omit [DecidableEq P] [DecidableEq C] [Fintype C] in
theorem visible_logged (logs : List (Message T)) :
    (logs.map SbufferThreads.Event.logged).filterMap visible =
        (logs.map .logged : List (Event T P C)) ∧
      SbufferThreads.poppedRecords
        (logs.map .logged : List (SbufferThreads.Event T (Thread P C))) = [] := by
  constructor
  · rw [List.filterMap_map, ← List.filterMap_eq_map]
    rfl
  · rw [SbufferThreads.poppedRecords, List.filterMap_map]
    exact List.filterMap_eq_nil_iff.mpr fun _ _ => rfl

omit [DecidableEq P] [DecidableEq C] [Fintype C] in
theorem of_logged (logs : List (Message T)) :
    stores (logs.map .logged : List (Event T P C)) = [] ∧
      answers (logs.map .logged : List (Event T P C)) = logs.map .logged ∧
      taken (logs.map .logged : List (Event T P C)) = [] := by
  refine ⟨?_, ?_, ?_⟩
  · rw [stores, List.filterMap_map]
    exact List.filterMap_eq_nil_iff.mpr fun _ _ => rfl
  · apply List.filter_eq_self.mpr
    intro e he
    obtain ⟨m, -, rfl⟩ := List.mem_map.mp he
    rfl
  · rw [taken, List.filterMap_map]
    exact List.filterMap_eq_nil_iff.mpr fun _ _ => rfl

omit [DecidableEq P] [DecidableEq C] [Fintype C] in
theorem stores_append (os os' : List (Event T P C)) :
    stores (os ++ os') = stores os ++ stores os' :=
  List.filterMap_append

omit [DecidableEq P] [DecidableEq C] [Fintype C] in
theorem answers_append (os os' : List (Event T P C)) :
    answers (os ++ os') = answers os ++ answers os' :=
  List.filter_append ..

/-- Storing the record is the push. -/
theorem answered_store {s t : State T P C} {u : SbufferThreads.State T (Thread P C)} {p : P}
    {os : List (Message T)} (h : Matches s u)
    (hstep : step s (.store p) = some (t, os)) :
    Answered u t (os.map .logged ++ effects s (.store p)) := by
  cases hp : s.producers p with
  | locked data =>
    simp only [step, hp] at hstep
    obtain ⟨⟨sb, logs⟩, hbody, ht⟩ := Option.map_eq_some_iff.mp hstep
    obtain ⟨rfl, rfl⟩ := Prod.mk.inj ht
    have heffect : effects s (.store p) = [.stored p data] := by rw [effects, hp]
    have hpush : sbufferPush .ok u.sb data = some (0, sb, logs) := by
      rw [h.sb, sbufferPush, hbody]
      rfl
    let v : SbufferThreads.State T (Thread P C) :=
      { u with
        sb := sb
        stamps := u.stamps.set u.sb.head u.pushCount
        pushCount := u.pushCount + 1 }
    let es : List (SbufferThreads.Event T (Thread P C)) :=
      SbufferThreads.overwritten u ++ .stored (.pushed data u.pushCount) :: logs.map .logged ++
        [.pushReturned (.producer p) 0]
    have hsection : SbufferThreads.step u (.push (.producer p) data) = some (v, es) := by
      rw [SbufferThreads.step, h.producers p]
      show SbufferThreads.pushStep u (.producer p) data = some (v, es)
      rw [SbufferThreads.pushStep, hpush]
      rfl
    have hghost : (SbufferThreads.overwritten u).filterMap visible =
        ([] : List (Event T P C)) := by
      unfold SbufferThreads.overwritten
      split
      · split <;> rfl
      · rfl
    refine ⟨[.push (.producer p) data], v, es, Machine.run_single hsection,
      ⟨rfl, h.flag, h.producers, h.consumers⟩, ?_, ?_, ?_, ?_⟩
    · rw [heffect, stores_append, (of_logged logs).1]
      rfl
    · rw [heffect, answers_append, (of_logged logs).2.1]
      show (SbufferThreads.overwritten u ++ .stored (.pushed data u.pushCount) ::
        logs.map .logged ++ [.pushReturned (Thread.producer p) 0] :
          List (SbufferThreads.Event T (Thread P C))).filterMap visible = _
      rw [List.filterMap_append, List.filterMap_append, hghost, List.filterMap_cons]
      show [] ++ (logs.map SbufferThreads.Event.logged).filterMap visible ++ [] = _
      rw [(visible_logged logs).1]
      rfl
    · rw [heffect, stores_append, (of_logged logs).1]
      rfl
    · rw [heffect, taken_append, (of_logged logs).2.2, poppedRecords_append,
        poppedRecords_append, (SbufferThreads.overwritten_silent u).2.2]
      exact (List.append_nil _).trans (visible_logged logs).2
  | _ => simp [step, hp] at hstep

omit [Fintype C] in
/-- The section that a consumer at its test runs next. -/
theorem exists_section (u : SbufferThreads.State T (Thread P C)) (c : C) :
    ∃ a, pushCall? a = (none : Option (P × SensorData T)) ∧
      SbufferThreads.pushedRecords [a] = [] ∧
      SbufferThreads.step u a = SbufferThreads.popStep u (.consumer c) := by
  by_cases hc : u.asleep (.consumer c) = true
  · refine ⟨.wake (.consumer c), rfl, rfl, ?_⟩
    rw [SbufferThreads.step, if_pos hc]
  · refine ⟨.pop (.consumer c), rfl, rfl, ?_⟩
    rw [SbufferThreads.step, if_neg hc]

omit [Fintype C] in
/-- The consumer has gone to sleep, or is past the loop. -/
theorem matches_pop {s : State T P C} {u : SbufferThreads.State T (Thread P C)} {c : C}
    (h : Matches s u) (sb : Sbuffer T) (holder : Option (Thread P C)) {pc : ConsumerPc} {b : Bool}
    (hpc : pc.waits? = some b) :
    Matches { s.moveConsumer c pc with sb, holder }
      { u with sb, asleep := Function.update u.asleep (.consumer c) b } where
  sb := rfl
  flag := h.flag
  producers p := by
    show Function.update u.asleep (.consumer c) b (.producer p) = false
    rw [Function.update_of_ne (by simp)]
    exact h.producers p
  consumers c' b' hb := by
    have hb : (Function.update s.consumers c pc c').waits? = some b' := hb
    show Function.update u.asleep (.consumer c) b (.consumer c') = b'
    by_cases hc : c' = c
    · subst hc
      rw [Function.update_self, hpc] at hb
      rw [Function.update_self]
      exact Option.some.inj hb
    · rw [Function.update_of_ne hc] at hb
      rw [Function.update_of_ne (by simp [hc])]
      exact h.consumers c' b' hb

/-- The test of the loop with what follows it, up to the next release of the mutex, is one
section of the pop. -/
theorem answered_pop {s t : State T P C} {u : SbufferThreads.State T (Thread P C)} {c : C}
    {os : List (Message T)} (h : Matches s u) (hinv : s.sb.Inv)
    (hstep : step s (.popSection c) = some (t, os)) :
    Answered u t (os.map .logged ++ effects s (.popSection c)) := by
  cases hc : s.consumers c with
  | testing =>
    simp only [step, hc] at hstep
    obtain ⟨⟨outcome, sb, logs⟩, hsection, ht⟩ := Option.map_eq_some_iff.mp hstep
    have hpop : sbufferPop .ok u.shutdownFlag u.sb = some (outcome, sb, logs) := by
      rw [h.sb, h.flag]
      exact hsection
    obtain ⟨a, ha, hpushed, hstepa⟩ := exists_section u c
    cases outcome with
    | waits =>
      obtain ⟨rfl, rfl⟩ := Prod.mk.inj ht
      have heffect : effects s (.popSection c) = [] := by rw [effects, hsection]
      have hlogs : logs = [] := by
        rw [h.sb] at hpop
        rcases Sbuffer.sbufferPop_cases hinv u.shutdownFlag with ⟨-, -, he⟩ | ⟨-, -, he⟩ |
          ⟨-, data, -, he⟩
        · rw [he] at hpop
          cases hpop
          rfl
        · rw [he] at hpop
          cases hpop
        · rw [he] at hpop
          cases hpop
      refine ⟨[a], _, [.slept (.consumer c)], Machine.run_single (hstepa.trans ?_),
        matches_pop h sb none (b := true) rfl, ?_, ?_, ?_, ?_⟩
      · rw [SbufferThreads.popStep, hpop]
        rfl
      · rw [heffect, hlogs, List.filterMap_cons, ha]
        rfl
      · rw [heffect, hlogs]
        rfl
      · rw [heffect, hlogs, hpushed]
        rfl
      · rw [heffect, hlogs]
        rfl
    | returns ret data =>
      obtain ⟨rfl, rfl⟩ := Prod.mk.inj ht
      have heffect : effects s (.popSection c) = [.returned c ret data] := by
        rw [effects, hsection]
      have hghost : (SbufferThreads.removed u data).filterMap visible =
          ([] : List (Event T P C)) := by
        unfold SbufferThreads.removed
        split <;> rfl
      have hgone : SbufferThreads.poppedRecords (SbufferThreads.removed u data) = [] := by
        unfold SbufferThreads.removed
        split <;> rfl
      refine ⟨[a], _, SbufferThreads.removed u data ++ logs.map .logged ++
          [.popReturned (.consumer c) ret data], Machine.run_single (hstepa.trans ?_),
        matches_pop h sb s.holder (b := false) rfl, ?_, ?_, ?_, ?_⟩
      · rw [SbufferThreads.popStep, hpop]
        rfl
      · rw [heffect, stores_append, (of_logged logs).1, List.filterMap_cons, ha]
        rfl
      · rw [heffect, answers_append, (of_logged logs).2.1, List.filterMap_append,
          List.filterMap_append, hghost, (visible_logged logs).1]
        rfl
      · rw [heffect, stores_append, (of_logged logs).1, hpushed]
        rfl
      · rw [heffect, taken_append, (of_logged logs).2.2, poppedRecords_append,
          poppedRecords_append, hgone, (visible_logged logs).2]
        rfl
  | _ => simp [step, hc] at hstep

/-- Every step is answered. -/
theorem answered_step {s t : State T P C} {u : SbufferThreads.State T (Thread P C)}
    {a : Act T P C} {os : List (Event T P C)} (h : Matches s u) (hinv : s.sb.Inv)
    (htraced : tracedStep s a = some (t, os)) : Answered u t os := by
  obtain ⟨⟨t', logs⟩, hstep, heq⟩ := Option.map_eq_some_iff.mp htraced
  obtain ⟨rfl, rfl⟩ := Prod.mk.inj heq
  have hstay : ∀ c b, (s.consumers c).waits? = some b → (s.consumers c).waits? = some b :=
    fun _ _ hb => hb
  cases a with
  | store p => exact answered_store h hstep
  | popSection c => exact answered_pop h hinv hstep
  | callPush p data =>
    cases hp : s.producers p <;> simp [step, hp] at hstep
    obtain ⟨rfl, rfl⟩ := hstep
    exact .quiet h rfl rfl hstay
  | lockPush p =>
    cases hp : s.producers p <;> cases hfree : s.holder <;> simp [step, hp, hfree] at hstep
    obtain ⟨rfl, rfl⟩ := hstep
    exact .quiet h rfl rfl hstay
  | signal p woken =>
    cases hp : s.producers p with
    | stored =>
      simp only [step, hp] at hstep
      obtain ⟨hwakes, hstep⟩ := Option.ite_none_right_eq_some.mp hstep
      obtain ⟨rfl, rfl⟩ := Prod.mk.inj (Option.some.inj hstep)
      refine .quiet h rfl rfl ?_
      intro c b hb
      by_cases hc : c ∈ woken
      · have hb : (if c ∈ woken then ConsumerPc.woken else s.consumers c).waits? = some b := hb
        rw [if_pos hc] at hb
        rw [mem_blocked.mp (hwakes.1 hc)]
        exact hb
      · have hb : (if c ∈ woken then ConsumerPc.woken else s.consumers c).waits? = some b := hb
        rw [if_neg hc] at hb
        exact hb
    | _ => simp [step, hp] at hstep
  | unlockPush p =>
    cases hp : s.producers p <;> simp [step, hp] at hstep
    obtain ⟨rfl, rfl⟩ := hstep
    exact .quiet h rfl rfl hstay
  | callPop c =>
    cases hc : s.consumers c <;> simp [step, hc] at hstep
    obtain ⟨rfl, rfl⟩ := hstep
    refine .quiet h rfl rfl (waits_moveConsumer ?_)
    rw [hc]
    exact fun _ hb => hb
  | lockPop c =>
    cases hc : s.consumers c <;> cases hfree : s.holder <;> simp [step, hc, hfree] at hstep
    · obtain ⟨rfl, rfl⟩ := hstep
      refine .quiet h rfl rfl (waits_moveConsumer ?_)
      intro b hb
      cases hb
    · obtain ⟨rfl, rfl⟩ := hstep
      refine .quiet h rfl rfl (waits_moveConsumer ?_)
      intro b hb
      cases hb
  | unlockPop c =>
    cases hc : s.consumers c <;> simp [step, hc] at hstep
    obtain ⟨rfl, rfl⟩ := hstep
    refine .quiet h rfl rfl (waits_moveConsumer ?_)
    rw [hc]
    exact fun _ hb => hb
  | spurious c =>
    cases hc : s.consumers c <;> simp [step, hc] at hstep
    obtain ⟨rfl, rfl⟩ := hstep
    refine .quiet h rfl rfl (waits_moveConsumer ?_)
    rw [hc]
    exact fun _ hb => hb
  | shutdown =>
    obtain ⟨rfl, rfl⟩ := Prod.mk.inj (Option.some.inj hstep)
    exact ⟨[.shutdown], { u with shutdownFlag := true }, [], rfl,
      ⟨h.sb, rfl, h.producers, h.consumers⟩, rfl, rfl, rfl, rfl⟩

/-! ## Calls and their effects -/

/-- The record of a call of `sbuffer_push` that is not stored yet. -/
def ProducerPc.pending : ProducerPc T → List (SensorData T)
  | .atLock data | .locked data => [data]
  | _ => []

/-- Whether a call of `sbuffer_pop` has not got its answer yet. -/
def ConsumerPc.pending : ConsumerPc → Nat
  | .outside | .leaving => 0
  | _ => 1

def pushCalls (p : P) (as : List (Act T P C)) : List (SensorData T) :=
  as.filterMap fun
    | .callPush p' data => if p' = p then some data else none
    | _ => none

def popCalls (c : C) (as : List (Act T P C)) : Nat :=
  as.countP fun
    | .callPop c' => c' = c
    | _ => false

/-- The records a thread stored. -/
def storedBy (p : P) (os : List (Event T P C)) : List (SensorData T) :=
  (stores os).filterMap fun q => if q.1 = p then some q.2 else none

/-- How many of the pops of a thread have their answer. -/
def answersTo (c : C) (os : List (Event T P C)) : Nat :=
  os.countP fun
    | .returned c' _ _ => c' = c
    | _ => false

/-- Every call of a thread takes effect once, in the order of the calls. -/
structure Served (as : List (Act T P C)) (os : List (Event T P C)) (s : State T P C) :
    Prop where
  pushes : ∀ p, storedBy p os ++ (s.producers p).pending = pushCalls p as
  pops : ∀ c, answersTo c os + (s.consumers c).pending = popCalls c as

/-- What one step does for the calls of each thread. -/
structure Serves (s : State T P C) (a : Act T P C) (t : State T P C)
    (os : List (Event T P C)) : Prop where
  pushes : ∀ p, storedBy p os ++ (t.producers p).pending =
    (s.producers p).pending ++ pushCalls p [a]
  pops : ∀ c, answersTo c os + (t.consumers c).pending = (s.consumers c).pending + popCalls c [a]

omit [Fintype C] in
/-- A step of a producer stores what the call of it brought, or nothing. -/
theorem serves_producer {s t : State T P C} {a : Act T P C} {os : List (Event T P C)} {p : P}
    {pc : ProducerPc T} (stored called : List (SensorData T))
    (ht : t.producers = Function.update s.producers p pc)
    (hwait : ∀ c, (t.consumers c).pending = (s.consumers c).pending)
    (hcount : stored ++ pc.pending = (s.producers p).pending ++ called)
    (hstored : ∀ p', storedBy p' os = if p = p' then stored else [])
    (hcalled : ∀ p', pushCalls p' [a] = if p = p' then called else [])
    (hnone : ∀ c, answersTo c os = 0) (hnone' : ∀ c, popCalls c [a] = 0) : Serves s a t os where
  pushes p' := by
    rw [hstored, hcalled, ht]
    by_cases hp : p = p'
    · subst hp
      rw [if_pos rfl, if_pos rfl, Function.update_self, hcount]
    · rw [if_neg hp, if_neg hp, List.nil_append, List.append_nil,
        Function.update_of_ne fun he => hp he.symm]
  pops c := by
    rw [hnone, hnone', hwait, Nat.zero_add, Nat.add_zero]

omit [Fintype C] in
theorem serves_consumer {s t : State T P C} {a : Act T P C} {os : List (Event T P C)} {c : C}
    {pc : ConsumerPc} (answered called : Nat)
    (ht : t.consumers = Function.update s.consumers c pc) (hstay : t.producers = s.producers)
    (hcount : answered + pc.pending = (s.consumers c).pending + called)
    (hanswered : ∀ c', answersTo c' os = if c = c' then answered else 0)
    (hcalled : ∀ c', popCalls c' [a] = if c = c' then called else 0)
    (hnone : ∀ p, storedBy p os = []) (hnone' : ∀ p, pushCalls p [a] = []) :
    Serves s a t os where
  pushes p := by
    rw [hnone, hnone', hstay, List.nil_append, List.append_nil]
  pops c' := by
    rw [hanswered, hcalled, ht]
    by_cases hc : c = c'
    · subst hc
      rw [if_pos rfl, if_pos rfl, Function.update_self, hcount]
    · rw [if_neg hc, if_neg hc, Nat.zero_add, Nat.add_zero,
        Function.update_of_ne fun he => hc he.symm]

theorem serves_step {s t : State T P C} {a : Act T P C} {os : List (Message T)}
    (hstep : step s a = some (t, os)) : Serves s a t (effects s a) := by
  cases a with
  | callPush p data =>
    cases hp : s.producers p <;> simp [step, hp] at hstep
    obtain ⟨rfl, rfl⟩ := hstep
    refine serves_producer [] [data] rfl (fun _ => rfl) ?_
      (fun _ => (ite_self _).symm) ?_ (fun _ => rfl) (fun _ => rfl)
    · rw [hp]
      rfl
    · intro p'
      by_cases he : p = p' <;> simp [pushCalls, he]
  | lockPush p =>
    cases hp : s.producers p <;> cases hfree : s.holder <;> simp [step, hp, hfree] at hstep
    obtain ⟨rfl, rfl⟩ := hstep
    refine serves_producer [] [] rfl (fun _ => rfl) ?_
      (fun _ => (ite_self _).symm) (fun _ => (ite_self _).symm) (fun _ => rfl) (fun _ => rfl)
    rw [hp]
    rfl
  | store p =>
    cases hp : s.producers p with
    | locked data =>
      simp only [step, hp] at hstep
      obtain ⟨⟨sb, logs⟩, hbody, ht⟩ := Option.map_eq_some_iff.mp hstep
      obtain ⟨rfl, rfl⟩ := Prod.mk.inj ht
      have heffect : effects s (.store p) = [.stored p data] := by rw [effects, hp]
      rw [heffect]
      refine serves_producer [data] [] rfl (fun _ => rfl) ?_ ?_
        (fun _ => (ite_self _).symm) (fun _ => rfl) (fun _ => rfl)
      · rw [hp]
        rfl
      · intro p'
        by_cases he : p = p' <;> simp [storedBy, stores, Event.stored?, he]
    | _ => simp [step, hp] at hstep
  | signal p woken =>
    cases hp : s.producers p with
    | stored =>
      simp only [step, hp] at hstep
      obtain ⟨hwakes, hstep⟩ := Option.ite_none_right_eq_some.mp hstep
      obtain ⟨rfl, rfl⟩ := Prod.mk.inj (Option.some.inj hstep)
      refine serves_producer [] [] rfl ?_ ?_
        (fun _ => (ite_self _).symm) (fun _ => (ite_self _).symm) (fun _ => rfl) (fun _ => rfl)
      · intro c
        show (if c ∈ woken then ConsumerPc.woken else s.consumers c).pending = _
        by_cases hc : c ∈ woken
        · rw [if_pos hc, mem_blocked.mp (hwakes.1 hc)]
          rfl
        · rw [if_neg hc]
      · rw [hp]
        rfl
    | _ => simp [step, hp] at hstep
  | unlockPush p =>
    cases hp : s.producers p <;> simp [step, hp] at hstep
    obtain ⟨rfl, rfl⟩ := hstep
    refine serves_producer [] [] rfl (fun _ => rfl) ?_
      (fun _ => (ite_self _).symm) (fun _ => (ite_self _).symm) (fun _ => rfl) (fun _ => rfl)
    rw [hp]
    rfl
  | callPop c =>
    cases hc : s.consumers c <;> simp [step, hc] at hstep
    obtain ⟨rfl, rfl⟩ := hstep
    refine serves_consumer 0 1 rfl rfl ?_
      (fun _ => (ite_self _).symm) ?_ (fun _ => rfl) (fun _ => rfl)
    · rw [hc]
      rfl
    · intro c'
      by_cases he : c = c' <;> simp [popCalls, he]
  | lockPop c =>
    have hpending : (s.consumers c).pending = 1 ∧
        t.consumers = Function.update s.consumers c .testing ∧ t.producers = s.producers := by
      cases hc : s.consumers c <;> cases hfree : s.holder <;> simp [step, hc, hfree] at hstep
      · obtain ⟨rfl, -⟩ := hstep
        exact ⟨rfl, rfl, rfl⟩
      · obtain ⟨rfl, -⟩ := hstep
        exact ⟨rfl, rfl, rfl⟩
    obtain ⟨hone, ht, hstay⟩ := hpending
    refine serves_consumer 0 0 ht hstay ?_
      (fun _ => (ite_self _).symm) (fun _ => (ite_self _).symm) (fun _ => rfl) (fun _ => rfl)
    rw [hone]
    rfl
  | popSection c =>
    cases hc : s.consumers c with
    | testing =>
      simp only [step, hc] at hstep
      obtain ⟨⟨outcome, sb, logs⟩, hsection, ht⟩ := Option.map_eq_some_iff.mp hstep
      cases outcome with
      | waits =>
        obtain ⟨rfl, rfl⟩ := Prod.mk.inj ht
        have heffect : effects s (.popSection c) = [] := by rw [effects, hsection]
        rw [heffect]
        refine serves_consumer 0 0 rfl rfl ?_
          (fun _ => (ite_self _).symm) (fun _ => (ite_self _).symm) (fun _ => rfl)
          (fun _ => rfl)
        rw [hc]
        rfl
      | returns ret data =>
        obtain ⟨rfl, rfl⟩ := Prod.mk.inj ht
        have heffect : effects s (.popSection c) = [.returned c ret data] := by
          rw [effects, hsection]
        rw [heffect]
        refine serves_consumer 1 0 rfl rfl ?_ ?_
          (fun _ => (ite_self _).symm) (fun _ => rfl) (fun _ => rfl)
        · rw [hc]
          rfl
        · intro c'
          by_cases he : c = c' <;> simp [answersTo, he]
    | _ => simp [step, hc] at hstep
  | unlockPop c =>
    cases hc : s.consumers c <;> simp [step, hc] at hstep
    obtain ⟨rfl, rfl⟩ := hstep
    refine serves_consumer 0 0 rfl rfl ?_
      (fun _ => (ite_self _).symm) (fun _ => (ite_self _).symm) (fun _ => rfl) (fun _ => rfl)
    rw [hc]
    rfl
  | spurious c =>
    cases hc : s.consumers c <;> simp [step, hc] at hstep
    obtain ⟨rfl, rfl⟩ := hstep
    refine serves_consumer 0 0 rfl rfl ?_
      (fun _ => (ite_self _).symm) (fun _ => (ite_self _).symm) (fun _ => rfl) (fun _ => rfl)
    rw [hc]
    rfl
  | shutdown =>
    obtain ⟨rfl, rfl⟩ := Prod.mk.inj (Option.some.inj hstep)
    constructor
    · intro p
      exact (List.append_nil _).symm
    · intro c
      exact Nat.zero_add _

/-! ## Runs -/

omit [Fintype C] in
theorem served_next {as : List (Act T P C)} {os os' : List (Event T P C)} {s t : State T P C}
    {a : Act T P C} (h : Served as os s) (hnext : Serves s a t os') :
    Served (as ++ [a]) (os ++ os') t where
  pushes p := by
    have hstored : storedBy p (os ++ os') = storedBy p os ++ storedBy p os' := by
      rw [storedBy, stores_append, List.filterMap_append]
      rfl
    have hcalls : pushCalls p (as ++ [a]) = pushCalls p as ++ pushCalls p [a] :=
      List.filterMap_append
    rw [hstored, hcalls, List.append_assoc, hnext.pushes, ← List.append_assoc, h.pushes]
  pops c := by
    have hcalls : popCalls c (as ++ [a]) = popCalls c as + popCalls c [a] := List.countP_append
    have hanswers : answersTo c (os ++ os') = answersTo c os + answersTo c os' :=
      List.countP_append
    have hbefore := h.pops c
    have hnow := hnext.pops c
    omega

omit [DecidableEq P] [DecidableEq C] [Fintype C] in
theorem matches_start (sb : Sbuffer T) :
    Matches (start sb : State T P C) (SbufferThreads.start sb) where
  sb := rfl
  flag := rfl
  producers _ := rfl
  consumers _ _ hb := Option.some.inj hb

/-- Every run of the pthread calls is a run of the sections: each call takes effect once,
between its beginning and its end, and the threads see a bounded queue. -/
theorem calls_refine_sections {N : Nat} {block : Option (List (SensorData T))} {sb : Sbuffer T}
    {as : List (Act T P C)} {s : State T P C} {os : List (Event T P C)} (hN : 1 ≤ N)
    (hblock : ∀ b, block = some b → b.length = N)
    (hinit : sbufferInit .ok (N : Int) block = some sb)
    (hrun : Machine.run tracedStep (start sb) as = some (s, os)) :
    (∃ bs u es, Machine.run SbufferThreads.step (SbufferThreads.start sb) bs = some (u, es) ∧
      Matches s u ∧ Shows bs es os) ∧
    Served as os s ∧
    ∃ lost : List Nat,
      ((((stores os).map Prod.snd).zipIdx).filter fun p => p.2 ∉ lost).map Prod.fst =
        taken os ++ s.sb.queue := by
  obtain ⟨hstart, hempty⟩ :=
    @SbufferThreads.inv_start T (Thread P C) _ _ hN _ hblock hinit
  have hboth : (∃ bs u es,
      Machine.run SbufferThreads.step (SbufferThreads.start sb) bs = some (u, es) ∧
        Matches s u ∧ Shows bs es os) ∧ Served as os s := by
    refine Machine.run_induction (P := fun as os s => (∃ bs u es,
      Machine.run SbufferThreads.step (SbufferThreads.start sb) bs = some (u, es) ∧
        Matches s u ∧ Shows bs es os) ∧ Served as os s) ?_ ?_ hrun
    · refine ⟨⟨[], SbufferThreads.start sb, [], rfl, matches_start sb, rfl, rfl, rfl, rfl⟩, ?_⟩
      exact ⟨fun _ => rfl, fun _ => rfl⟩
    · intro as os v a t os' _ ih hstep
      obtain ⟨⟨bs, u, es, hu, hmatch, hshows⟩, hserved⟩ := ih
      obtain ⟨_, q, -, hR⟩ := SbufferThreads.run_refines hstart hempty hu
      have hinv : v.sb.Inv := hmatch.sb ▸ hR.inv.sb
      obtain ⟨bs', u', es', hu', hmatch', hshows'⟩ := answered_step hmatch hinv hstep
      refine ⟨⟨bs ++ bs', u', es ++ es',
        Machine.run_append_eq_some.mpr ⟨u, es, es', hu, hu', rfl⟩, hmatch',
        hshows.append hshows'⟩, ?_⟩
      obtain ⟨⟨t', logs⟩, hplain, heq⟩ := Option.map_eq_some_iff.mp hstep
      obtain ⟨rfl, rfl⟩ := Prod.mk.inj heq
      -- the messages serve no call
      have hserves := serves_step hplain
      apply served_next hserved
      constructor
      · intro p
        rw [storedBy, stores_append, (of_logged logs).1]
        exact hserves.pushes p
      · intro c
        have hnone : answersTo c (logs.map .logged : List (Event T P C)) = 0 := by
          apply List.countP_eq_zero.mpr
          intro e he
          obtain ⟨m, -, rfl⟩ := List.mem_map.mp he
          exact Bool.false_ne_true
        rw [answersTo, List.countP_append, ← answersTo, ← answersTo, hnone, Nat.zero_add]
        exact hserves.pops c
  obtain ⟨⟨bs, u, es, hu, hmatch, hshows⟩, hserved⟩ := hboth
  refine ⟨⟨bs, u, es, hu, hmatch, hshows⟩, hserved, SbufferThreads.overwrittenPushes es, ?_⟩
  obtain ⟨cs, q, hq, hR⟩ := SbufferThreads.run_refines hstart hempty hu
  obtain ⟨hpush, -, hpop⟩ := SbufferThreads.run_histories hstart hempty hu
  have hkept := congrArg (List.map Prod.fst) (DropOldest.run_accounts hq).kept
  rw [DropOldest.survivors, hpush, List.map_append, hpop, hR.queue_eq,
    SbufferThreads.stampedQueue_map_fst hR.inv, hshows.pushed, hshows.popped, hmatch.sb] at hkept
  exact hkept

/-- A consumer that sleeps on the empty buffer, is signalled and takes the record. -/
theorem calls_refine_sections_signalled :
    ∃ (sb : Sbuffer Unit) (s : State Unit Unit (Fin 2)) (os : List (Event Unit Unit (Fin 2))),
      sbufferInit .ok 1 (some [⟨0, (), 0⟩]) = some sb ∧
      Machine.run tracedStep (start sb)
        [.callPop 0, .lockPop 0, .popSection 0, .callPush () ⟨7, (), 1⟩, .lockPush (), .store (),
          .signal () {0}, .unlockPush (), .lockPop 0, .popSection 0] = some (s, os) ∧
      Served [.callPop 0, .lockPop 0, .popSection 0, .callPush () ⟨7, (), 1⟩, .lockPush (),
        .store (), .signal () {0}, .unlockPush (), .lockPop 0, .popSection 0] os s := by
  have hsome : (Machine.run (@tracedStep Unit Unit (Fin 2) _ _ _)
      (start ⟨[(⟨0, (), 0⟩ : SensorData Unit)], 1, 0, 0, 0⟩)
      [.callPop 0, .lockPop 0, .popSection 0, .callPush () ⟨7, (), 1⟩, .lockPush (), .store (),
        .signal () {0}, .unlockPush (), .lockPop 0, .popSection 0]).isSome = true := by
    decide +kernel
  obtain ⟨⟨s, os⟩, hrun⟩ := Option.isSome_iff_exists.mp hsome
  have hblock := length_of_allocated (rfl : [(⟨0, (), 0⟩ : SensorData Unit)].length = 1)
  exact ⟨⟨[⟨0, (), 0⟩], 1, 0, 0, 0⟩, s, os, rfl, hrun,
    (calls_refine_sections (Nat.le_refl 1) hblock rfl hrun).2.1⟩

end SbufferWakeup
end Gateway
end LinuxEmbedded
