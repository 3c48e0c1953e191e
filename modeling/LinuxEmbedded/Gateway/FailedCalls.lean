import LinuxEmbedded.Gateway.Consumers
import LinuxEmbedded.Gateway.SbufferCalls

/-
What the callers of the ring buffer make of a call that fails.

`handle_client_data` pushes and reports a failed push.  `data_manager` and
`storage_manager` run the same retry loop around `sbuffer_pop`: the data of a
failed pop is given up and the next pop overwrites it.  A step is one call, one
section of a call, or one test of a loop; what an iteration does with the reading
it popped is left out.  The two tests of `storage_manager` in a row, of the outer loop
and before the pop loop, are one test.
-/
namespace LinuxEmbedded
namespace Gateway
namespace FailedCalls

open Consumers (Thread Consumer)
open SbufferThreads (stampedQueue)
open Machine

variable {T : Type}

/-- Where a consumer is in its loop. -/
inductive Pc where
  /-- At the test of the outer loop. -/
  | head
  /-- At the test of the pop loop, or asleep in `sbuffer_pop`. -/
  | popping (popRetries : Nat)
  /-- After the outer loop. -/
  | stopped
  deriving DecidableEq

structure State (T : Type) where
  buffer : SbufferThreads.State T Thread
  pc : Consumer → Pc

def start (sb : Sbuffer T) : State T where
  buffer := SbufferThreads.start sb
  pc _ := .head

inductive Act (T : Type) where
  /-- `handle_client_data` pushes a reading. -/
  | push (calls : PushCalls) (data : SensorData T)
  /-- The consumer takes its next step; `waited` is whether `pthread_cond_wait` returned 0. -/
  | consume (c : Consumer) (waited : Bool) (calls : PopCalls)
  | shutdown

inductive Event (T : Type) where
  | buffer (e : SbufferThreads.Event T Thread)
  | logged (m : Message T)
  /-- The loop goes on with the reading of the push with this number. -/
  | took (c : Consumer) (data : SensorData T) (stamp : Nat)

def State.goto (s : State T) (c : Consumer) (pc : Pc) : State T :=
  { s with pc := Function.update s.pc c pc }

/-- What `sbuffer_push` returned. -/
def pushRet? : SbufferThreads.Event T Thread → Option Int
  | .pushReturned _ ret => some ret
  | _ => none

/-- What `sbuffer_pop` returned. -/
def popRet? : SbufferThreads.Event T Thread → Option Int
  | .popReturned _ ret _ => some ret
  | _ => none

/-- The reading a pop removed, with the number of its push. -/
def removed? : SbufferThreads.Event T Thread → Option (SensorData T × Nat)
  | .stored (.popped data stamp) => some (data, stamp)
  | _ => none

/-- What `handle_client_data` logs after the push. -/
def pushReport (ret : Int) : Message T :=
  if ret ≠ 0 then logEvent "Failed to push data to sbuffer" []
  else logEvent "Data successfully pushed to sbuffer" []

def pushStep (s : State T) (calls : PushCalls) (data : SensorData T) :
    Option (State T × List (Event T)) := do
  let (buffer, os) ← SbufferCalls.step s.buffer (.push .connectionManager calls data)
  let ret ← os.findSome? pushRet?
  some ({ s with buffer }, os.map .buffer ++ [.logged (pushReport ret)])

/-- One section of `sbuffer_pop`: its entry, or a wakeup. -/
def popAct (s : State T) (c : Consumer) (waited : Bool) (calls : PopCalls) :
    SbufferCalls.Act T Thread :=
  if s.buffer.asleep c.thread then .wake c.thread waited calls else .pop c.thread calls

/-- The pop loop, with `popRetries` failed pops behind it. -/
def popStep (s : State T) (c : Consumer) (popRetries : Nat) (waited : Bool) (calls : PopCalls) :
    Option (State T × List (Event T)) := do
  let (buffer, os) ← SbufferCalls.step s.buffer (popAct s c waited calls)
  match os.findSome? popRet? with
  | none => some ({ s with buffer }, os.map .buffer)
  | some ret =>
    if ret = 0 then do
      let (data, stamp) ← os.findSome? removed?
      some (({ s with buffer }).goto c .head, os.map .buffer ++ [.took c data stamp])
    else if buffer.shutdownFlag then some (({ s with buffer }).goto c .stopped, os.map .buffer)
    else
      some (({ s with buffer }).goto c (.popping (popRetries + 1)),
        os.map .buffer ++ [.logged (logEvent "Failed to pop data from sbuffer, retry %d/%d"
          [.int (popRetries + 1), .int maxRetries])])

def step (s : State T) : Act T → Option (State T × List (Event T))
  | .push calls data => pushStep s calls data
  | .consume c waited calls =>
    match s.pc c with
    | .head => some (s.goto c (if s.buffer.shutdownFlag then .stopped else .popping 0), [])
    | .popping popRetries =>
      if popRetries < maxRetries then popStep s c popRetries waited calls
      else
        some (s.goto c .head,
          [.logged (logEvent "Max retries reached for popping data, skipping..." [])])
    | .stopped => none
  | .shutdown => do
    let (buffer, os) ← SbufferCalls.step s.buffer .shutdown
    some ({ s with buffer }, os.map .buffer)

/-! ## What a failed call leaves -/

/-- A call that returns -1 leaves the stored readings as they are. -/
def Atomic (s : State T) (a : Act T) : Prop :=
  ∀ t os, step s a = some (t, os) →
    (∀ th, .buffer (.pushReturned th (-1)) ∈ os →
      stampedQueue t.buffer = stampedQueue s.buffer) ∧
    ∀ th data, .buffer (.popReturned th (-1) data) ∈ os →
      stampedQueue t.buffer = stampedQueue s.buffer

/-- When a failed push is reported, the buffer holds no reading it did not hold before. -/
def ReportsTruly (s : State T) (a : Act T) : Prop :=
  ∀ t os, step s a = some (t, os) →
    .logged (logEvent "Failed to push data to sbuffer" []) ∈ os →
      ∀ reading ∈ stampedQueue t.buffer, reading ∈ stampedQueue s.buffer

def Event.removed? : Event T → Option (SensorData T × Nat)
  | .buffer e => FailedCalls.removed? e
  | _ => none

def Event.took? : Event T → Option (SensorData T × Nat)
  | .took _ data stamp => some (data, stamp)
  | _ => none

/-- The readings that left the queue through a pop. -/
def removedReadings (os : List (Event T)) : List (SensorData T × Nat) :=
  os.filterMap Event.removed?

/-- The readings the loops went on with. -/
def tookReadings (os : List (Event T)) : List (SensorData T × Nat) := os.filterMap Event.took?

/-- The signal and the unlock succeed once a call has stored or removed a reading. -/
def CallsSucceed (s : State T) : Act T → Prop
  | .push calls _ => calls.lock = true → calls.signal = true ∧ calls.unlock = true
  | .consume c waited calls =>
    (∃ n < maxRetries, s.pc c = .popping n) → s.buffer.sb.count ≠ 0 →
      (if s.buffer.asleep c.thread then waited = true else calls.lock = true) →
        calls.signal = true ∧ calls.unlock = true
  | .shutdown => True

/-! ## One step -/

theorem result_eq_iff {signal unlock : Bool} :
    (SbufferCalls.result signal unlock = 0 ↔ signal = true ∧ unlock = true) ∧
      (SbufferCalls.result signal unlock = -1 ↔ ¬(signal = true ∧ unlock = true)) := by
  cases signal <;> cases unlock <;> decide

section Call

variable {N : Nat} {b b' : SbufferThreads.State T Thread}
  {osb : List (SbufferThreads.Event T Thread)}

/-- A push returns once, and is atomic exactly when the calls after its store succeed. -/
theorem push_effect {t : Thread} {calls : PushCalls} {data : SensorData T}
    (h : SbufferThreads.Inv N b) (hnumbered : SbufferCalls.Numbered b)
    (heffect : SbufferCalls.Effect b (.push t calls data) b' osb) :
    ∃ ret, osb.findSome? pushRet? = some ret ∧ (ret = 0 ∨ ret = -1) ∧
      (∀ th r, .pushReturned th r ∈ osb ↔ th = t ∧ r = ret) ∧
      (∀ th r d, .popReturned th r d ∉ osb) ∧ osb.filterMap removed? = [] ∧
      ((calls.lock = true → calls.signal = true ∧ calls.unlock = true) ↔
        (ret = -1 → stampedQueue b' = stampedQueue b)) := by
  have hresult := @result_eq_iff calls.signal calls.unlock
  have hret : SbufferCalls.result calls.signal calls.unlock = 0 ∨
      SbufferCalls.result calls.signal calls.unlock = -1 := by
    rw [hresult.1, hresult.2]
    exact Classical.em _
  -- a stored reading changes the queue
  have hstored : calls.lock = true → stampedQueue b' ≠ stampedQueue b →
      ((calls.lock = true → calls.signal = true ∧ calls.unlock = true) ↔
        (SbufferCalls.result calls.signal calls.unlock = -1 →
          stampedQueue b' = stampedQueue b)) := by
    intro lock hne
    rw [hresult.2]
    constructor
    · intro hsucceed hfail
      exact absurd (hsucceed lock) hfail
    · intro hsame _
      by_contra hfail
      exact hne (hsame hfail)
  cases heffect with
  | locked lock =>
    refine ⟨-1, rfl, Or.inr rfl, by simp, by simp, rfl, ?_⟩
    exact iff_of_true (fun hlock => nomatch lock.symm.trans hlock) fun _ => rfl
  | stored lock room =>
    refine ⟨_, rfl, hret, by simp, by simp, rfl, hstored lock ?_⟩
    rw [SbufferThreads.stampedQueue_pushRoom h room]
    simp
  | replaced lock full =>
    refine ⟨_, rfl, hret, by simp, by simp, rfl, hstored lock ?_⟩
    obtain ⟨x, rest, hbefore, hafter⟩ := SbufferCalls.exists_queue_of_full h full
    rw [hafter data, hbefore]
    intro heq
    have hmem : (data, b.pushCount) ∈ stampedQueue b := by
      rw [hbefore, ← heq]
      exact List.mem_append_right _ (List.mem_singleton.mpr rfl)
    exact Nat.lt_irrefl _ (hnumbered _ hmem)
  | nothing pops => exact absurd rfl (pops _ _ _)
  | taken call => rcases call with ⟨_, he, -⟩ | ⟨_, he, -⟩ <;> cases he

end Call

/-- A section of `sbuffer_pop` finds nothing to remove, or removes a reading. -/
theorem pop_effect {N : Nat} {s : State T} {c : Consumer} {waited : Bool} {calls : PopCalls}
    {b : SbufferThreads.State T Thread} {osb : List (SbufferThreads.Event T Thread)}
    (h : SbufferThreads.Inv N s.buffer)
    (heffect : SbufferCalls.Effect s.buffer (popAct s c waited calls) b osb) :
    ((s.buffer.sb.count ≠ 0 →
        ¬ if s.buffer.asleep c.thread then waited = true else calls.lock = true) ∧
      stampedQueue b = stampedQueue s.buffer ∧
      ∃ t, osb = [.slept t] ∨ osb = [.popReturned t (-1) none]) ∨
    (s.buffer.sb.count ≠ 0 ∧
      (if s.buffer.asleep c.thread then waited = true else calls.lock = true) ∧
      stampedQueue b ≠ stampedQueue s.buffer ∧
      ∃ t data stamp, osb = [.stored (.popped data stamp),
        .logged (logEvent "Data popped from buffer" []),
        .popReturned t (SbufferCalls.result calls.signal calls.unlock) (some data)]) := by
  have hpush : ∀ t calls' data, popAct s c waited calls ≠ .push t calls' data := by
    intro t calls' data
    unfold popAct
    split <;> simp
  have henters : (popAct s c waited calls).Enters ↔
      if s.buffer.asleep c.thread then waited = true else calls.lock = true := by
    unfold popAct
    split <;> rfl
  generalize hact : popAct s c waited calls = a at heffect hpush henters
  cases heffect with
  | locked => exact absurd rfl (hpush _ _ _)
  | stored => exact absurd rfl (hpush _ _ _)
  | replaced => exact absurd rfl (hpush _ _ _)
  | nothing _ idle out =>
    refine Or.inl ⟨fun hc henter => hc (idle (henters.mpr henter)), rfl, _, out⟩
  | @taken a t signal unlock data stamp call some_ tail tailStamp =>
    right
    obtain ⟨x, hqueue⟩ := SbufferCalls.exists_queue_of_taken h some_
    have hcalls : (if s.buffer.asleep c.thread then waited = true else calls.lock = true) ∧
        signal = calls.signal ∧ unlock = calls.unlock := by
      unfold popAct at hact
      by_cases hasleep : s.buffer.asleep c.thread = true
      · rw [if_pos hasleep] at hact ⊢
        rcases call with ⟨calls', he, -⟩ | ⟨calls', he, hs, hu⟩
        · rw [← hact] at he
          cases he
        · rw [← hact] at he
          cases he
          exact ⟨rfl, hs, hu⟩
      · rw [if_neg hasleep] at hact ⊢
        rcases call with ⟨calls', he, hlock, hs, hu⟩ | ⟨calls', he, -⟩
        · rw [← hact] at he
          cases he
          exact ⟨hlock, hs, hu⟩
        · rw [← hact] at he
          cases he
    obtain ⟨henter, rfl, rfl⟩ := hcalls
    refine ⟨some_, henter, ?_, t, data, stamp, rfl⟩
    rw [hqueue (Function.update s.buffer.asleep t false)]
    intro heq
    exact List.cons_ne_self _ _ heq.symm
  | shutdown =>
    unfold popAct at hact
    split at hact <;> cases hact

/-- What one step has to do with the calls made in it. -/
structure Faithful (s : State T) (a : Act T) (t : State T) (os : List (Event T)) : Prop where
  atomic : CallsSucceed s a ↔
    (∀ th, .buffer (.pushReturned th (-1)) ∈ os →
      stampedQueue t.buffer = stampedQueue s.buffer) ∧
    ∀ th data, .buffer (.popReturned th (-1) data) ∈ os →
      stampedQueue t.buffer = stampedQueue s.buffer
  reports : CallsSucceed s a → .logged (logEvent "Failed to push data to sbuffer" []) ∈ os →
    stampedQueue t.buffer = stampedQueue s.buffer
  took : CallsSucceed s a → removedReadings os = tookReadings os

variable {N : Nat} {s t : State T} {a : Act T} {os : List (Event T)}

theorem filterMap_buffer (osb : List (SbufferThreads.Event T Thread)) :
    removedReadings (osb.map .buffer) = osb.filterMap removed? ∧
      tookReadings (osb.map .buffer) = [] := by
  constructor
  · rw [removedReadings, List.filterMap_map]
    rfl
  · rw [tookReadings, List.filterMap_map]
    exact List.filterMap_eq_nil_iff.mpr fun _ _ => rfl

theorem push_faithful {calls : PushCalls} {data : SensorData T}
    (h : SbufferThreads.Inv N s.buffer) (hnumbered : SbufferCalls.Numbered s.buffer)
    (hstep : step s (.push calls data) = some (t, os)) : Faithful s (.push calls data) t os := by
  obtain ⟨⟨b, osb⟩, hcall, hstep⟩ := Option.bind_eq_some_iff.mp hstep
  obtain ⟨ret, hret, hvalue, hpush, hpop, hremoved, hiff⟩ :=
    push_effect h hnumbered (SbufferCalls.step_effect h hcall)
  simp only [hret] at hstep
  obtain ⟨rfl, rfl⟩ := Prod.mk.inj (Option.some.inj hstep)
  have hevent : ∀ e : SbufferThreads.Event T Thread,
      Event.buffer e ∈ osb.map .buffer ++ [.logged (pushReport ret)] ↔ e ∈ osb := by
    intro e
    simp
  obtain ⟨hremovedOs, htook⟩ := filterMap_buffer osb
  refine ⟨?_, ?_, ?_⟩
  · show (calls.lock = true → _) ↔ _
    rw [hiff]
    constructor
    · intro hsame
      refine ⟨fun th hmem => hsame ?_, fun th d hmem => ?_⟩
      · exact ((hpush th _).mp ((hevent _).mp hmem)).2.symm
      · exact absurd ((hevent _).mp hmem) (hpop _ _ _)
    · rintro ⟨hsame, _⟩ rfl
      exact hsame .connectionManager ((hevent _).mpr ((hpush _ _).mpr ⟨rfl, rfl⟩))
  · intro hsucceed hmem
    refine hiff.mp hsucceed ?_
    rcases hvalue with rfl | hfail
    · simp [pushReport, logEvent] at hmem
    · exact hfail
  · intro _
    rw [removedReadings, tookReadings, List.filterMap_append, List.filterMap_append,
      ← removedReadings, ← tookReadings, hremovedOs, hremoved, htook]
    rfl

theorem popStep_buffer {c : Consumer} {n : Nat} {waited : Bool} {calls : PopCalls}
    (hstep : popStep s c n waited calls = some (t, os)) :
    ∃ osb, SbufferCalls.step s.buffer (popAct s c waited calls) = some (t.buffer, osb) := by
  obtain ⟨⟨b, osb⟩, hcall, hstep⟩ := Option.bind_eq_some_iff.mp hstep
  refine ⟨osb, ?_⟩
  suffices hb : t.buffer = b by rw [hb, hcall]
  dsimp only at hstep
  split at hstep
  · obtain ⟨rfl, rfl⟩ := Prod.mk.inj (Option.some.inj hstep)
    rfl
  · split at hstep
    · obtain ⟨⟨data, stamp⟩, _, hstep⟩ := Option.bind_eq_some_iff.mp hstep
      obtain ⟨rfl, rfl⟩ := Prod.mk.inj (Option.some.inj hstep)
      rfl
    · split at hstep
      · obtain ⟨rfl, rfl⟩ := Prod.mk.inj (Option.some.inj hstep)
        rfl
      · obtain ⟨rfl, rfl⟩ := Prod.mk.inj (Option.some.inj hstep)
        rfl

/-- What the pop loop does after a pop that failed. -/
theorem popStep_failed {c : Consumer} {n : Nat} {waited : Bool} {calls : PopCalls}
    {b : SbufferThreads.State T Thread} {osb : List (SbufferThreads.Event T Thread)}
    (hcall : SbufferCalls.step s.buffer (popAct s c waited calls) = some (b, osb))
    (hret : osb.findSome? popRet? = some (-1))
    (hstep : popStep s c n waited calls = some (t, os)) :
    t.buffer = b ∧ ∃ rest : List (Message T), os = osb.map .buffer ++ rest.map .logged ∧
      logEvent "Failed to push data to sbuffer" [] ∉ rest := by
  have hne : ¬(-1 : Int) = 0 := by decide
  unfold popStep at hstep
  simp only [hcall, Option.bind_eq_bind, Option.bind_some, hret, if_neg hne] at hstep
  by_cases hflag : b.shutdownFlag = true
  · rw [if_pos hflag] at hstep
    obtain ⟨rfl, rfl⟩ := Prod.mk.inj (Option.some.inj hstep)
    exact ⟨rfl, [], (List.append_nil _).symm, List.not_mem_nil⟩
  · rw [if_neg hflag] at hstep
    obtain ⟨rfl, rfl⟩ := Prod.mk.inj (Option.some.inj hstep)
    refine ⟨rfl, [_], rfl, ?_⟩
    simp [logEvent]

theorem pop_faithful {c : Consumer} {n : Nat} {waited : Bool} {calls : PopCalls}
    (h : SbufferThreads.Inv N s.buffer) (hpc : s.pc c = .popping n) (hn : n < maxRetries)
    (hstep : popStep s c n waited calls = some (t, os)) :
    Faithful s (.consume c waited calls) t os := by
  have hcondition : CallsSucceed s (.consume c waited calls) ↔
      (s.buffer.sb.count ≠ 0 →
        (if s.buffer.asleep c.thread then waited = true else calls.lock = true) →
          calls.signal = true ∧ calls.unlock = true) :=
    ⟨fun hsucceed => hsucceed ⟨n, hn, hpc⟩, fun hsucceed _ => hsucceed⟩
  have hbefore := hstep
  obtain ⟨⟨b, osb⟩, hcall, hstep⟩ := Option.bind_eq_some_iff.mp hstep
  -- a message of the loop is not the one about a failed push
  have hquiet : ∀ rest : List (Message T), logEvent "Failed to push data to sbuffer" [] ∉ rest →
      .logged (logEvent "Failed to push data to sbuffer" []) ∉
        osb.map Event.buffer ++ rest.map .logged := by
    intro rest hrest hmem
    simp at hmem
    exact hrest hmem
  have htook : ∀ rest : List (Message T),
      removedReadings (osb.map .buffer ++ rest.map .logged) = osb.filterMap removed? ∧
        tookReadings (osb.map .buffer ++ rest.map .logged) = [] := by
    intro rest
    obtain ⟨hremovedOs, htookOs⟩ := filterMap_buffer osb
    have hlogged : removedReadings (rest.map .logged) = [] ∧
        tookReadings (rest.map Event.logged) = [] :=
      ⟨List.filterMap_eq_nil_iff.mpr (by simp [Event.removed?]),
        List.filterMap_eq_nil_iff.mpr (by simp [Event.took?])⟩
    rw [removedReadings, tookReadings, List.filterMap_append, List.filterMap_append,
      ← removedReadings, ← tookReadings, hremovedOs, htookOs, ← removedReadings,
      ← tookReadings, hlogged.1, hlogged.2, List.append_nil, List.append_nil]
    exact ⟨rfl, rfl⟩
  rcases pop_effect h (SbufferCalls.step_effect h hcall) with
    ⟨hidle, hqueue, th, hout⟩ | ⟨hc, henter, hqueue, th, data, stamp, rfl⟩
  · have hrest : t.buffer = b ∧ ∃ rest : List (Message T),
        os = osb.map .buffer ++ rest.map .logged ∧
          logEvent "Failed to push data to sbuffer" [] ∉ rest := by
      rcases hout with rfl | rfl
      · obtain ⟨rfl, rfl⟩ := Prod.mk.inj (Option.some.inj hstep)
        exact ⟨rfl, [], rfl, List.not_mem_nil⟩
      · exact popStep_failed hcall rfl hbefore
    obtain ⟨rfl, rest, rfl, hrest⟩ := hrest
    have hsucceed : CallsSucceed s (.consume c waited calls) :=
      hcondition.mpr fun hc henter => absurd henter (hidle hc)
    refine ⟨iff_of_true hsucceed ⟨fun _ _ => hqueue, fun _ _ _ => hqueue⟩,
      fun _ _ => hqueue, fun _ => ?_⟩
    rw [(htook rest).1, (htook rest).2]
    rcases hout with rfl | rfl <;> rfl
  · have hresult := @result_eq_iff calls.signal calls.unlock
    have hnow : CallsSucceed s (.consume c waited calls) ↔
        calls.signal = true ∧ calls.unlock = true :=
      hcondition.trans ⟨fun himp => himp hc henter, fun hsucceed _ _ => hsucceed⟩
    by_cases hsucceed : calls.signal = true ∧ calls.unlock = true
    · rw [hresult.1.mpr hsucceed] at hstep
      obtain ⟨rfl, rfl⟩ := Prod.mk.inj (Option.some.inj hstep)
      refine ⟨iff_of_true (hnow.mpr hsucceed) ⟨?_, ?_⟩, ?_, fun _ => rfl⟩
      · intro th' hmem
        simp at hmem
      · intro th' d hmem
        simp at hmem
      · intro _ hmem
        simp at hmem
    · have hfail := hresult.2.mpr hsucceed
      obtain ⟨rfl, rest, rfl, hrest⟩ := popStep_failed hcall
        (by rw [hfail]; rfl) hbefore
      refine ⟨iff_of_false (fun h' => hsucceed (hnow.mp h')) ?_, ?_, ?_⟩
      · rintro ⟨_, hpop⟩
        refine hqueue (hpop th (some data) ?_)
        rw [hfail]
        simp
      · exact fun _ hmem => absurd hmem (hquiet rest hrest)
      · exact fun h' => absurd (hnow.mp h') hsucceed

/-- A step that calls neither function. -/
theorem quiet_faithful (hsucceed : CallsSucceed s a)
    (hqueue : stampedQueue t.buffer = stampedQueue s.buffer)
    (htook : removedReadings os = tookReadings os) : Faithful s a t os :=
  ⟨iff_of_true hsucceed ⟨fun _ _ => hqueue, fun _ _ _ => hqueue⟩, fun _ _ => hqueue,
    fun _ => htook⟩

structure WellFormed (N : Nat) (s : State T) : Prop where
  buffer : SbufferThreads.Inv N s.buffer
  numbered : SbufferCalls.Numbered s.buffer

theorem WellFormed.call {b : SbufferThreads.State T Thread} {act : SbufferCalls.Act T Thread}
    {osb : List (SbufferThreads.Event T Thread)} (h : WellFormed N s)
    (hcall : SbufferCalls.step s.buffer act = some (b, osb)) :
    SbufferThreads.Inv N b ∧ SbufferCalls.Numbered b := by
  have heffect := SbufferCalls.step_effect h.buffer hcall
  exact ⟨heffect.inv h.buffer, heffect.numbered h.buffer h.numbered⟩

theorem step_faithful (h : WellFormed N s) (hstep : step s a = some (t, os)) :
    Faithful s a t os ∧ WellFormed N t := by
  cases a with
  | push calls data =>
    refine ⟨push_faithful h.buffer h.numbered hstep, ?_⟩
    obtain ⟨⟨b, osb⟩, hcall, hstep⟩ := Option.bind_eq_some_iff.mp hstep
    obtain ⟨ret, _, hstep⟩ := Option.bind_eq_some_iff.mp hstep
    obtain ⟨rfl, rfl⟩ := Prod.mk.inj (Option.some.inj hstep)
    obtain ⟨hinv, hnumbered⟩ := h.call hcall
    exact ⟨hinv, hnumbered⟩
  | shutdown =>
    obtain ⟨rfl, rfl⟩ := Prod.mk.inj (Option.some.inj hstep)
    exact ⟨quiet_faithful trivial rfl rfl, ⟨h.buffer.sb, h.buffer.size_eq,
      h.buffer.stamps_length⟩, h.numbered⟩
  | consume c waited calls =>
    simp only [step] at hstep
    cases hpc : s.pc c with
    | head =>
      rw [hpc] at hstep
      obtain ⟨rfl, rfl⟩ := Prod.mk.inj (Option.some.inj hstep)
      refine ⟨quiet_faithful ?_ rfl rfl, h.buffer, h.numbered⟩
      rintro ⟨n, _, he⟩
      rw [hpc] at he
      cases he
    | popping n =>
      rw [hpc] at hstep
      by_cases hn : n < maxRetries
      · simp only [if_pos hn] at hstep
        refine ⟨pop_faithful h.buffer hpc hn hstep, ?_⟩
        obtain ⟨osb, hcall⟩ := popStep_buffer hstep
        obtain ⟨hinv, hnumbered⟩ := h.call hcall
        exact ⟨hinv, hnumbered⟩
      · simp only [if_neg hn] at hstep
        obtain ⟨rfl, rfl⟩ := Prod.mk.inj (Option.some.inj hstep)
        refine ⟨quiet_faithful ?_ rfl rfl, h.buffer, h.numbered⟩
        rintro ⟨m, hm, he⟩
        rw [hpc] at he
        cases he
        exact absurd hm hn
    | stopped =>
      rw [hpc] at hstep
      cases hstep

/-! ## A run -/

theorem callsSucceed_iff_atomic (h : WellFormed N s) (hstep : step s a = some (t, os)) :
    CallsSucceed s a ↔ Atomic s a := by
  rw [(step_faithful h hstep).1.atomic]
  constructor
  · intro hatomic t' os' hstep'
    obtain ⟨rfl, rfl⟩ := Prod.mk.inj (Option.some.inj (hstep.symm.trans hstep'))
    exact hatomic
  · intro hatomic
    exact hatomic t os hstep

theorem wellFormed_start {block : Option (List (SensorData T))} {sb : Sbuffer T} (hN : 1 ≤ N)
    (hblock : ∀ b, block = some b → b.length = N)
    (hinit : sbufferInit .ok (N : Int) block = some sb) : WellFormed N (start sb) := by
  obtain ⟨hinv, hqueue⟩ := @SbufferThreads.inv_start T Thread _ _ hN _ hblock hinit
  refine ⟨hinv, ?_⟩
  show ∀ p ∈ stampedQueue (SbufferThreads.start sb), _
  rw [hqueue]
  exact fun _ hp => absurd hp List.not_mem_nil

/-- In a run of the callers every failed call is atomic, no failed push is reported for a
stored reading and every reading a pop removes is gone on with, exactly when no call fails
after it has stored or removed a reading. -/
theorem failed_calls_atomic_iff {block : Option (List (SensorData T))} {sb : Sbuffer T}
    {as : List (Act T)} (hN : 1 ≤ N) (hblock : ∀ b, block = some b → b.length = N)
    (hinit : sbufferInit .ok (N : Int) block = some sb)
    (hrun : run step (start sb) as = some (t, os)) :
    Meets step CallsSucceed (start sb) as ↔
      Meets step Atomic (start sb) as ∧ Meets step ReportsTruly (start sb) as ∧
        removedReadings os = tookReadings os := by
  have hstart : WellFormed N (start sb) := wellFormed_start hN hblock hinit
  have hatomic : Meets step CallsSucceed (start sb) as ↔ Meets step Atomic (start sb) as :=
    meets_congr (I := WellFormed N) (fun _ _ _ _ h hstep => callsSucceed_iff_atomic h hstep)
      (fun _ _ _ _ h _ hstep => (step_faithful h hstep).2) hstart hrun
  have hreports : Meets step CallsSucceed (start sb) as ↔
      Meets step (fun u a => CallsSucceed u a ∧ ReportsTruly u a) (start sb) as := by
    refine meets_congr (I := WellFormed N) ?_
      (fun _ _ _ _ h _ hstep => (step_faithful h hstep).2) hstart hrun
    intro u a v os' hu hstep
    refine (and_iff_left_of_imp fun hsucceed v' os'' hstep' hmem reading hreading => ?_).symm
    rwa [← (step_faithful hu hstep').1.reports hsucceed hmem]
  refine ⟨fun hsucceed => ⟨hatomic.mp hsucceed, ?_, ?_⟩, fun h => hatomic.mpr h.1⟩
  · exact meets_mono (fun _ _ hboth => hboth.2) (hreports.mp hsucceed)
  · refine (meets_induction (P := fun os u => WellFormed N u ∧
      removedReadings os = tookReadings os) ⟨hstart, rfl⟩ ?_ hsucceed hrun).2
    rintro os u a v os' ⟨hu, hsame⟩ hsucceed hstep
    obtain ⟨hfaithful, hv⟩ := step_faithful hu hstep
    refine ⟨hv, ?_⟩
    have htook := hfaithful.took hsucceed
    rw [removedReadings, tookReadings, List.filterMap_append, List.filterMap_append,
      ← removedReadings, ← tookReadings, hsame, ← removedReadings, ← tookReadings, htook]

/-! ## A reading lost -/

/-- `handle_client_data` pushes a reading, and the unlock of the pop of `data_manager` that
takes it fails; the loop pops again. -/
def lostReading : List (Act Unit) :=
  [.push .ok ⟨1, (), 0⟩, .consume .dataManager true .ok,
    .consume .dataManager true ⟨true, true, true, false⟩, .consume .dataManager true .ok]

def oneSlot : Sbuffer Unit := ⟨[⟨0, (), 0⟩], 1, 0, 0, 0⟩

theorem failed_pop_loses_reading :
    sbufferInit .ok 1 (some [⟨0, (), 0⟩]) = some oneSlot ∧
    ∃ t os, run step (start oneSlot) lostReading = some (t, os) ∧
      ¬ Meets step Atomic (start oneSlot) lostReading ∧
      removedReadings os = [(⟨1, (), 0⟩, 0)] ∧ tookReadings os = [] := by
  refine ⟨rfl, _, _, rfl, ?_, rfl, rfl⟩
  rintro ⟨_, h⟩
  obtain ⟨_, h⟩ := h _ _ rfl
  obtain ⟨hatomic, _⟩ := h _ _ rfl
  -- the pop returned -1 and the queue is empty after it
  have hqueue := (hatomic _ _ rfl).2 .dataManager (some ⟨1, (), 0⟩)
    (.tail _ (.tail _ (.head _)))
  exact absurd hqueue (by decide)

/-- The lock of a push fails, a second one stores, the lock of the first pop fails, and the next
one takes the reading. -/
def keptReading : List (Act Unit) :=
  [.push ⟨false, true, true⟩ ⟨1, (), 0⟩, .push .ok ⟨2, (), 0⟩, .consume .dataManager true .ok,
    .consume .dataManager true ⟨false, true, true, true⟩, .consume .dataManager true .ok]

/-- No signal and no unlock fails. -/
theorem keptReading_succeeds : Meets step CallsSucceed (start oneSlot) keptReading := by
  refine ⟨fun _ => ⟨rfl, rfl⟩, fun _ _ _ => ⟨fun _ => ⟨rfl, rfl⟩, fun _ _ _ => ?_⟩⟩
  refine ⟨fun _ _ _ => ⟨rfl, rfl⟩, fun _ _ _ => ⟨fun _ _ _ => ⟨rfl, rfl⟩, fun _ _ _ => ?_⟩⟩
  exact ⟨fun _ _ _ => ⟨rfl, rfl⟩, fun _ _ _ => trivial⟩

theorem failed_calls_atomic_iff_keptReading :
    ∃ t os, run step (start oneSlot) keptReading = some (t, os) ∧
      .buffer (.pushReturned .connectionManager (-1)) ∈ os ∧
      .buffer (.popReturned .dataManager (-1) none) ∈ os ∧
      tookReadings os = [(⟨2, (), 0⟩, 0)] ∧
      Meets step Atomic (start oneSlot) keptReading ∧
      Meets step ReportsTruly (start oneSlot) keptReading ∧
      removedReadings os = tookReadings os := by
  have hblock := length_of_allocated (rfl : [(⟨0, (), 0⟩ : SensorData Unit)].length = 1)
  refine ⟨_, _, rfl, ?_, ?_, rfl, ?_⟩
  · exact .head _
  · exact .tail _ (.tail _ (.tail _ (.tail _ (.tail _ (.tail _ (.head _))))))
  · exact (failed_calls_atomic_iff (Nat.le_refl 1) hblock rfl rfl).mp keptReading_succeeds

end FailedCalls
end Gateway
end LinuxEmbedded
