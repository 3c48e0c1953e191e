import LinuxEmbedded.Gateway.SbufferFifo

/-
The ring buffer under any number of threads, with pthread calls that may fail.

The state is the one of the threads whose calls all succeed.  A push whose lock
succeeds has stored its record, and a pop that wrote to `*data` has removed one,
whatever the call returns after that.
-/
namespace LinuxEmbedded
namespace Gateway
namespace SbufferCalls

open SbufferThreads (State Event start overwritten removed stampedQueue)

variable {T Tid : Type}

inductive Act (T Tid : Type) where
  | push (t : Tid) (calls : PushCalls) (data : SensorData T)
  | pop (t : Tid) (calls : PopCalls)
  /-- `pthread_cond_wait` of `sbuffer_pop` returns, with 0 if `waited`. -/
  | wake (t : Tid) (waited : Bool) (calls : PopCalls)
  | shutdown

def pushCall (calls : PushCalls) (s : State T Tid) (t : Tid) (data : SensorData T) :
    Option (State T Tid × List (Event T Tid)) := do
  let (ret, sb, logs) ← sbufferPush calls s.sb data
  if calls.lock then
    some ({ s with
        sb
        stamps := s.stamps.set s.sb.head s.pushCount
        pushCount := s.pushCount + 1 },
      overwritten s ++ .stored (.pushed data s.pushCount) :: logs.map .logged ++
        [.pushReturned t ret])
  else some ({ s with sb }, [.pushReturned t ret])

variable [DecidableEq Tid]

/-- What a section of `sbuffer_pop` leaves behind. -/
def popEnd (s : State T Tid) (t : Tid) :
    PopOutcome T × Sbuffer T × List (Message T) → State T Tid × List (Event T Tid)
  | (.waits, sb, _) => ({ s with sb, asleep := Function.update s.asleep t true }, [.slept t])
  | (.returns ret data, sb, logs) =>
    ({ s with sb, asleep := Function.update s.asleep t false },
      removed s data ++ logs.map .logged ++ [.popReturned t ret data])

def step (s : State T Tid) : Act T Tid → Option (State T Tid × List (Event T Tid))
  | .push t calls data => if s.asleep t then none else pushCall calls s t data
  | .pop t calls =>
    if s.asleep t then none
    else (sbufferPop calls s.shutdownFlag s.sb).map (popEnd s t)
  | .wake t waited calls =>
    if s.asleep t then
      if waited then (sbufferPopSection calls s.shutdownFlag s.sb).map (popEnd s t)
      else some (popEnd s t (.returns (-1) none, s.sb, []))
    else none
  | .shutdown => some ({ s with shutdownFlag := true }, [])

/-! ## What one step can do -/

/-- The return value once the work is done. -/
def result (signal unlock : Bool) : Int := if signal && unlock then 0 else -1

/-- The section of `sbuffer_pop` gets to the test of its loop. -/
def Act.Enters : Act T Tid → Prop
  | .pop _ calls => calls.lock = true
  | .wake _ waited _ => waited = true
  | _ => False

/-- What happens to the stored records in one step. -/
inductive Effect (s : State T Tid) : Act T Tid → State T Tid → List (Event T Tid) → Prop where
  | locked {t calls data} (lock : calls.lock = false) :
    Effect s (.push t calls data) s [.pushReturned t (-1)]
  | stored {t calls data} (lock : calls.lock = true) (room : s.sb.count < s.sb.size) :
    Effect s (.push t calls data)
      { s with
        sb := s.sb.pushRoom data
        stamps := s.stamps.set s.sb.head s.pushCount
        pushCount := s.pushCount + 1 }
      [.stored (.pushed data s.pushCount), .logged (logEvent "Data pushed to buffer" []),
        .pushReturned t (result calls.signal calls.unlock)]
  | replaced {t calls data oldest named stamp} (lock : calls.lock = true)
      (full : s.sb.count = s.sb.size) (tail : s.sb.buffer[s.sb.tail]? = some oldest)
      (tailStamp : s.stamps[s.sb.tail]? = some stamp)
      (next : s.sb.buffer[(s.sb.tail + 1) % s.sb.size]? = some named) :
    Effect s (.push t calls data)
      { s with
        sb := s.sb.pushFull data
        stamps := s.stamps.set s.sb.head s.pushCount
        pushCount := s.pushCount + 1 }
      [.stored (.overwrote oldest stamp), .stored (.pushed data s.pushCount),
        .logged (logEvent "Dropped oldest data from sensor %d due to buffer full"
          [.int named.sensorId.toInt]),
        .logged (logEvent "Data pushed to buffer" []),
        .pushReturned t (result calls.signal calls.unlock)]
  /-- The thread sleeps, or its pop ends without a record. -/
  | nothing {a t b os} (pops : ∀ t calls data, a ≠ .push t calls data)
      (idle : a.Enters → s.sb.count = 0)
      (out : os = [.slept t] ∨ os = [.popReturned t (-1) none]) :
    Effect s a { s with asleep := Function.update s.asleep t b } os
  | taken {a t signal unlock data stamp}
      (call : (∃ calls, a = .pop t calls ∧ calls.lock = true ∧ signal = calls.signal ∧
          unlock = calls.unlock) ∨
        ∃ calls, a = .wake t true calls ∧ signal = calls.signal ∧ unlock = calls.unlock)
      (some_ : s.sb.count ≠ 0) (tail : s.sb.buffer[s.sb.tail]? = some data)
      (tailStamp : s.stamps[s.sb.tail]? = some stamp) :
    Effect s a { s with sb := s.sb.takeTail, asleep := Function.update s.asleep t false }
      [.stored (.popped data stamp), .logged (logEvent "Data popped from buffer" []),
        .popReturned t (result signal unlock) (some data)]
  | shutdown : Effect s .shutdown { s with shutdownFlag := true } []

omit [DecidableEq Tid] in
theorem sbufferPush_of_locked {calls : PushCalls} {sb : Sbuffer T} {data : SensorData T}
    (lock : calls.lock = true) : sbufferPush calls sb data =
      (sbufferPushBody sb data).map fun r =>
        (result calls.signal calls.unlock, r.1, r.2) := by
  unfold sbufferPush
  rw [if_neg (by simp [lock])]
  cases sbufferPushBody sb data with
  | none => rfl
  | some r => cases hs : calls.signal <;> cases hu : calls.unlock <;> simp [result]

omit [DecidableEq Tid] in
theorem sbufferPopSection_cases {sb : Sbuffer T} (h : sb.Inv) (calls : PopCalls)
    (shutdownFlag : Bool) :
    (sb.count = 0 ∧ ∃ outcome, (outcome = .waits ∨ outcome = .returns (-1) none) ∧
      sbufferPopSection calls shutdownFlag sb = some (outcome, sb, [])) ∨
    (sb.count ≠ 0 ∧ ∃ data, sb.buffer[sb.tail]? = some data ∧
      sbufferPopSection calls shutdownFlag sb =
        some (.returns (result calls.signal calls.unlock) (some data), sb.takeTail,
          [logEvent "Data popped from buffer" []])) := by
  unfold sbufferPopSection
  by_cases hc : sb.count = 0
  · left
    refine ⟨hc, ?_⟩
    cases shutdownFlag with
    | false =>
      rw [if_pos ⟨hc, rfl⟩]
      cases calls.wait with
      | false => exact ⟨_, Or.inr rfl, rfl⟩
      | true => exact ⟨_, Or.inl rfl, rfl⟩
    | true =>
      rw [if_neg (by simp), if_pos hc]
      exact ⟨_, Or.inr rfl, rfl⟩
  · right
    obtain ⟨data, hdata, htake⟩ := Sbuffer.sbufferTake_of_pos h
    refine ⟨hc, data, hdata, ?_⟩
    rw [if_neg (fun hand => hc hand.1), if_neg hc, htake]
    cases hs : calls.signal <;> cases hu : calls.unlock <;> simp [result]

theorem pushCall_effect {N : Nat} {s u : State T Tid} {t : Tid}
    {calls : PushCalls} {data : SensorData T} {os : List (Event T Tid)}
    (h : SbufferThreads.Inv N s) (hpush : pushCall calls s t data = some (u, os)) :
    Effect s (.push t calls data) u os := by
  unfold pushCall at hpush
  cases lock : calls.lock with
  | false =>
    rw [sbufferPush, if_pos (by simp [lock])] at hpush
    simp only [lock] at hpush
    obtain ⟨rfl, rfl⟩ := Prod.mk.inj (Option.some.inj hpush)
    exact .locked lock
  | true =>
    rw [sbufferPush_of_locked lock] at hpush
    have hle := h.sb.count_le
    by_cases hc : s.sb.count = s.sb.size
    · obtain ⟨named, hnamed, hbody⟩ := Sbuffer.sbufferPushBody_of_full h.sb hc data
      obtain ⟨oldest, holdest, -⟩ := Sbuffer.sbufferTake_of_pos h.sb
      obtain ⟨stamp, hstamp⟩ := SbufferThreads.exists_tail_stamp h
      have hlost : overwritten s = [.stored (.overwrote oldest stamp)] := by
        rw [overwritten, if_pos hc, SbufferThreads.head_eq_tail_of_full h.sb hc, holdest, hstamp]
      simp only [hbody, lock, hlost] at hpush
      obtain ⟨rfl, rfl⟩ := Prod.mk.inj (Option.some.inj hpush)
      exact .replaced lock hc holdest hstamp hnamed
    · have hroom : s.sb.count < s.sb.size := by omega
      have hnone : overwritten s = [] := if_neg hc
      simp only [Sbuffer.sbufferPushBody_of_room h.sb hroom data, lock, hnone] at hpush
      obtain ⟨rfl, rfl⟩ := Prod.mk.inj (Option.some.inj hpush)
      exact .stored lock hroom

/-- A section of `sbuffer_pop` with the mutex held. -/
theorem section_effect {N : Nat} {s u : State T Tid} {t : Tid} {calls : PopCalls}
    {a : Act T Tid} {os : List (Event T Tid)} (h : SbufferThreads.Inv N s)
    (ha : a = .pop t calls ∧ calls.lock = true ∨ a = .wake t true calls)
    (hsection : (sbufferPopSection calls s.shutdownFlag s.sb).map (popEnd s t) =
      some (u, os)) : Effect s a u os := by
  have hpops : ∀ t' calls' data, a ≠ .push t' calls' data := by
    intro t' calls' data he
    rcases ha with ⟨rfl, _⟩ | rfl <;> cases he
  rcases sbufferPopSection_cases h.sb calls s.shutdownFlag with ⟨hc, outcome, hout, he⟩ |
    ⟨hc, data, hdata, he⟩
  · rw [he] at hsection
    rcases hout with rfl | rfl
    · obtain ⟨rfl, rfl⟩ := Prod.mk.inj (Option.some.inj hsection)
      exact .nothing hpops (fun _ => hc) (Or.inl rfl)
    · obtain ⟨rfl, rfl⟩ := Prod.mk.inj (Option.some.inj hsection)
      exact .nothing hpops (fun _ => hc) (Or.inr rfl)
  · obtain ⟨stamp, hstamp⟩ := SbufferThreads.exists_tail_stamp h
    have hgone : removed s (some data) = [.stored (.popped data stamp)] := by
      simp only [removed, hstamp]
    rw [he] at hsection
    simp only [Option.map_some, popEnd, hgone] at hsection
    obtain ⟨rfl, rfl⟩ := Prod.mk.inj (Option.some.inj hsection)
    refine .taken ?_ hc hdata hstamp
    rcases ha with ⟨rfl, hlock⟩ | rfl
    · exact Or.inl ⟨calls, rfl, hlock, rfl, rfl⟩
    · exact Or.inr ⟨calls, rfl, rfl, rfl⟩

/-- Every step has one of the effects. -/
theorem step_effect {N : Nat} {s u : State T Tid} {a : Act T Tid} {os : List (Event T Tid)}
    (h : SbufferThreads.Inv N s) (hstep : step s a = some (u, os)) : Effect s a u os := by
  cases a with
  | push t calls data =>
    exact pushCall_effect h (Option.ite_none_left_eq_some.mp hstep).2
  | pop t calls =>
    have hpop := (Option.ite_none_left_eq_some.mp hstep).2
    cases lock : calls.lock with
    | false =>
      rw [sbufferPop, if_pos (by simp [lock])] at hpop
      obtain ⟨rfl, rfl⟩ := Prod.mk.inj (Option.some.inj hpop)
      refine .nothing ?_ ?_ (Or.inr rfl)
      · intro _ _ _ he
        cases he
      · intro he
        exact absurd (lock.symm.trans he) Bool.false_ne_true
    | true =>
      rw [sbufferPop, if_neg (by simp [lock])] at hpop
      exact section_effect h (Or.inl ⟨rfl, lock⟩) hpop
  | wake t waited calls =>
    have hwake := (Option.ite_none_right_eq_some.mp hstep).2
    cases waited with
    | false =>
      obtain ⟨rfl, rfl⟩ := Prod.mk.inj (Option.some.inj hwake)
      refine .nothing ?_ ?_ (Or.inr rfl)
      · intro _ _ _ he
        cases he
      · intro he
        cases he
    | true => exact section_effect h (Or.inr rfl) hwake
  | shutdown =>
    obtain ⟨rfl, rfl⟩ := Prod.mk.inj (Option.some.inj hstep)
    exact .shutdown

theorem Effect.inv {N : Nat} {s u : State T Tid} {a : Act T Tid} {os : List (Event T Tid)}
    (h : SbufferThreads.Inv N s) (heffect : Effect s a u os) : SbufferThreads.Inv N u := by
  cases heffect with
  | locked => exact h
  | stored _ room => exact h.pushRoom room _ _
  | replaced => exact h.pushFull _ _
  | nothing => exact ⟨h.sb, h.size_eq, h.stamps_length⟩
  | taken _ some_ => exact ⟨h.sb.takeTail some_, h.size_eq, h.stamps_length⟩
  | shutdown => exact ⟨h.sb, h.size_eq, h.stamps_length⟩

theorem run_inv {N : Nat} {s t : State T Tid} {as : List (Act T Tid)}
    {os : List (Event T Tid)} (h : SbufferThreads.Inv N s)
    (hrun : Machine.run step s as = some (t, os)) : SbufferThreads.Inv N t :=
  Machine.run_invariant (fun _ _ _ _ hu hstep => (step_effect hu hstep).inv hu) h hrun

/-! ## The stored readings -/

/-- Every stored reading has the number of an earlier push. -/
def Numbered (s : State T Tid) : Prop := ∀ p ∈ stampedQueue s, p.2 < s.pushCount

section Queue

omit [DecidableEq Tid]

variable {N : Nat} {s : State T Tid}

theorem exists_queue_of_full (h : SbufferThreads.Inv N s) (full : s.sb.count = s.sb.size) :
    ∃ x rest, stampedQueue s = x :: rest ∧ ∀ data : SensorData T,
      stampedQueue { s with
        sb := s.sb.pushFull data, stamps := s.stamps.set s.sb.head s.pushCount,
        pushCount := s.pushCount + 1 } = rest ++ [(data, s.pushCount)] := by
  have hpos := h.sb.size_pos
  obtain ⟨oldest, holdest, -⟩ := Sbuffer.sbufferTake_of_pos h.sb
  obtain ⟨stamp, hstamp⟩ := SbufferThreads.exists_tail_stamp h
  exact ⟨_, _, SbufferThreads.stampedQueue_cons h (by omega) holdest hstamp,
    fun data => SbufferThreads.stampedQueue_pushFull h full data _ _⟩

theorem exists_queue_of_taken (h : SbufferThreads.Inv N s) (hc : s.sb.count ≠ 0) :
    ∃ x, ∀ asleep : Tid → Bool,
      stampedQueue s = x :: stampedQueue { s with sb := s.sb.takeTail, asleep } := by
  obtain ⟨oldest, holdest, -⟩ := Sbuffer.sbufferTake_of_pos h.sb
  obtain ⟨stamp, hstamp⟩ := SbufferThreads.exists_tail_stamp h
  exact ⟨_, fun _ => SbufferThreads.stampedQueue_cons h hc holdest hstamp⟩

end Queue

theorem Effect.numbered {N : Nat} {s u : State T Tid} {a : Act T Tid}
    {os : List (Event T Tid)} (h : SbufferThreads.Inv N s) (hnumbered : Numbered s)
    (heffect : Effect s a u os) : Numbered u := by
  have hlater : ∀ p ∈ stampedQueue s, p.2 < s.pushCount + 1 :=
    fun p hp => Nat.lt_succ_of_lt (hnumbered p hp)
  cases heffect with
  | locked => exact hnumbered
  | stored _ room =>
    rw [Numbered, SbufferThreads.stampedQueue_pushRoom h room]
    exact List.forall_mem_append.mpr ⟨hlater, List.forall_mem_singleton.mpr (Nat.lt_succ_self _)⟩
  | @replaced t calls data oldest named stamp lock full =>
    obtain ⟨x, rest, hbefore, hafter⟩ := exists_queue_of_full h full
    rw [hbefore] at hlater
    rw [Numbered, hafter data]
    exact List.forall_mem_append.mpr ⟨(List.forall_mem_cons.mp hlater).2,
      List.forall_mem_singleton.mpr (Nat.lt_succ_self _)⟩
  | nothing => exact hnumbered
  | taken _ some_ =>
    obtain ⟨x, hqueue⟩ := exists_queue_of_taken h some_
    intro p hp
    refine hnumbered p ?_
    rw [hqueue]
    exact List.mem_cons_of_mem _ hp
  | shutdown => exact hnumbered

/-! ## Calls that all succeed -/

theorem push_ok (s : State T Tid) (t : Tid) (data : SensorData T) :
    step s (.push t .ok data) = SbufferThreads.step s (.push t data) := rfl

theorem pop_ok (s : State T Tid) (t : Tid) :
    step s (.pop t .ok) = SbufferThreads.step s (.pop t) := by
  rw [step, SbufferThreads.step, SbufferThreads.popStep]
  split
  · rfl
  · cases sbufferPop .ok s.shutdownFlag s.sb with
    | none => rfl
    | some r => obtain ⟨_ | _, _, _⟩ := r <;> rfl

theorem wake_ok (s : State T Tid) (t : Tid) :
    step s (.wake t true .ok) = SbufferThreads.step s (.wake t) := by
  rw [step, SbufferThreads.step, SbufferThreads.popStep]
  split
  · have henter : sbufferPop .ok s.shutdownFlag s.sb =
        sbufferPopSection .ok s.shutdownFlag s.sb := rfl
    rw [if_pos rfl, henter]
    cases sbufferPopSection .ok s.shutdownFlag s.sb with
    | none => rfl
    | some r => obtain ⟨_ | _, _, _⟩ := r <;> rfl
  · rfl

end SbufferCalls
end Gateway
end LinuxEmbedded
