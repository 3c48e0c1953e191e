import LinuxEmbedded.Gateway.SbufferThreads

/-
The ring buffer refines a bounded FIFO that drops its oldest element.

Each step of the threads is answered by the pushes and pops the queue machine
makes on the stamped records.  The conservation law of the queue machine is then
a law about whole runs of the threads.
-/
namespace LinuxEmbedded
namespace Gateway
namespace SbufferThreads

variable {T Tid : Type} [DecidableEq Tid]

def Event.stored? : Event T Tid → Option (DropOldest.Event (SensorData T))
  | .stored e => some e
  | _ => none

/-- The queue machine holds the stored records under their stamps. -/
structure Refines (N : Nat) (s : State T Tid) (q : DropOldest.State (SensorData T)) :
    Prop where
  inv : Inv N s
  queue_eq : q.queue = stampedQueue s
  next_eq : q.next = s.pushCount

omit [DecidableEq Tid] in
theorem inv_start {N : Nat} {sb : Sbuffer T} (hN : 1 ≤ N)
    {block : Option (List (SensorData T))} (hblock : ∀ b, block = some b → b.length = N)
    (hinit : sbufferInit .ok (N : Int) block = some sb) :
    Inv N (start sb : State T Tid) ∧ stampedQueue (start sb : State T Tid) = [] := by
  obtain ⟨hinv, hsize, hcount⟩ := Sbuffer.sbufferInit_inv hN hblock hinit
  refine ⟨⟨hinv, hsize, ?_⟩, ?_⟩
  · exact List.length_replicate
  · have hqueue : sb.queue = [] :=
      List.eq_nil_of_length_eq_zero ((Sbuffer.queue_length hinv).trans hcount)
    show sb.queue.zip _ = []
    rw [hqueue]
    rfl

omit [DecidableEq Tid] in
theorem refines_push {N : Nat} {s u : State T Tid} {q : DropOldest.State (SensorData T)}
    {t : Tid} {data : SensorData T} {os : List (Event T Tid)} (h : Refines N s q)
    (hstep : pushStep s t data = some (u, os)) :
    ∃ q', DropOldest.step N q (.push data) = some (q', os.filterMap Event.stored?) ∧
      Refines N u q' := by
  have hlen : q.queue.length = s.sb.count := h.queue_eq ▸ stampedQueue_length h.inv
  have hN := h.inv.size_eq
  rcases pushStep_cases h.inv.sb hstep with ⟨hc, rfl, rfl⟩ | ⟨hc, rfl, record, rfl⟩
  · refine ⟨DropOldest.enqueue q data, ?_, h.inv.pushRoom hc data _, ?_, ?_⟩
    · rw [DropOldest.step, if_pos (by omega), h.next_eq]
      rfl
    · rw [stampedQueue_pushRoom h.inv hc, ← h.queue_eq, ← h.next_eq]
      rfl
    · show q.next + 1 = s.pushCount + 1
      rw [h.next_eq]
  · -- the slot at the head of a full buffer is the slot at its tail
    have hpos := h.inv.sb.size_pos
    obtain ⟨x, hx, -⟩ := Sbuffer.sbufferTake_of_pos h.inv.sb
    obtain ⟨i, hi⟩ := exists_tail_stamp h.inv
    have hcons := stampedQueue_cons h.inv (by omega) hx hi
    have hlost : overwritten s = [.stored (.overwrote x i)] := by
      rw [overwritten, if_pos hc, head_eq_tail_of_full h.inv.sb hc, hx, hi]
    rw [← h.queue_eq] at hcons
    refine ⟨DropOldest.enqueue { q with queue := q.queue.tail } data, ?_,
      h.inv.pushFull data _, ?_, ?_⟩
    · rw [DropOldest.step, if_neg (by omega), hlost, hcons, h.next_eq]
      rfl
    · rw [stampedQueue_pushFull h.inv hc]
      show q.queue.tail ++ [(data, q.next)] = _
      rw [hcons, h.next_eq]
      rfl
    · show q.next + 1 = s.pushCount + 1
      rw [h.next_eq]

theorem refines_pop {N : Nat} {s u : State T Tid} {q : DropOldest.State (SensorData T)}
    {t : Tid} {os : List (Event T Tid)} (h : Refines N s q)
    (hstep : popStep s t = some (u, os)) :
    ∃ bs q', Machine.run (DropOldest.step N) q bs = some (q', os.filterMap Event.stored?) ∧
      Refines N u q' := by
  rcases popStep_cases h.inv.sb hstep with ⟨-, -, rfl, rfl⟩ | ⟨-, -, rfl, rfl⟩ |
    ⟨hc, data, hdata, rfl, rfl⟩
  · exact ⟨[], q, rfl, ⟨h.inv.sb, h.inv.size_eq, h.inv.stamps_length⟩, h.queue_eq, h.next_eq⟩
  · exact ⟨[], q, rfl, ⟨h.inv.sb, h.inv.size_eq, h.inv.stamps_length⟩, h.queue_eq, h.next_eq⟩
  · obtain ⟨i, hi⟩ := exists_tail_stamp h.inv
    have hcons := stampedQueue_cons h.inv hc hdata hi
    have hgone : removed s (some data) = [.stored (.popped data i)] := by
      simp only [removed, hi]
    have hq := h.queue_eq.trans hcons
    refine ⟨[.pop], { q with queue := q.queue.tail }, ?_, ?_, ?_, h.next_eq⟩
    · rw [Machine.run_cons_eq_some]
      refine ⟨_, _, [], ?_, rfl, (List.append_nil _).symm⟩
      rw [DropOldest.step, hq, hgone]
      rfl
    · exact ⟨h.inv.sb.takeTail hc, h.inv.size_eq, h.inv.stamps_length⟩
    · show q.queue.tail = _
      rw [hq]
      rfl

theorem step_refines {N : Nat} {s u : State T Tid} {q : DropOldest.State (SensorData T)}
    {a : Act T Tid} {os : List (Event T Tid)} (h : Refines N s q)
    (hstep : step s a = some (u, os)) :
    ∃ bs q', Machine.run (DropOldest.step N) q bs = some (q', os.filterMap Event.stored?) ∧
      Refines N u q' := by
  rcases step_cases hstep with ⟨t, data, -, hpush⟩ | ⟨t, -, hpop⟩ | ⟨t, -, rfl, rfl⟩ |
    ⟨-, rfl, rfl⟩
  · obtain ⟨q', hq, hR⟩ := refines_push h hpush
    exact ⟨[.push data], q', Machine.run_cons_eq_some.mpr
      ⟨q', _, [], hq, rfl, (List.append_nil _).symm⟩, hR⟩
  · exact refines_pop h hpop
  · exact ⟨[], q, rfl, h⟩
  · exact ⟨[], q, rfl, ⟨h.inv.sb, h.inv.size_eq, h.inv.stamps_length⟩, h.queue_eq, h.next_eq⟩

/-- A run of the threads is a run of the queue machine with the same effects on
stored records. -/
theorem run_refines {N : Nat} {sb : Sbuffer T} {as : List (Act T Tid)} {s : State T Tid}
    {os : List (Event T Tid)} (hstart : Inv N (start sb : State T Tid))
    (hempty : stampedQueue (start sb : State T Tid) = [])
    (h : Machine.run step (start sb) as = some (s, os)) :
    ∃ bs q, Machine.run (DropOldest.step N) DropOldest.empty bs =
      some (q, os.filterMap Event.stored?) ∧ Refines N s q :=
  Machine.run_refines (R := Refines N) (fun _ _ _ _ _ hR hstep => step_refines hR hstep)
    ⟨hstart, hempty.symm, rfl⟩ h

/-! ## Histories of a run -/

def Act.pushed? : Act T Tid → Option (SensorData T)
  | .push _ data => some data
  | _ => none

/-- The record of a pop that returned 0. -/
def Event.popped? : Event T Tid → Option (SensorData T)
  | .popReturned _ ret data => if ret = 0 then data else none
  | _ => none

/-- The records pushed by a schedule, in order. -/
def pushedRecords (as : List (Act T Tid)) : List (SensorData T) := as.filterMap Act.pushed?

/-- The records returned by the pops of a run, in order. -/
def poppedRecords (os : List (Event T Tid)) : List (SensorData T) :=
  os.filterMap Event.popped?

/-- The numbers of the pushes whose record was overwritten before it was popped. -/
def overwrittenPushes (os : List (Event T Tid)) : List Nat :=
  DropOldest.overwrites (os.filterMap Event.stored?)

/-- What one step adds to the histories. -/
structure Adds (s u : State T Tid) (a : Act T Tid) (os : List (Event T Tid)) : Prop where
  pushes : DropOldest.pushes (os.filterMap Event.stored?) =
    (pushedRecords [a]).zipIdx s.pushCount
  count : u.pushCount = s.pushCount + (pushedRecords [a]).length
  pops : (DropOldest.pops (os.filterMap Event.stored?)).map Prod.fst = poppedRecords os

omit [DecidableEq Tid] in
/-- Overwriting a record neither pushes nor pops one. -/
theorem overwritten_silent (s : State T Tid) :
    DropOldest.pushes ((overwritten s).filterMap Event.stored?) = [] ∧
      DropOldest.pops ((overwritten s).filterMap Event.stored?) = [] ∧
      poppedRecords (overwritten s) = [] := by
  unfold overwritten
  split
  · split <;> exact ⟨rfl, rfl, rfl⟩
  · exact ⟨rfl, rfl, rfl⟩

omit [DecidableEq Tid] in
theorem pops_push {s u : State T Tid} {t : Tid} {data : SensorData T}
    {os : List (Event T Tid)} (h : s.sb.Inv) (hstep : pushStep s t data = some (u, os)) :
    DropOldest.pops (os.filterMap Event.stored?) = [] := by
  rcases pushStep_cases h hstep with ⟨-, -, rfl⟩ | ⟨-, -, record, rfl⟩
  · rfl
  · rw [List.filterMap_append, DropOldest.pops_append, (overwritten_silent s).2.1]
    rfl

omit [DecidableEq Tid] in
theorem adds_push {s u : State T Tid} {t : Tid} {data : SensorData T}
    {os : List (Event T Tid)} (h : s.sb.Inv) (hstep : pushStep s t data = some (u, os)) :
    Adds s u (.push t data) os := by
  have hpops := pops_push h hstep
  rcases pushStep_cases h hstep with ⟨-, rfl, rfl⟩ | ⟨-, rfl, record, rfl⟩
  · exact ⟨rfl, rfl, rfl⟩
  · obtain ⟨hpush, -, hrec⟩ := overwritten_silent s
    refine ⟨?_, rfl, ?_⟩
    · rw [List.filterMap_append, DropOldest.pushes_append, hpush]
      rfl
    · rw [hpops, poppedRecords, List.filterMap_append, ← poppedRecords, hrec]
      rfl

theorem adds_pop {N : Nat} {s u : State T Tid} {t : Tid} {a : Act T Tid}
    {os : List (Event T Tid)} (h : Inv N s) (ha : Act.pushed? a = none)
    (hstep : popStep s t = some (u, os)) : Adds s u a os := by
  have hnone : pushedRecords [a] = [] := by simp [pushedRecords, ha]
  rcases popStep_cases h.sb hstep with ⟨-, -, rfl, rfl⟩ | ⟨-, -, rfl, rfl⟩ |
    ⟨-, data, -, rfl, rfl⟩
  · exact ⟨by rw [hnone]; rfl, by rw [hnone]; rfl, rfl⟩
  · exact ⟨by rw [hnone]; rfl, by rw [hnone]; rfl, rfl⟩
  · obtain ⟨i, hi⟩ := exists_tail_stamp h
    have hgone : removed s (some data) = [.stored (.popped data i)] := by
      simp only [removed, hi]
    rw [hgone]
    exact ⟨by rw [hnone]; rfl, by rw [hnone]; rfl, rfl⟩

theorem step_adds {N : Nat} {s u : State T Tid} {a : Act T Tid} {os : List (Event T Tid)}
    (h : Inv N s) (hstep : step s a = some (u, os)) : Adds s u a os := by
  rcases step_cases hstep with ⟨t, data, rfl, hpush⟩ | ⟨t, ha, hpop⟩ | ⟨t, rfl, rfl, rfl⟩ |
    ⟨rfl, rfl, rfl⟩
  · exact adds_push h.sb hpush
  · rcases ha with ⟨rfl, -⟩ | ⟨rfl, -⟩ <;> exact adds_pop h rfl hpop
  · exact ⟨rfl, rfl, rfl⟩
  · exact ⟨rfl, rfl, rfl⟩

/-- Pushes are numbered in the order of the schedule, and the elements the queue
machine pops are the records the pops return. -/
theorem run_histories {N : Nat} {sb : Sbuffer T} {as : List (Act T Tid)} {s : State T Tid}
    {os : List (Event T Tid)} (hstart : Inv N (start sb : State T Tid))
    (hempty : stampedQueue (start sb : State T Tid) = [])
    (h : Machine.run step (start sb) as = some (s, os)) :
    DropOldest.pushes (os.filterMap Event.stored?) = (pushedRecords as).zipIdx ∧
      s.pushCount = (pushedRecords as).length ∧
      (DropOldest.pops (os.filterMap Event.stored?)).map Prod.fst = poppedRecords os := by
  refine Machine.run_induction
    (P := fun as os u => DropOldest.pushes (os.filterMap Event.stored?) =
        (pushedRecords as).zipIdx ∧ u.pushCount = (pushedRecords as).length ∧
      (DropOldest.pops (os.filterMap Event.stored?)).map Prod.fst = poppedRecords os)
    ⟨rfl, rfl, rfl⟩ ?_ h
  intro as os u a v os' hu ih ha
  obtain ⟨hpush, hcount, hpop⟩ := ih
  obtain ⟨bs, q, -, hR⟩ := run_refines hstart hempty hu
  have hadd := step_adds hR.inv ha
  have has : pushedRecords (as ++ [a]) = pushedRecords as ++ pushedRecords [a] :=
    List.filterMap_append
  refine ⟨?_, ?_, ?_⟩
  · rw [List.filterMap_append, DropOldest.pushes_append, hpush, hadd.pushes, has,
      List.zipIdx_append, hcount, Nat.zero_add]
  · rw [hadd.count, hcount, has, List.length_append]
  · rw [List.filterMap_append, DropOldest.pops_append, List.map_append, hpop, hadd.pops]
    exact List.filterMap_append.symm

/-! ## The calls on a reachable buffer -/

/-- The cursors of the record, as far as its three users rely on them. -/
def CursorsConsistent (N : Nat) (sb : Sbuffer T) : Prop :=
  sb.size = N ∧ sb.head < sb.size ∧ sb.tail < sb.size ∧ sb.count ≤ sb.size ∧
    sb.head = (sb.tail + sb.count) % sb.size

theorem queue_push {N : Nat} {s u : State T Tid} {t : Tid} {data : SensorData T}
    {os : List (Event T Tid)} (h : Inv N s) (hstep : step s (.push t data) = some (u, os)) :
    u.sb.queue = (if s.sb.queue.length < N then s.sb.queue else s.sb.queue.tail) ++ [data] := by
  have hlen : s.sb.queue.length = s.sb.count := Sbuffer.queue_length h.sb
  have hsize := h.size_eq
  have hpush : pushStep s t data = some (u, os) := by
    rcases step_cases hstep with ⟨t, data, ha, hpush⟩ | ⟨t, ha, -⟩ | ⟨t, ha, -, -⟩ | ⟨ha, -, -⟩
    · cases ha
      exact hpush
    · rcases ha with ⟨ha, -⟩ | ⟨ha, -⟩ <;> cases ha
    · cases ha
    · cases ha
  rcases pushStep_cases h.sb hpush with ⟨hc, rfl, -⟩ | ⟨hc, rfl, -⟩
  · rw [if_pos (by omega)]
    exact h.sb.window_pushRoom hc h.sb.length_eq data
  · have hpos := h.sb.size_pos
    rw [if_neg (by omega)]
    obtain ⟨x, hx, -⟩ := Sbuffer.sbufferTake_of_pos h.sb
    have hqueue : s.sb.queue = _ := h.sb.window_take (by omega) h.sb.length_eq hx
    rw [hqueue]
    exact h.sb.window_pushFull hc h.sb.length_eq data

/-- A pop returning 0 removes the record it returns from the front, and a pop
returning -1 met an empty buffer with the flag set. -/
theorem pop_returned {N : Nat} {s u : State T Tid} {a : Act T Tid} {t : Tid} {ret : Int}
    {data : Option (SensorData T)} {os : List (Event T Tid)} (h : Inv N s)
    (hstep : step s a = some (u, os)) (hret : .popReturned t ret data ∈ os) :
    (ret = 0 ∧ ∃ x, data = some x ∧ s.sb.queue = x :: u.sb.queue) ∨
      (ret = -1 ∧ data = none ∧ s.sb.queue = [] ∧ s.shutdownFlag = true ∧
        u.sb = s.sb) := by
  rcases step_cases hstep with ⟨t', x, -, hpush⟩ | ⟨t', -, hpop⟩ | ⟨t', -, -, rfl⟩ | ⟨-, -, rfl⟩
  · have hover : .popReturned t ret data ∉ overwritten s := by
      unfold overwritten
      split
      · split <;> simp
      · simp
    rcases pushStep_cases h.sb hpush with ⟨-, -, rfl⟩ | ⟨-, -, record, rfl⟩
    · simp at hret
    · rw [List.mem_append] at hret
      simp [hover] at hret
  · rcases popStep_cases h.sb hpop with ⟨-, -, rfl, -⟩ | ⟨hc, hf, rfl, rfl⟩ |
      ⟨hc, x, hx, rfl, rfl⟩
    · simp at hret
    · right
      simp only [List.mem_singleton, Event.popReturned.injEq] at hret
      refine ⟨hret.2.1, hret.2.2, ?_, hf, rfl⟩
      rw [Sbuffer.queue, hc, Ring.window_zero]
    · left
      obtain ⟨i, hi⟩ := exists_tail_stamp h
      simp [removed, hi] at hret
      exact ⟨hret.2.1, x, hret.2.2, h.sb.window_take hc h.sb.length_eq hx⟩
  · simp at hret
  · simp at hret

theorem count_returned {N : Nat} {s u : State T Tid} {a : Act T Tid} {t : Tid} {ret : Int}
    {n : Option Nat} {os : List (Event T Tid)} (h : Inv N s)
    (hstep : step s a = some (u, os)) (hret : .countReturned t ret n ∈ os) :
    ret = 0 ∧ n = some s.sb.queue.length ∧ u = s := by
  rcases step_cases hstep with ⟨t', x, -, hpush⟩ | ⟨t', -, hpop⟩ | ⟨t', -, rfl, rfl⟩ |
    ⟨-, -, rfl⟩
  · have hover : .countReturned t ret n ∉ overwritten s := by
      unfold overwritten
      split
      · split <;> simp
      · simp
    rcases pushStep_cases h.sb hpush with ⟨-, -, rfl⟩ | ⟨-, -, record, rfl⟩
    · simp at hret
    · rw [List.mem_append] at hret
      simp [hover] at hret
  · rcases popStep_cases h.sb hpop with ⟨-, -, rfl, -⟩ | ⟨-, -, rfl, -⟩ | ⟨-, x, -, rfl, -⟩
    · simp at hret
    · simp at hret
    · obtain ⟨i, hi⟩ := exists_tail_stamp h
      simp [removed, hi] at hret
  · simp only [List.mem_singleton, Event.countReturned.injEq] at hret
    obtain ⟨-, rfl, rfl⟩ := hret
    exact ⟨rfl, by rw [Sbuffer.queue_length h.sb], rfl⟩
  · simp at hret

/-- No call on a reachable buffer meets undefined behaviour: a thread outside
`pthread_cond_wait` can run any of the three, and a sleeping one can wake. -/
theorem calls_enabled {N : Nat} {s : State T Tid} (h : Inv N s) (t : Tid)
    (data : SensorData T) :
    if s.asleep t then (step s (.wake t)).isSome
    else (step s (.push t data)).isSome ∧ (step s (.pop t)).isSome ∧
      (step s (.count t)).isSome := by
  have hle := h.sb.count_le
  have hpop : (popStep s t).isSome := by
    unfold popStep
    rcases Sbuffer.sbufferPop_cases h.sb s.shutdownFlag with ⟨-, -, he⟩ | ⟨-, -, he⟩ |
      ⟨-, x, -, he⟩ <;> rw [he] <;> rfl
  have hpush : (pushStep s t data).isSome := by
    by_cases hc : s.sb.count = s.sb.size
    · obtain ⟨record, -, he⟩ := Sbuffer.sbufferPushBody_of_full h.sb hc data
      simp [pushStep, sbufferPush, PushCalls.ok, he]
    · have he := Sbuffer.sbufferPushBody_of_room h.sb (by omega) data
      simp [pushStep, sbufferPush, PushCalls.ok, he]
  by_cases ht : s.asleep t = true
  · rw [if_pos ht, step, if_pos ht]
    exact hpop
  · rw [if_neg ht, step, if_neg ht, step, if_neg ht, step, if_neg ht]
    exact ⟨hpush, hpop, rfl⟩

/-- For every size and every run of any number of threads the ring buffer is a
bounded FIFO that drops its oldest record when full, and no call on it is undefined. -/
theorem sbuffer_refines_fifo {N : Nat} {block : Option (List (SensorData T))}
    {sb : Sbuffer T} {as : List (Act T Tid)} {s : State T Tid} {os : List (Event T Tid)}
    (hN : 1 ≤ N) (hblock : ∀ b, block = some b → b.length = N)
    (hinit : sbufferInit .ok (N : Int) block = some sb)
    (hrun : Machine.run step (start sb) as = some (s, os)) :
    CursorsConsistent N s.sb ∧
    (∀ t data, if s.asleep t then (step s (.wake t)).isSome
      else (step s (.push t data)).isSome ∧ (step s (.pop t)).isSome ∧
        (step s (.count t)).isSome) ∧
    (∀ t data u os', step s (.push t data) = some (u, os') →
      u.sb.queue = (if s.sb.queue.length < N then s.sb.queue else s.sb.queue.tail) ++ [data]) ∧
    (∀ a u os' t data, step s a = some (u, os') → .popReturned t 0 data ∈ os' →
      ∃ x, data = some x ∧ s.sb.queue = x :: u.sb.queue) ∧
    (∀ a u os' t data, step s a = some (u, os') → .popReturned t (-1) data ∈ os' →
      s.sb.queue = [] ∧ s.shutdownFlag = true ∧ u.sb = s.sb) ∧
    (∀ a u os' t ret n, step s a = some (u, os') → .countReturned t ret n ∈ os' →
      ret = 0 ∧ n = some s.sb.queue.length ∧ u = s) ∧
    ((pushedRecords as).zipIdx.filter fun p => p.2 ∉ overwrittenPushes os).map Prod.fst =
      poppedRecords os ++ s.sb.queue := by
  obtain ⟨hstart, hempty⟩ := @inv_start T Tid _ _ hN _ hblock hinit
  obtain ⟨bs, q, hq, hR⟩ := run_refines hstart hempty hrun
  obtain ⟨hpush, -, hpop⟩ := run_histories hstart hempty hrun
  have hinv := hR.inv
  refine ⟨⟨hinv.size_eq, hinv.sb.head_lt, hinv.sb.tail_lt, hinv.sb.count_le,
    hinv.sb.head_eq⟩, calls_enabled hinv, fun t data u os' hs => queue_push hinv hs, ?_, ?_,
    fun a u os' t ret n hs hr => count_returned hinv hs hr, ?_⟩
  · intro a u os' t data hs hr
    rcases pop_returned hinv hs hr with ⟨-, h⟩ | ⟨hret, -⟩
    · exact h
    · cases hret
  · intro a u os' t data hs hr
    rcases pop_returned hinv hs hr with ⟨hret, -⟩ | ⟨-, -, h⟩
    · cases hret
    · exact h
  · have hkept := congrArg (List.map Prod.fst) (DropOldest.run_accounts hq).kept
    rw [DropOldest.survivors, hpush, List.map_append, hpop, hR.queue_eq,
      stampedQueue_map_fst hinv] at hkept
    exact hkept

/-- Two pushes into a buffer of one slot and a pop by another thread. -/
theorem sbuffer_refines_fifo_one_slot :
    ∃ (sb : Sbuffer Unit) (s : State Unit Bool) (os : List (Event Unit Bool)),
      sbufferInit .ok 1 (some [⟨0, (), 0⟩]) = some sb ∧
      Machine.run step (start sb)
        [.push true ⟨1, (), 0⟩, .push true ⟨2, (), 0⟩, .pop false] = some (s, os) ∧
      ([((⟨1, (), 0⟩ : SensorData Unit), 0), (⟨2, (), 0⟩, 1)].filter
        fun p => p.2 ∉ overwrittenPushes os).map Prod.fst = poppedRecords os ++ s.sb.queue := by
  have hsome : (Machine.run (@step Unit Bool _)
      (start ⟨[(⟨0, (), 0⟩ : SensorData Unit)], 1, 0, 0, 0⟩)
      [.push true ⟨1, (), 0⟩, .push true ⟨2, (), 0⟩, .pop false]).isSome = true := rfl
  obtain ⟨⟨s, os⟩, hrun⟩ := Option.isSome_iff_exists.mp hsome
  refine ⟨⟨[⟨0, (), 0⟩], 1, 0, 0, 0⟩, s, os, rfl, hrun, ?_⟩
  have hblock := length_of_allocated (rfl : [(⟨0, (), 0⟩ : SensorData Unit)].length = 1)
  exact (sbuffer_refines_fifo (Nat.le_refl 1) hblock rfl hrun).2.2.2.2.2.2

end SbufferThreads
end Gateway
end LinuxEmbedded
