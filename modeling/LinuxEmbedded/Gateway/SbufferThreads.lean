import LinuxEmbedded.Gateway.Sbuffer
import LinuxEmbedded.Lib.DropOldest
import Mathlib.Logic.Function.Basic

/-
The ring buffer under any number of threads.

Each mutex-protected section of `sbuffer.c` is one step.  A thread that finds the
buffer empty inside `sbuffer_pop` sleeps, with the mutex released, and its wakeup
is a later step that tests the loop condition again: a signal, a broadcast and a
spurious wakeup all look like this.  Pthread calls succeed.

Every slot carries the number of the push that last wrote it.  These stamps are
ghost state: they tell equal records apart and nothing reads them.
-/
namespace LinuxEmbedded
namespace Gateway
namespace SbufferThreads

variable {T Tid : Type}

structure State (T Tid : Type) where
  sb : Sbuffer T
  shutdownFlag : Bool
  /-- The thread is in `pthread_cond_wait` of `sbuffer_pop`. -/
  asleep : Tid → Bool
  stamps : List Nat
  pushCount : Nat

def start (sb : Sbuffer T) : State T Tid where
  sb := sb
  shutdownFlag := false
  asleep _ := false
  stamps := List.replicate sb.size 0
  pushCount := 0

inductive Act (T Tid : Type) where
  | push (t : Tid) (data : SensorData T)
  | pop (t : Tid)
  | wake (t : Tid)
  | count (t : Tid)
  | shutdown

inductive Event (T Tid : Type) where
  /-- Ghost: what the step did to stored records. -/
  | stored (e : DropOldest.Event (SensorData T))
  | logged (m : Message T)
  | pushReturned (t : Tid) (ret : Int)
  | popReturned (t : Tid) (ret : Int) (data : Option (SensorData T))
  | countReturned (t : Tid) (ret : Int) (bufferCount : Option Nat)
  | slept (t : Tid)

/-- The record a push writes over: the one at the head of a full buffer. -/
def overwritten (s : State T Tid) : List (Event T Tid) :=
  if s.sb.count = s.sb.size then
    match s.sb.buffer[s.sb.head]?, s.stamps[s.sb.head]? with
    | some record, some i => [.stored (.overwrote record i)]
    | _, _ => []
  else []

def pushStep (s : State T Tid) (t : Tid) (data : SensorData T) :
    Option (State T Tid × List (Event T Tid)) := do
  let (ret, sb, logs) ← sbufferPush .ok s.sb data
  some ({ s with
      sb
      stamps := s.stamps.set s.sb.head s.pushCount
      pushCount := s.pushCount + 1 },
    overwritten s ++ .stored (.pushed data s.pushCount) :: logs.map .logged ++
      [.pushReturned t ret])

/-- The record a pop returning `data` removed. -/
def removed (s : State T Tid) (data : Option (SensorData T)) : List (Event T Tid) :=
  match data, s.stamps[s.sb.tail]? with
  | some record, some i => [.stored (.popped record i)]
  | _, _ => []

variable [DecidableEq Tid]

def popStep (s : State T Tid) (t : Tid) : Option (State T Tid × List (Event T Tid)) := do
  let (outcome, sb, logs) ← sbufferPop .ok s.shutdownFlag s.sb
  match outcome with
  | .waits => some ({ s with sb, asleep := Function.update s.asleep t true }, [.slept t])
  | .returns ret data =>
    some ({ s with sb, asleep := Function.update s.asleep t false },
      removed s data ++ logs.map .logged ++ [.popReturned t ret data])

/-- A thread asleep in `sbuffer_pop` does nothing but wake, and waking runs the
rest of the loop from its test. -/
def step (s : State T Tid) : Act T Tid → Option (State T Tid × List (Event T Tid))
  | .push t data => if s.asleep t then none else pushStep s t data
  | .pop t => if s.asleep t then none else popStep s t
  | .wake t => if s.asleep t then popStep s t else none
  | .count t =>
    if s.asleep t then none
    else
      let (ret, bufferCount) := sbufferCount .ok s.sb
      some (s, [.countReturned t ret bufferCount])
  | .shutdown => some ({ s with shutdownFlag := true }, [])

/-! ## What one step can do -/

theorem popStep_cases {s u : State T Tid} {t : Tid} {os : List (Event T Tid)} (h : s.sb.Inv)
    (hstep : popStep s t = some (u, os)) :
    (s.sb.count = 0 ∧ s.shutdownFlag = false ∧ os = [.slept t] ∧
      u = { s with asleep := Function.update s.asleep t true }) ∨
    (s.sb.count = 0 ∧ s.shutdownFlag = true ∧ os = [.popReturned t (-1) none] ∧
      u = { s with asleep := Function.update s.asleep t false }) ∨
    (s.sb.count ≠ 0 ∧ ∃ data, s.sb.buffer[s.sb.tail]? = some data ∧
      os = removed s (some data) ++ [.logged (logEvent "Data popped from buffer" [])] ++
        [.popReturned t 0 (some data)] ∧
      u = { s with sb := s.sb.takeTail, asleep := Function.update s.asleep t false }) := by
  unfold popStep at hstep
  rcases Sbuffer.sbufferPop_cases h s.shutdownFlag with ⟨hc, hf, he⟩ | ⟨hc, hf, he⟩ |
    ⟨hc, data, hd, he⟩
  · left
    rw [he] at hstep
    obtain ⟨rfl, rfl⟩ := Prod.mk.inj (Option.some.inj hstep)
    exact ⟨hc, hf, rfl, rfl⟩
  · right; left
    rw [he] at hstep
    obtain ⟨rfl, rfl⟩ := Prod.mk.inj (Option.some.inj hstep)
    refine ⟨hc, hf, ?_, rfl⟩
    simp [removed]
  · right; right
    rw [he] at hstep
    obtain ⟨rfl, rfl⟩ := Prod.mk.inj (Option.some.inj hstep)
    exact ⟨hc, data, hd, rfl, rfl⟩

omit [DecidableEq Tid] in
theorem pushStep_cases {s u : State T Tid} {t : Tid} {data : SensorData T}
    {os : List (Event T Tid)} (h : s.sb.Inv) (hstep : pushStep s t data = some (u, os)) :
    (s.sb.count < s.sb.size ∧
      u = { s with
        sb := s.sb.pushRoom data
        stamps := s.stamps.set s.sb.head s.pushCount
        pushCount := s.pushCount + 1 } ∧
      os = [.stored (.pushed data s.pushCount), .logged (logEvent "Data pushed to buffer" []),
        .pushReturned t 0]) ∨
    (s.sb.count = s.sb.size ∧
      u = { s with
        sb := s.sb.pushFull data
        stamps := s.stamps.set s.sb.head s.pushCount
        pushCount := s.pushCount + 1 } ∧
      ∃ record : SensorData T, os = overwritten s ++ [.stored (.pushed data s.pushCount),
        .logged (logEvent "Dropped oldest data from sensor %d due to buffer full"
          [.int record.sensorId.toInt]),
        .logged (logEvent "Data pushed to buffer" []), .pushReturned t 0]) := by
  have hle := h.count_le
  by_cases hc : s.sb.count = s.sb.size
  · right
    obtain ⟨record, -, hbody⟩ := Sbuffer.sbufferPushBody_of_full h hc data
    simp [pushStep, sbufferPush, PushCalls.ok, hbody] at hstep
    obtain ⟨rfl, rfl⟩ := hstep
    exact ⟨hc, rfl, record, rfl⟩
  · left
    have hlt : s.sb.count < s.sb.size := by omega
    have hbody := Sbuffer.sbufferPushBody_of_room h hlt data
    simp [pushStep, sbufferPush, PushCalls.ok, hbody, overwritten, hc] at hstep
    obtain ⟨rfl, rfl⟩ := hstep
    exact ⟨hlt, rfl, rfl⟩

/-- Every step is a push, a pop section, a count or the setting of the flag. -/
theorem step_cases {s u : State T Tid} {a : Act T Tid} {os : List (Event T Tid)}
    (hstep : step s a = some (u, os)) :
    (∃ t data, a = .push t data ∧ pushStep s t data = some (u, os)) ∨
    (∃ t, (a = .pop t ∧ s.asleep t = false ∨ a = .wake t ∧ s.asleep t = true) ∧
      popStep s t = some (u, os)) ∨
    (∃ t, a = .count t ∧ u = s ∧ os = [.countReturned t 0 (some s.sb.count)]) ∨
    (a = .shutdown ∧ u = { s with shutdownFlag := true } ∧ os = []) := by
  cases a with
  | push t data =>
    by_cases ht : s.asleep t = true
    · rw [step, if_pos ht] at hstep
      cases hstep
    · rw [step, if_neg ht] at hstep
      exact Or.inl ⟨t, data, rfl, hstep⟩
  | pop t =>
    by_cases ht : s.asleep t = true
    · rw [step, if_pos ht] at hstep
      cases hstep
    · rw [step, if_neg ht] at hstep
      exact Or.inr (Or.inl ⟨t, Or.inl ⟨rfl, Bool.eq_false_iff.mpr ht⟩, hstep⟩)
  | wake t =>
    by_cases ht : s.asleep t = true
    · rw [step, if_pos ht] at hstep
      exact Or.inr (Or.inl ⟨t, Or.inr ⟨rfl, ht⟩, hstep⟩)
    · rw [step, if_neg ht] at hstep
      cases hstep
  | count t =>
    by_cases ht : s.asleep t = true
    · rw [step, if_pos ht] at hstep
      cases hstep
    · rw [step, if_neg ht] at hstep
      obtain ⟨rfl, rfl⟩ := Prod.mk.inj (Option.some.inj hstep)
      exact Or.inr (Or.inr (Or.inl ⟨t, rfl, rfl, rfl⟩))
  | shutdown =>
    obtain ⟨rfl, rfl⟩ := Prod.mk.inj (Option.some.inj hstep)
    exact Or.inr (Or.inr (Or.inr ⟨rfl, rfl, rfl⟩))

/-! ## Refinement of the bounded queue -/

/-- The stored records with their push numbers, oldest first. -/
def stampedQueue (s : State T Tid) : List (SensorData T × Nat) :=
  s.sb.queue.zip (Ring.window s.stamps s.sb.tail s.sb.count)

structure Inv (N : Nat) (s : State T Tid) : Prop where
  sb : s.sb.Inv
  size_eq : s.sb.size = N
  stamps_length : s.stamps.length = s.sb.size

omit [DecidableEq Tid]

theorem stampedQueue_length {N : Nat} {s : State T Tid} (h : Inv N s) :
    (stampedQueue s).length = s.sb.count := by
  have hpos : 0 < s.stamps.length := h.stamps_length ▸ h.sb.size_pos
  rw [stampedQueue, List.length_zip, Sbuffer.queue_length h.sb, Ring.window_length hpos,
    Nat.min_self]

theorem stampedQueue_map_fst {N : Nat} {s : State T Tid} (h : Inv N s) :
    (stampedQueue s).map Prod.fst = s.sb.queue := by
  have hpos : 0 < s.stamps.length := h.stamps_length ▸ h.sb.size_pos
  apply List.map_fst_zip
  rw [Sbuffer.queue_length h.sb, Ring.window_length hpos]

/-- The oldest stored record of a nonempty buffer, and the rest. -/
theorem stampedQueue_cons {N : Nat} {s : State T Tid} (h : Inv N s) (hc : s.sb.count ≠ 0)
    {x : SensorData T} {i : Nat} (hx : s.sb.buffer[s.sb.tail]? = some x)
    (hi : s.stamps[s.sb.tail]? = some i) :
    stampedQueue s = (x, i) ::
      (Ring.window s.sb.buffer ((s.sb.tail + 1) % s.sb.size) (s.sb.count - 1)).zip
        (Ring.window s.stamps ((s.sb.tail + 1) % s.sb.size) (s.sb.count - 1)) := by
  rw [stampedQueue, Sbuffer.queue, h.sb.window_take hc h.sb.length_eq hx,
    h.sb.window_take hc h.stamps_length hi, List.zip_cons_cons]

theorem exists_tail_stamp {N : Nat} {s : State T Tid} (h : Inv N s) :
    ∃ i, s.stamps[s.sb.tail]? = some i := by
  have hlt : s.sb.tail < s.stamps.length := h.stamps_length ▸ h.sb.tail_lt
  exact ⟨s.stamps[s.sb.tail], List.getElem?_eq_getElem hlt⟩

theorem head_eq_tail_of_full {sb : Sbuffer T} (h : sb.Inv) (hc : sb.count = sb.size) :
    sb.head = sb.tail := by
  rw [h.head_eq, hc, Nat.add_mod_right, Nat.mod_eq_of_lt h.tail_lt]

theorem Inv.pushRoom {N : Nat} {s : State T Tid} (h : Inv N s) (hc : s.sb.count < s.sb.size)
    (data : SensorData T) (stamp : Nat) :
    Inv N { s with
      sb := s.sb.pushRoom data, stamps := s.stamps.set s.sb.head stamp,
      pushCount := s.pushCount + 1 } :=
  ⟨h.sb.pushRoom hc data, h.size_eq, by simp [h.stamps_length, Sbuffer.pushRoom]⟩

theorem Inv.pushFull {N : Nat} {s : State T Tid} (h : Inv N s) (data : SensorData T)
    (stamp : Nat) :
    Inv N { s with
      sb := s.sb.pushFull data, stamps := s.stamps.set s.sb.head stamp,
      pushCount := s.pushCount + 1 } :=
  ⟨h.sb.pushFull data, h.size_eq, by simp [h.stamps_length, Sbuffer.pushFull]⟩

theorem stampedQueue_pushRoom {N : Nat} {s : State T Tid} (h : Inv N s)
    (hc : s.sb.count < s.sb.size) (data : SensorData T) (stamp n : Nat) :
    stampedQueue { s with
        sb := s.sb.pushRoom data, stamps := s.stamps.set s.sb.head stamp, pushCount := n } =
      stampedQueue s ++ [(data, stamp)] := by
  have hpos : 0 < s.stamps.length := h.stamps_length ▸ h.sb.size_pos
  have hcells : Ring.window (s.sb.buffer.set s.sb.head data) s.sb.tail (s.sb.count + 1) =
      Ring.window s.sb.buffer s.sb.tail s.sb.count ++ [data] :=
    h.sb.window_pushRoom hc h.sb.length_eq data
  have hstamps : Ring.window (s.stamps.set s.sb.head stamp) s.sb.tail (s.sb.count + 1) =
      Ring.window s.stamps s.sb.tail s.sb.count ++ [stamp] :=
    h.sb.window_pushRoom hc h.stamps_length stamp
  show (Ring.window (s.sb.buffer.set s.sb.head data) s.sb.tail (s.sb.count + 1)).zip
    (Ring.window (s.stamps.set s.sb.head stamp) s.sb.tail (s.sb.count + 1)) = _
  rw [hcells, hstamps, List.zip_append]
  · rfl
  · rw [Ring.window_length h.sb.length_pos, Ring.window_length hpos]

theorem stampedQueue_pushFull {N : Nat} {s : State T Tid} (h : Inv N s)
    (hc : s.sb.count = s.sb.size) (data : SensorData T) (stamp n : Nat) :
    stampedQueue { s with
        sb := s.sb.pushFull data, stamps := s.stamps.set s.sb.head stamp, pushCount := n } =
      (Ring.window s.sb.buffer ((s.sb.tail + 1) % s.sb.size) (s.sb.count - 1)).zip
        (Ring.window s.stamps ((s.sb.tail + 1) % s.sb.size) (s.sb.count - 1)) ++
        [(data, stamp)] := by
  have hpos : 0 < s.stamps.length := h.stamps_length ▸ h.sb.size_pos
  have hcells : Ring.window (s.sb.buffer.set s.sb.head data)
      ((s.sb.tail + 1) % s.sb.size) s.sb.count =
      Ring.window s.sb.buffer ((s.sb.tail + 1) % s.sb.size) (s.sb.count - 1) ++ [data] :=
    h.sb.window_pushFull hc h.sb.length_eq data
  have hstamps : Ring.window (s.stamps.set s.sb.head stamp)
      ((s.sb.tail + 1) % s.sb.size) s.sb.count =
      Ring.window s.stamps ((s.sb.tail + 1) % s.sb.size) (s.sb.count - 1) ++ [stamp] :=
    h.sb.window_pushFull hc h.stamps_length stamp
  show (Ring.window (s.sb.buffer.set s.sb.head data) ((s.sb.tail + 1) % s.sb.size)
    s.sb.count).zip (Ring.window (s.stamps.set s.sb.head stamp)
      ((s.sb.tail + 1) % s.sb.size) s.sb.count) = _
  rw [hcells, hstamps, List.zip_append]
  · rfl
  · rw [Ring.window_length h.sb.length_pos, Ring.window_length hpos]

end SbufferThreads
end Gateway
end LinuxEmbedded
