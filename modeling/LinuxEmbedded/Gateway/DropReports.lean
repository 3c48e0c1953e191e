import LinuxEmbedded.Gateway.SbufferCalls

/-
The reports of overwritten readings.

`sbuffer_push` moves the tail before it reads the sensor of the record at it, so
the report names the second oldest record.  In a buffer of one slot that is the
oldest one again.
-/
namespace LinuxEmbedded
namespace Gateway
namespace SbufferCalls

open SbufferThreads (State Event start)
open Machine

variable {T Tid : Type}

/-! ## Histories of a run -/

/-- The sensor named in a report. -/
def dropped? (m : Message T) : Option Int :=
  if m.format = "Dropped oldest data from sensor %d due to buffer full" then
    match m.args with
    | [.int id] => some id
    | _ => none
  else none

def named? : Event T Tid → Option Int
  | .logged m => dropped? m
  | _ => none

def overwritten? : Event T Tid → Option (SensorData T)
  | .stored (.overwrote data _) => some data
  | _ => none

def pushed? : Event T Tid → Option (SensorData T)
  | .stored (.pushed data _) => some data
  | _ => none

def popped? : Event T Tid → Option (SensorData T)
  | .stored (.popped data _) => some data
  | _ => none

def reportedDrops (os : List (Event T Tid)) : List Int := os.filterMap named?

def overwrittenReadings (os : List (Event T Tid)) : List (SensorData T) :=
  os.filterMap overwritten?

def pushedReadings (os : List (Event T Tid)) : List (SensorData T) := os.filterMap pushed?

def poppedReadings (os : List (Event T Tid)) : List (SensorData T) := os.filterMap popped?

def sensors (readings : List (SensorData T)) : List Int :=
  readings.map fun data => data.sensorId.toInt

/-- How many of the readings are of the sensor. -/
def ofSensor (id : Int) (readings : List (SensorData T)) : Nat := (sensors readings).count id

/-- A push that meets a full buffer finds its two oldest records, or its only one, to be of
one sensor. -/
def OldestOfOneSensor (s : State T Tid) : Act T Tid → Prop
  | .push _ calls _ => calls.lock = true → s.sb.count = s.sb.size →
      (s.sb.queue[0]?).map SensorData.sensorId =
        (s.sb.queue[1 % s.sb.size]?).map SensorData.sensorId
  | _ => True

/-! ## One step -/

theorem dropped?_dropped (id : Int) : dropped? (T := T)
    (logEvent "Dropped oldest data from sensor %d due to buffer full" [.int id]) = some id := by
  simp [dropped?, logEvent]

theorem dropped?_pushed : dropped? (T := T) (logEvent "Data pushed to buffer" []) = none := by
  simp [dropped?, logEvent]

theorem dropped?_popped : dropped? (T := T) (logEvent "Data popped from buffer" []) = none := by
  simp [dropped?, logEvent]

variable [DecidableEq Tid] {N : Nat} {s u : State T Tid} {a : Act T Tid}
  {os : List (Event T Tid)}

omit [DecidableEq Tid] in
theorem reportedDrops_logged (m : Message T) (os : List (Event T Tid)) :
    reportedDrops (.logged m :: os) = (dropped? m).toList ++ reportedDrops os := by
  unfold reportedDrops
  rw [List.filterMap_cons, named?]
  cases dropped? m with
  | none => rfl
  | some id => rfl

omit [DecidableEq Tid] in
theorem reportedDrops_stored (e : DropOldest.Event (SensorData T)) (os : List (Event T Tid)) :
    reportedDrops (.stored e :: os) = reportedDrops os := rfl

omit [DecidableEq Tid] in
theorem reportedDrops_returned (t : Tid) (ret : Int) (os : List (Event T Tid)) :
    reportedDrops (.pushReturned t ret :: os) = reportedDrops os := rfl

omit [DecidableEq Tid] in
/-- The records at and after the tail of a full buffer. -/
theorem full_queue (h : SbufferThreads.Inv N s) (full : s.sb.count = s.sb.size) :
    s.sb.queue[0]? = s.sb.buffer[s.sb.tail]? ∧
      s.sb.queue[1 % s.sb.size]? = s.sb.buffer[(s.sb.tail + 1) % s.sb.size]? := by
  have hpos := h.sb.size_pos
  have hlength := h.sb.length_eq
  have hbuffer : 0 < s.sb.buffer.length := h.sb.length_pos
  have hone : 1 % s.sb.size < s.sb.count := by
    rw [full]
    exact Nat.mod_lt _ hpos
  constructor
  · rw [Sbuffer.queue, Ring.getElem?_window hbuffer (by omega), hlength, Nat.add_zero,
      Nat.mod_eq_of_lt h.sb.tail_lt]
  · rw [Sbuffer.queue, Ring.getElem?_window hbuffer hone, hlength, Nat.add_mod_mod]

/-- A step reports as many records as it overwrites, and the right ones exactly when the
condition is met. -/
theorem step_reports (h : SbufferThreads.Inv N s) (heffect : Effect s a u os) :
    (reportedDrops os).length = (sensors (overwrittenReadings os)).length ∧
      (OldestOfOneSensor s a ↔ reportedDrops os = sensors (overwrittenReadings os)) := by
  -- a step that overwrites nothing reports nothing
  have hquiet : overwrittenReadings os = [] → reportedDrops os = [] → OldestOfOneSensor s a →
      (reportedDrops os).length = (sensors (overwrittenReadings os)).length ∧
        (OldestOfOneSensor s a ↔ reportedDrops os = sensors (overwrittenReadings os)) := by
    intro hover hreport hcondition
    rw [hover, hreport]
    exact ⟨rfl, iff_of_true hcondition rfl⟩
  cases heffect with
  | locked lock => exact hquiet rfl rfl (fun hlock => nomatch lock.symm.trans hlock)
  | stored lock room =>
    refine hquiet rfl ?_ (fun _ full => absurd full (Nat.ne_of_lt room))
    rw [reportedDrops_stored, reportedDrops_logged, dropped?_pushed]
    rfl
  | @replaced t calls data oldest named stamp lock full tail tailStamp next =>
    obtain ⟨hfirst, hsecond⟩ := full_queue h full
    have hcondition : OldestOfOneSensor s (.push t calls data) ↔
        oldest.sensorId = named.sensorId := by
      show (_ → _ → _ = _) ↔ _
      rw [hfirst, hsecond, tail, next, Option.map_some, Option.map_some, Option.some_inj]
      exact ⟨fun himp => himp lock full, fun he _ _ => he⟩
    have hreport : reportedDrops [.stored (.overwrote oldest stamp),
        .stored (.pushed data s.pushCount),
        .logged (logEvent "Dropped oldest data from sensor %d due to buffer full"
          [.int named.sensorId.toInt]), .logged (logEvent "Data pushed to buffer" []),
        .pushReturned t (result calls.signal calls.unlock)] = [named.sensorId.toInt] := by
      rw [reportedDrops_stored, reportedDrops_stored, reportedDrops_logged,
        reportedDrops_logged, dropped?_dropped, dropped?_pushed]
      rfl
    rw [hcondition, hreport]
    show [_].length = [oldest.sensorId.toInt].length ∧
      (_ ↔ [named.sensorId.toInt] = [oldest.sensorId.toInt])
    rw [List.length_singleton, List.length_singleton, List.singleton_inj, Int32.toInt_inj]
    exact ⟨rfl, eq_comm⟩
  | @nothing a t b os pops idle out =>
    have hnone : OldestOfOneSensor s a := by
      cases a with
      | push t calls data => exact absurd rfl (pops t calls data)
      | pop => trivial
      | wake => trivial
      | shutdown => trivial
    rcases out with rfl | rfl
    · exact hquiet rfl rfl hnone
    · exact hquiet rfl rfl hnone
  | taken call =>
    refine hquiet rfl ?_ ?_
    · rw [reportedDrops_stored, reportedDrops_logged, dropped?_popped]
      rfl
    · rcases call with ⟨calls, rfl, -⟩ | ⟨calls, rfl, -⟩
      · trivial
      · trivial
  | shutdown => exact hquiet rfl rfl trivial

theorem ofSensor_append (id : Int) (l l' : List (SensorData T)) :
    ofSensor id (l ++ l') = ofSensor id l + ofSensor id l' := by
  rw [ofSensor, sensors, List.map_append, List.count_append]
  rfl

theorem ofSensor_cons (id : Int) (data : SensorData T) (l : List (SensorData T)) :
    ofSensor id (data :: l) = ofSensor id [data] + ofSensor id l :=
  ofSensor_append id [data] l

/-- A reading stored before or by the step is stored after it, or left the queue in it. -/
theorem step_conserves (h : SbufferThreads.Inv N s) (heffect : Effect s a u os) (id : Int) :
    ofSensor id s.sb.queue + ofSensor id (pushedReadings os) =
      ofSensor id (poppedReadings os) + ofSensor id u.sb.queue +
        ofSensor id (overwrittenReadings os) := by
  cases heffect with
  | locked => exact (Nat.zero_add _).symm
  | @stored t calls data lock room =>
    have hqueue : (s.sb.pushRoom data).queue = s.sb.queue ++ [data] :=
      h.sb.window_pushRoom room h.sb.length_eq data
    show ofSensor id s.sb.queue + ofSensor id [data] =
      0 + ofSensor id (s.sb.pushRoom data).queue + 0
    rw [hqueue, ofSensor_append]
    omega
  | @replaced t calls data oldest named stamp lock full tail tailStamp next =>
    have hpos := h.sb.size_pos
    have hbefore : s.sb.queue = oldest :: _ :=
      h.sb.window_take (by omega) h.sb.length_eq tail
    have hafter : (s.sb.pushFull data).queue = _ ++ [data] :=
      h.sb.window_pushFull full h.sb.length_eq data
    show ofSensor id s.sb.queue + ofSensor id [data] =
      0 + ofSensor id (s.sb.pushFull data).queue + ofSensor id [oldest]
    rw [hbefore, hafter, ofSensor_append, ofSensor_cons, Nat.zero_add]
    ac_rfl
  | nothing pops idle out => rcases out with rfl | rfl <;> exact (Nat.zero_add _).symm
  | @taken a t signal unlock data stamp call some_ tail tailStamp =>
    have hqueue : s.sb.queue = data :: s.sb.takeTail.queue :=
      h.sb.window_take some_ h.sb.length_eq tail
    show ofSensor id s.sb.queue + 0 = ofSensor id [data] + ofSensor id s.sb.takeTail.queue + 0
    rw [hqueue, ofSensor_cons]
  | shutdown => exact (Nat.zero_add _).symm

/-! ## A run -/

theorem run_conserves {t : State T Tid} {as : List (Act T Tid)} (h : SbufferThreads.Inv N s)
    (hrun : run step s as = some (t, os)) (id : Int) :
    ofSensor id s.sb.queue + ofSensor id (pushedReadings os) =
      ofSensor id (poppedReadings os) + ofSensor id t.sb.queue +
        ofSensor id (overwrittenReadings os) := by
  refine run_induction (P := fun _ os t => ofSensor id s.sb.queue +
    ofSensor id (pushedReadings os) = ofSensor id (poppedReadings os) +
      ofSensor id t.sb.queue + ofSensor id (overwrittenReadings os)) ?_ ?_ hrun
  · exact (Nat.zero_add _).symm
  · intro as os u a t os' hu ih ha
    have hstep := step_conserves (run_inv h hu) (step_effect (run_inv h hu) ha) id
    have hpush : pushedReadings (os ++ os') = pushedReadings os ++ pushedReadings os' :=
      List.filterMap_append
    have hpop : poppedReadings (os ++ os') = poppedReadings os ++ poppedReadings os' :=
      List.filterMap_append
    have hover : overwrittenReadings (os ++ os') =
        overwrittenReadings os ++ overwrittenReadings os' := List.filterMap_append
    rw [hpush, hpop, hover, ofSensor_append, ofSensor_append, ofSensor_append]
    omega

/-- The reports of a run name the right sensors exactly when every one of them does. -/
theorem run_reports {t : State T Tid} {as : List (Act T Tid)} (h : SbufferThreads.Inv N s)
    (hrun : run step s as = some (t, os)) :
    Meets step OldestOfOneSensor s as ↔ reportedDrops os = sensors (overwrittenReadings os) := by
  refine (run_induction (P := fun as os _ =>
    (reportedDrops os).length = (sensors (overwrittenReadings os)).length ∧
      (Meets step OldestOfOneSensor s as ↔
        reportedDrops os = sensors (overwrittenReadings os))) ⟨rfl, iff_of_true trivial rfl⟩
    ?_ hrun).2
  intro as os u a t os' hu ih ha
  obtain ⟨hlen, hiff⟩ := step_reports (run_inv h hu) (step_effect (run_inv h hu) ha)
  have hreport : reportedDrops (os ++ os') = reportedDrops os ++ reportedDrops os' :=
    List.filterMap_append
  have hover : sensors (overwrittenReadings (os ++ os')) =
      sensors (overwrittenReadings os) ++ sensors (overwrittenReadings os') := by
    rw [overwrittenReadings, List.filterMap_append, sensors, List.map_append]
    rfl
  rw [hreport, hover, meets_snoc_iff hu, ih.2, hiff]
  constructor
  · rw [List.length_append, List.length_append, ih.1, hlen]
  · constructor
    · rintro ⟨hbefore, hlast⟩
      rw [hbefore, hlast]
    · intro happ
      exact List.append_inj happ ih.1

/-- The reports name the overwritten readings' sensors, and so account for every reading of
every sensor, exactly when each overwriting push finds the two oldest readings to be of one
sensor. -/
theorem drops_accounted_iff {block : Option (List (SensorData T))} {sb : Sbuffer T}
    {t : State T Tid} {as : List (Act T Tid)} (hN : 1 ≤ N)
    (hblock : ∀ b, block = some b → b.length = N)
    (hinit : sbufferInit .ok (N : Int) block = some sb)
    (hrun : run step (start sb) as = some (t, os)) :
    Meets step OldestOfOneSensor (start sb) as ↔
      reportedDrops os = sensors (overwrittenReadings os) ∧
        ∀ id : Int, ofSensor id (pushedReadings os) = ofSensor id (poppedReadings os) +
          ofSensor id t.sb.queue + (reportedDrops os).count id := by
  have hinv : SbufferThreads.Inv N (start sb : State T Tid) :=
    (SbufferThreads.inv_start hN hblock hinit).1
  have hqueue : (start sb : State T Tid).sb.queue = [] := by
    obtain ⟨hsb, _, hcount⟩ := Sbuffer.sbufferInit_inv hN hblock hinit
    exact List.eq_nil_of_length_eq_zero ((Sbuffer.queue_length hsb).trans hcount)
  rw [run_reports hinv hrun]
  refine (and_iff_left_of_imp fun hreports id => ?_).symm
  have hconserves := run_conserves hinv hrun id
  rw [hqueue] at hconserves
  have hnone : ofSensor id ([] : List (SensorData T)) = 0 := rfl
  rw [hreports]
  show _ = _ + ofSensor id (overwrittenReadings os)
  omega

/-! ## Two sensors in two slots -/

/-- Readings of sensors 1, 2 and 3 pushed into a buffer of two slots. -/
def threeReadings : List (Act Unit Unit) :=
  [.push () .ok ⟨1, (), 0⟩, .push () .ok ⟨2, (), 0⟩, .push () .ok ⟨3, (), 0⟩]

def twoSlots : Sbuffer Unit := ⟨[⟨0, (), 0⟩, ⟨0, (), 0⟩], 2, 0, 0, 0⟩

/-- The reading of sensor 1 is overwritten and sensor 2 is named. -/
theorem drop_names_second_oldest :
    sbufferInit .ok 2 (some [⟨0, (), 0⟩, ⟨0, (), 0⟩]) = some twoSlots ∧
    ∃ t os, run step (start twoSlots) threeReadings = some (t, os) ∧
      sensors (overwrittenReadings os) = [1] ∧ reportedDrops os = [2] := by
  refine ⟨rfl, _, _, rfl, rfl, ?_⟩
  show reportedDrops [.stored _, .logged (logEvent "Data pushed to buffer" []),
    .pushReturned _ _, .stored _, .logged (logEvent "Data pushed to buffer" []),
    .pushReturned _ _, .stored _, .stored _,
    .logged (logEvent "Dropped oldest data from sensor %d due to buffer full" [.int 2]),
    .logged (logEvent "Data pushed to buffer" []), .pushReturned _ _] = _
  simp only [reportedDrops_stored, reportedDrops_logged, reportedDrops_returned,
    dropped?_pushed, dropped?_dropped]
  rfl

/-- Two readings of one sensor and a third, pushed into two slots. -/
theorem drops_accounted_iff_twoSlots :
    ∃ t os, run step (start twoSlots)
        [.push () .ok ⟨1, (), 0⟩, .push () .ok ⟨1, (), 5⟩, .push () .ok ⟨3, (), 0⟩] =
          some (t, os) ∧
      (Meets step OldestOfOneSensor (start twoSlots)
          [.push () .ok ⟨1, (), 0⟩, .push () .ok ⟨1, (), 5⟩, .push () .ok ⟨3, (), 0⟩] ↔
        reportedDrops os = sensors (overwrittenReadings os) ∧
          ∀ id : Int, ofSensor id (pushedReadings os) = ofSensor id (poppedReadings os) +
            ofSensor id t.sb.queue + (reportedDrops os).count id) := by
  have hblock := length_of_allocated (rfl : [(⟨0, (), 0⟩ : SensorData Unit), ⟨0, (), 0⟩].length = 2)
  exact ⟨_, _, rfl, drops_accounted_iff (by decide) hblock rfl rfl⟩

end SbufferCalls
end Gateway
end LinuxEmbedded
