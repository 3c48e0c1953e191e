import LinuxEmbedded.Gateway.DataManager
import LinuxEmbedded.Lib.Isolation

/-
What one sensor sees of the others in `data_manager`.

A sensor sees its entries of the two arrays and the iterations on its own
readings.  Those of the other sensors, and those with an invalid sensor ID, leave
no trace it could see.
-/
namespace LinuxEmbedded
namespace Gateway

open Machine

variable {T : Type}

/-- A popped reading and the outcomes of the mutex calls made for it. -/
structure Iteration (T : Type) where
  calls : MutexCalls
  reading : Reading T

def iterate [Temperature T] (m : DataManager T) (it : Iteration T) :
    Option (DataManager T × List (Entry T)) :=
  (dataManager it.calls m it.reading).map fun q => (q.1, [q.2])

/-- The entries of the sensor in the two arrays. -/
def sensorView (id : Int) (m : DataManager T) : Option (SensorAvg T) × Option Int :=
  (m.sensorAverages[id.toNat]?, m.lastAlertTime[id.toNat]?)

def ofSensor (id : Int) (it : Iteration T) : Bool := it.reading.id = id

def entryOfSensor (id : Int) (e : Entry T) : Bool := e.reading.id = id

/-- The alerts raised for the sensor. -/
def sensorAlerts (id : Int) (es : List (Entry T)) : List (Alert T) :=
  (es.filter (entryOfSensor id)).filterMap Entry.alert

/-- The arrays have an entry for every sensor. -/
structure Complete (m : DataManager T) : Prop where
  averages : m.sensorAverages.length = maxSensors
  alerts : m.lastAlertTime.length = maxSensors

theorem Complete.start [Temperature T] : Complete (.start : DataManager T) :=
  ⟨List.length_replicate, List.length_replicate⟩

theorem Complete.exists_cell {m : DataManager T} (h : Complete m) {id : Int} (hid : ValidId id) :
    ∃ c : Cell T, sensorView id m = (some c.avg, some c.lastAlert) := by
  have hlt := validId_lt hid
  have havg : id.toNat < m.sensorAverages.length := h.averages ▸ hlt
  have hlast : id.toNat < m.lastAlertTime.length := h.alerts ▸ hlt
  refine ⟨⟨m.sensorAverages[id.toNat], m.lastAlertTime[id.toNat]⟩, ?_⟩
  rw [sensorView, List.getElem?_eq_getElem havg, List.getElem?_eq_getElem hlast]

theorem sensorView_set {m : DataManager T} (h : Complete m) {id id' : Int} (hid : ValidId id)
    (hid' : ValidId id') (avg : SensorAvg T) (last : Int) :
    sensorView id' { sensorAverages := m.sensorAverages.set id.toNat avg
                     lastAlertTime := m.lastAlertTime.set id.toNat last } =
      if id' = id then (some avg, some last) else sensorView id' m := by
  have hlt := validId_lt hid
  have havg : id.toNat < m.sensorAverages.length := h.averages ▸ hlt
  have hlast : id.toNat < m.lastAlertTime.length := h.alerts ▸ hlt
  by_cases he : id' = id
  · rw [if_pos he, he, sensorView, List.getElem?_set_self havg, List.getElem?_set_self hlast]
  · have hne : id.toNat ≠ id'.toNat := validId_toNat_ne hid hid' (Ne.symm he)
    rw [if_neg he, sensorView, List.getElem?_set_ne hne, List.getElem?_set_ne hne]
    rfl

variable [Temperature T]

/-- The iteration on a sensor's own reading, as far as the sensor sees it. -/
def Cell.iterate (c : Cell T) (it : Iteration T) : Cell T × Entry T :=
  let processing := logEvent "Processing sensor %d: temp=%.1f°C, time=%ld"
    [.int it.reading.id, .temp it.reading.data.temperature,
      .int it.reading.data.timestamp.toInt]
  if !it.calls.lock then
    (c, skipEntry it.reading [processing,
      logEvent "Mutex lock failed in data_manager for sensor %d" [.int it.reading.id]])
  else
    (c.update it.reading,
      { c.entry it.reading with
        logs := processing :: averageMessages c.avg (updateAverage c.avg it.reading) it.reading ++
          (if !it.calls.unlock then
            [logEvent "Mutex unlock failed in data_manager for sensor %d" [.int it.reading.id]]
          else []) ++
          ((c.alert it.reading).map (Alert.message it.reading.id)).toList })

theorem Cell.iterate_reading (c : Cell T) (it : Iteration T) :
    (c.iterate it).2.reading = it.reading := by
  dsimp only [Cell.iterate]
  split <;> rfl

theorem iterate_invalid (m : DataManager T) {it : Iteration T} (hid : ¬ValidId it.reading.id) :
    iterate m it = some (m, [skipEntry it.reading
      [logEvent "Received sensor data with invalid sensor ID %d" [.int it.reading.id]]]) := by
  rw [iterate, dataManager, if_pos hid]
  rfl

/-- An iteration on a valid reading acts on the entries of its sensor and no others. -/
theorem iterate_valid {m : DataManager T} {it : Iteration T} {c : Cell T} (h : Complete m)
    (hid : ValidId it.reading.id)
    (hc : sensorView it.reading.id m = (some c.avg, some c.lastAlert)) :
    ∃ m', iterate m it = some (m', [(c.iterate it).2]) ∧ Complete m' ∧
      ∀ id, ValidId id → sensorView id m' =
        if id = it.reading.id then (some (c.iterate it).1.avg, some (c.iterate it).1.lastAlert)
        else sensorView id m := by
  obtain ⟨havg, hlast⟩ := Prod.mk.inj hc
  cases hlock : it.calls.lock with
  | false =>
    have hcell : c.iterate it = (c, skipEntry it.reading [_, _]) := if_pos (by simp [hlock])
    refine ⟨m, ?_, h, ?_⟩
    · rw [hcell]
      simp [iterate, dataManager, hid, hlock]
    · intro id _
      rw [hcell]
      by_cases he : id = it.reading.id
      · rw [if_pos he, he, hc]
      · rw [if_neg he]
  | true =>
    have hcell : (c.iterate it).1 = c.update it.reading :=
      congrArg Prod.fst (if_neg (by simp [hlock]))
    let m' : DataManager T :=
      { sensorAverages := m.sensorAverages.set it.reading.id.toNat (c.update it.reading).avg
        lastAlertTime := m.lastAlertTime.set it.reading.id.toNat (c.update it.reading).lastAlert }
    refine ⟨m', ?_, ⟨?_, ?_⟩, ?_⟩
    · rw [iterate, dataManager_of_valid hid hlock havg hlast, Option.map_some]
      simp [Cell.iterate, hlock, m']
    · exact List.length_set.trans h.averages
    · exact List.length_set.trans h.alerts
    · intro id hid'
      rw [hcell]
      exact sensorView_set h hid hid' _ _

theorem iterate_defined {m : DataManager T} (h : Complete m) (it : Iteration T) :
    ∃ m' e, iterate m it = some (m', [e]) ∧ Complete m' := by
  by_cases hid : ValidId it.reading.id
  · obtain ⟨c, hc⟩ := h.exists_cell hid
    obtain ⟨m', hstep, hm', _⟩ := iterate_valid h hid hc
    exact ⟨m', _, hstep, hm'⟩
  · exact ⟨m, _, iterate_invalid m hid, h⟩

theorem iterate_unwinds {id : Int} (hid : ValidId id) :
    Unwinds (iterate (T := T)) Complete (sensorView id) (ofSensor id) (entryOfSensor id) where
  keeps := by
    intro m it m' os h hstep
    obtain ⟨u, e, hu, hcomplete⟩ := iterate_defined h it
    rw [hstep] at hu
    obtain ⟨rfl, _⟩ := Prod.mk.inj (Option.some.inj hu)
    exact hcomplete
  respects := by
    intro m it m' os h hunseen hstep
    have hne : it.reading.id ≠ id := of_decide_eq_false hunseen
    by_cases hvalid : ValidId it.reading.id
    · obtain ⟨c, hc⟩ := h.exists_cell hvalid
      obtain ⟨u, hu, _, hview⟩ := iterate_valid h hvalid hc
      rw [hstep] at hu
      obtain ⟨rfl, rfl⟩ := Prod.mk.inj (Option.some.inj hu)
      rw [hview id hid, if_neg (Ne.symm hne)]
      refine ⟨rfl, List.filter_eq_nil_iff.mpr ?_⟩
      intro e he
      rw [List.mem_singleton.mp he, entryOfSensor, Cell.iterate_reading]
      simp [hne]
    · rw [iterate_invalid m hvalid] at hstep
      obtain ⟨rfl, rfl⟩ := Prod.mk.inj (Option.some.inj hstep)
      exact ⟨rfl, by simp [entryOfSensor, skipEntry, hne]⟩
  consistent := by
    intro m n it m' n' os os' hm hn hseen hview hstep hstep'
    have he : it.reading.id = id := of_decide_eq_true hseen
    subst he
    obtain ⟨c, hc⟩ := hm.exists_cell hid
    obtain ⟨u, hu, _, huview⟩ := iterate_valid hm hid hc
    obtain ⟨v, hv, _, hvview⟩ := iterate_valid hn hid (hview.symm.trans hc)
    rw [hstep] at hu
    rw [hstep'] at hv
    obtain ⟨rfl, rfl⟩ := Prod.mk.inj (Option.some.inj hu)
    obtain ⟨rfl, rfl⟩ := Prod.mk.inj (Option.some.inj hv)
    rw [huview _ hid, hvview _ hid, if_pos rfl, if_pos rfl]
    exact ⟨rfl, rfl⟩

/-- Every access of a run is within the arrays. -/
theorem exists_iterations (its : List (Iteration T)) {m : DataManager T} (h : Complete m) :
    ∃ m' es, run iterate m its = some (m', es) := by
  induction its generalizing m with
  | nil => exact ⟨m, [], rfl⟩
  | cons it its ih =>
    obtain ⟨u, e, hu, hcomplete⟩ := iterate_defined h it
    obtain ⟨m', es, hrun⟩ := ih hcomplete
    exact ⟨m', [e] ++ es, run_cons_eq_some.mpr ⟨u, [e], es, hu, hrun, rfl⟩⟩

/-- Two runs over the same readings of a sensor, whatever else they contain, end with the same
average and alert time of the sensor and raise the same alerts for it. -/
theorem sensors_isolated {id : Int} (hid : ValidId id) {its its' : List (Iteration T)}
    (hsame : its.filter (ofSensor id) = its'.filter (ofSensor id)) :
    ∃ m es m' es', run iterate .start its = some (m, es) ∧
      run iterate .start its' = some (m', es') ∧
      m.sensorAverages[id.toNat]? = m'.sensorAverages[id.toNat]? ∧
      m.lastAlertTime[id.toNat]? = m'.lastAlertTime[id.toNat]? ∧
      sensorAlerts id es = sensorAlerts id es' := by
  obtain ⟨m, es, hrun⟩ := exists_iterations its Complete.start
  obtain ⟨m', es', hrun'⟩ := exists_iterations its' Complete.start
  obtain ⟨hview, hshows⟩ := (iterate_unwinds hid).run_eq Complete.start Complete.start rfl
    hsame hrun hrun'
  obtain ⟨havg, hlast⟩ := Prod.mk.inj hview
  refine ⟨m, es, m', es', hrun, hrun', havg, hlast, ?_⟩
  rw [sensorAlerts, sensorAlerts, hshows]

/-- Sensor 1 is hot five times, alone and with a negative sensor ID and a cold sensor 2 in
between. -/
theorem sensors_isolated_three :
    let hot (now : Int) : Iteration ℚ := ⟨.ok, ⟨⟨1, 50, 0⟩, now⟩⟩
    ∃ m es m' es',
      run iterate .start [hot 60, hot 61, hot 62, hot 63, hot 64] = some (m, es) ∧
      run iterate .start [hot 60, ⟨.ok, ⟨⟨-1, 0, 0⟩, 60⟩⟩, hot 61, hot 62, ⟨.ok, ⟨⟨2, 5, 4⟩, 62⟩⟩,
        hot 63, hot 64] = some (m', es') ∧
      m.sensorAverages[1]? = m'.sensorAverages[1]? ∧
      m.lastAlertTime[1]? = m'.lastAlertTime[1]? ∧
      sensorAlerts 1 es = sensorAlerts 1 es' ∧ sensorAlerts 1 es = [⟨.tooHot, 50⟩] := by
  intro hot
  have hmap : (run iterate .start [hot 60, hot 61, hot 62, hot 63, hot 64]).map
      (fun q => sensorAlerts 1 q.2) = some [⟨.tooHot, 50⟩] := by
    decide +kernel
  have hsame : [hot 60, hot 61, hot 62, hot 63, hot 64].filter (ofSensor 1) =
      [hot 60, ⟨.ok, ⟨⟨-1, 0, 0⟩, 60⟩⟩, hot 61, hot 62, ⟨.ok, ⟨⟨2, 5, 4⟩, 62⟩⟩,
        hot 63, hot 64].filter (ofSensor 1) := rfl
  obtain ⟨m, es, m', es', hrun, hrun', havg, hlast, halerts⟩ :=
    sensors_isolated (show ValidId 1 by decide) hsame
  rw [hrun] at hmap
  exact ⟨m, es, m', es', hrun, hrun', havg, hlast, halerts, Option.some.inj hmap⟩

end Gateway
end LinuxEmbedded
