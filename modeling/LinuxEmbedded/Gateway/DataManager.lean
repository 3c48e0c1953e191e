import LinuxEmbedded.Gateway.Common
import LinuxEmbedded.Lib.Machine
import Mathlib.Algebra.Order.Ring.Rat

/-
The data manager, `data_manager.c`: running averages and alerts.

One step is the part of the loop of `data_manager` after a successful pop.  The
arithmetic on temperatures is a parameter, and exact on the rationals.  `difftime` is
an integer difference: rounding it to a `double` cannot move it across an integer
threshold.
-/
namespace LinuxEmbedded
namespace Gateway

def tooHot : ℚ := 40
def tooCold : ℚ := 18
def resetThresholdSeconds : Int := 3600
def minAvgCount : Int32 := 5
def alertCooldown : Int := 60

def difftime (a b : Int) : Int := a - b

/-- What `data_manager` does with temperatures. -/
class Temperature (T : Type) where
  zero : T
  add : T → T → T
  /-- `new_sum / new_count`. -/
  mean : T → Int32 → T
  /-- `new_avg < TOO_COLD`. -/
  belowCold : T → Bool
  /-- `new_avg > TOO_HOT`. -/
  aboveHot : T → Bool

instance : Temperature ℚ where
  zero := 0
  add := (· + ·)
  mean sum count := sum / count.toInt
  belowCold t := t < tooCold
  aboveHot t := tooHot < t

/-- `sensor_avg_t`.  The counter is an `int`, and its overflow wraps. -/
structure SensorAvg (T : Type) where
  sum : T
  count : Int32
  lastUpdate : Int
  deriving DecidableEq, Repr

inductive AlertKind where
  | tooCold
  | tooHot
  deriving DecidableEq, Repr

structure Alert (T : Type) where
  kind : AlertKind
  average : T
  deriving DecidableEq, Repr

/-- The static arrays `sensor_averages` and `last_alert_time`. -/
structure DataManager (T : Type) where
  sensorAverages : List (SensorAvg T)
  lastAlertTime : List Int
  deriving DecidableEq, Repr

variable {T : Type} [Temperature T]

def SensorAvg.start : SensorAvg T := ⟨Temperature.zero, 0, 0⟩

def DataManager.start : DataManager T where
  sensorAverages := List.replicate maxSensors .start
  lastAlertTime := List.replicate maxSensors 0

/-- A popped record and the value of `time(NULL)` read for it. -/
structure Reading (T : Type) where
  data : SensorData T
  now : Int
  deriving DecidableEq, Repr

def Reading.id (r : Reading T) : Int := r.data.sensorId.toInt

def ValidId (id : Int) : Prop := 0 < id ∧ id < (maxSensors : Int)

instance (id : Int) : Decidable (ValidId id) := inferInstanceAs (Decidable (_ ∧ _))

/-- What one iteration did for its reading. -/
structure Entry (T : Type) where
  reading : Reading T
  /-- The branch that restarts the average was taken. -/
  reset : Bool
  /-- The average of the sensor after the reading. -/
  avg : SensorAvg T
  alert : Option (Alert T)
  logs : List (Message T)
  deriving DecidableEq, Repr

/-- No recent update: the average is to be restarted. -/
def needsReset (avg : SensorAvg T) (now : Int) : Bool :=
  resetThresholdSeconds < difftime now avg.lastUpdate

/-- The update of `sensor_averages[sensor_id]`.  The time of the update is the
timestamp of the record. -/
def updateAverage (avg : SensorAvg T) (r : Reading T) : SensorAvg T :=
  if needsReset avg r.now then
    { sum := r.data.temperature, count := 1, lastUpdate := r.data.timestamp.toInt }
  else
    { sum := Temperature.add avg.sum r.data.temperature, count := avg.count + 1,
      lastUpdate := r.data.timestamp.toInt }

def newAverage (avg : SensorAvg T) : T :=
  if minAvgCount ≤ avg.count then Temperature.mean avg.sum avg.count else Temperature.zero

/-- The alert raised for an updated average, if any. -/
def checkAlert (avg : SensorAvg T) (lastAlert now : Int) : Option (Alert T) :=
  if minAvgCount ≤ avg.count then
    if alertCooldown ≤ difftime now lastAlert then
      if Temperature.belowCold (newAverage avg) then some ⟨.tooCold, newAverage avg⟩
      else if Temperature.aboveHot (newAverage avg) then some ⟨.tooHot, newAverage avg⟩
      else none
    else none
  else none

def Alert.message (id : Int) : Alert T → Message T
  | ⟨.tooCold, average⟩ =>
    logEvent "The sensor node with %d reports it's too cold (running avg temperature = %.1f)"
      [.int id, .temp average]
  | ⟨.tooHot, average⟩ =>
    logEvent "The sensor node with %d reports it's too hot (running avg temperature = %.1f)"
      [.int id, .temp average]

def averageMessages (old avg : SensorAvg T) (r : Reading T) : List (Message T) :=
  (if needsReset old r.now then
    [logEvent "Reset average for sensor %d to %.1f°C" [.int r.id, .temp r.data.temperature]]
  else []) ++
  [if minAvgCount ≤ avg.count then
    logEvent "Sensor %d running avg: %.1f°C (count=%d)"
      [.int r.id, .temp (newAverage avg), .int avg.count.toInt]
  else
    logEvent "Sensor %d accumulating: %.1f°C (count=%d, waiting for %d)"
      [.int r.id, .temp r.data.temperature, .int avg.count.toInt, .int minAvgCount.toInt]]

structure MutexCalls where
  lock : Bool
  unlock : Bool

def MutexCalls.ok : MutexCalls := ⟨true, true⟩

/-- An iteration that changes no average. -/
def skipEntry (r : Reading T) (logs : List (Message T)) : Entry T :=
  { reading := r, reset := false, avg := .start, alert := none, logs }

/-- One iteration of `data_manager` on a popped record. -/
def dataManager (calls : MutexCalls) (m : DataManager T) (r : Reading T) :
    Option (DataManager T × Entry T) :=
  if ¬ValidId r.id then
    some (m, skipEntry r [logEvent "Received sensor data with invalid sensor ID %d" [.int r.id]])
  else
    let processing := logEvent "Processing sensor %d: temp=%.1f°C, time=%ld"
      [.int r.id, .temp r.data.temperature, .int r.data.timestamp.toInt]
    if !calls.lock then
      some (m, skipEntry r [processing,
        logEvent "Mutex lock failed in data_manager for sensor %d" [.int r.id]])
    else do
      let i ← cIndex r.id
      let old ← m.sensorAverages[i]?
      let avg := updateAverage old r
      let sensorAverages ← cStore m.sensorAverages i avg
      let lastAlert ← m.lastAlertTime[i]?
      let alert := checkAlert avg lastAlert r.now
      let lastAlertTime ←
        if alert.isSome then cStore m.lastAlertTime i r.now else some m.lastAlertTime
      let unlocked := if !calls.unlock then
        [logEvent "Mutex unlock failed in data_manager for sensor %d" [.int r.id]] else []
      some ({ sensorAverages, lastAlertTime },
        { reading := r
          reset := needsReset old r.now
          avg
          alert
          logs := processing :: averageMessages old avg r ++ unlocked ++
            (alert.map (Alert.message r.id)).toList })

/-- The loop of `data_manager` over popped records, with the mutex calls
succeeding. -/
def dataManagerStep (m : DataManager T) (r : Reading T) :
    Option (DataManager T × List (Entry T)) :=
  (dataManager .ok m r).map fun q => (q.1, [q.2])

/-- An iteration reports the record it was given. -/
theorem dataManager_reading {calls : MutexCalls} {m m' : DataManager T} {r : Reading T}
    {e : Entry T} (h : dataManager calls m r = some (m', e)) : e.reading = r := by
  unfold dataManager at h
  by_cases hid : ValidId r.id
  · rw [if_neg (not_not_intro hid)] at h
    by_cases hlock : (!calls.lock) = true
    · simp only [if_pos hlock] at h
      obtain ⟨rfl, rfl⟩ := Prod.mk.inj (Option.some.inj h)
      rfl
    · simp only [if_neg hlock] at h
      obtain ⟨i, -, h⟩ := Option.bind_eq_some_iff.mp h
      obtain ⟨old, -, h⟩ := Option.bind_eq_some_iff.mp h
      obtain ⟨averages, -, h⟩ := Option.bind_eq_some_iff.mp h
      obtain ⟨last, -, h⟩ := Option.bind_eq_some_iff.mp h
      by_cases halert : (checkAlert (updateAverage old r) last r.now).isSome = true
      · rw [if_pos halert] at h
        obtain ⟨alerts, -, h⟩ := Option.bind_eq_some_iff.mp h
        obtain ⟨rfl, rfl⟩ := Prod.mk.inj (Option.some.inj h)
        rfl
      · rw [if_neg halert] at h
        obtain ⟨rfl, rfl⟩ := Prod.mk.inj (Option.some.inj h)
        rfl
  · rw [if_pos hid] at h
    obtain ⟨rfl, rfl⟩ := Prod.mk.inj (Option.some.inj h)
    rfl

/-! ## The update of an average -/

omit [Temperature T] in
theorem needsReset_iff {avg : SensorAvg T} {now : Int} :
    needsReset avg now = true ↔ resetThresholdSeconds < difftime now avg.lastUpdate := by
  unfold needsReset
  exact decide_eq_true_iff

theorem updateAverage_of_reset {avg : SensorAvg T} {r : Reading T}
    (h : needsReset avg r.now = true) :
    updateAverage avg r =
      { sum := r.data.temperature, count := 1, lastUpdate := r.data.timestamp.toInt } :=
  if_pos h

theorem updateAverage_of_not_reset {avg : SensorAvg T} {r : Reading T}
    (h : ¬needsReset avg r.now = true) :
    updateAverage avg r =
      { sum := Temperature.add avg.sum r.data.temperature, count := avg.count + 1,
        lastUpdate := r.data.timestamp.toInt } :=
  if_neg h

theorem updateAverage_lastUpdate (avg : SensorAvg T) (r : Reading T) :
    (updateAverage avg r).lastUpdate = r.data.timestamp.toInt := by
  by_cases h : needsReset avg r.now = true
  · rw [updateAverage_of_reset h]
  · rw [updateAverage_of_not_reset h]

/-! ## One sensor

The two arrays are read and written only at the sensor of the reading, so the
history of a sensor is a fold over its own readings. -/

/-- The array entries of one sensor. -/
structure Cell (T : Type) where
  avg : SensorAvg T
  lastAlert : Int
  deriving DecidableEq, Repr

namespace Cell

def start : Cell T := ⟨.start, 0⟩

def alert (c : Cell T) (r : Reading T) : Option (Alert T) :=
  checkAlert (updateAverage c.avg r) c.lastAlert r.now

def update (c : Cell T) (r : Reading T) : Cell T where
  avg := updateAverage c.avg r
  lastAlert := if (c.alert r).isSome then r.now else c.lastAlert

def entry (c : Cell T) (r : Reading T) : Entry T where
  reading := r
  reset := needsReset c.avg r.now
  avg := updateAverage c.avg r
  alert := c.alert r
  logs := logEvent "Processing sensor %d: temp=%.1f°C, time=%ld"
      [.int r.id, .temp r.data.temperature, .int r.data.timestamp.toInt] ::
    averageMessages c.avg (updateAverage c.avg r) r ++
    ((c.alert r).map (Alert.message r.id)).toList

/-- The cell after a list of readings of its sensor. -/
def after (rs : List (Reading T)) : Cell T := rs.foldl update start

/-- The entries of a list of readings of its sensor. -/
def entries : Cell T → List (Reading T) → List (Entry T)
  | _, [] => []
  | c, r :: rs => c.entry r :: entries (c.update r) rs

theorem after_snoc (rs : List (Reading T)) (r : Reading T) :
    after (rs ++ [r]) = (after rs).update r := by
  rw [after, List.foldl_append]
  rfl

theorem entries_append (c : Cell T) (rs rs' : List (Reading T)) :
    entries c (rs ++ rs') = entries c rs ++ entries (rs.foldl update c) rs' := by
  induction rs generalizing c with
  | nil => rfl
  | cons r rs ih =>
    show c.entry r :: entries (c.update r) (rs ++ rs') = _
    rw [ih]
    rfl

theorem entries_snoc (rs : List (Reading T)) (r : Reading T) :
    entries start (rs ++ [r]) = entries start rs ++ [(after rs).entry r] :=
  entries_append start rs [r]

end Cell

def sensorReadings (id : Int) (rs : List (Reading T)) : List (Reading T) :=
  rs.filter fun r => r.id = id

def sensorEntries (id : Int) (es : List (Entry T)) : List (Entry T) :=
  es.filter fun e => e.reading.id = id

/-- The arrays hold the cell of every sensor that has seen `rs`. -/
structure Holds (m : DataManager T) (rs : List (Reading T)) : Prop where
  averages : m.sensorAverages.length = maxSensors
  alerts : m.lastAlertTime.length = maxSensors
  cells : ∀ id, ValidId id →
    m.sensorAverages[id.toNat]? = some (Cell.after (sensorReadings id rs)).avg ∧
    m.lastAlertTime[id.toNat]? = some (Cell.after (sensorReadings id rs)).lastAlert

theorem validId_lt {id : Int} (h : ValidId id) : id.toNat < maxSensors := by
  obtain ⟨hpos, hlt⟩ := h
  omega

theorem validId_toNat_ne {id id' : Int} (h : ValidId id) (h' : ValidId id') (hne : id ≠ id') :
    id.toNat ≠ id'.toNat := by
  obtain ⟨hpos, -⟩ := h
  obtain ⟨hpos', -⟩ := h'
  omega

/-- An iteration on a valid reading, with the mutex locked, updates the entries of its sensor.
A failed unlock is logged. -/
theorem dataManager_of_valid {calls : MutexCalls} {m : DataManager T} {r : Reading T} {c : Cell T}
    (hid : ValidId r.id) (hlock : calls.lock = true)
    (havg : m.sensorAverages[r.id.toNat]? = some c.avg)
    (hlast : m.lastAlertTime[r.id.toNat]? = some c.lastAlert) :
    dataManager calls m r = some
      ({ sensorAverages := m.sensorAverages.set r.id.toNat (c.update r).avg
         lastAlertTime := m.lastAlertTime.set r.id.toNat (c.update r).lastAlert },
        { c.entry r with
          logs := logEvent "Processing sensor %d: temp=%.1f°C, time=%ld"
              [.int r.id, .temp r.data.temperature, .int r.data.timestamp.toInt] ::
            averageMessages c.avg (updateAverage c.avg r) r ++
            (if !calls.unlock then
              [logEvent "Mutex unlock failed in data_manager for sensor %d" [.int r.id]]
            else []) ++
            ((c.alert r).map (Alert.message r.id)).toList }) := by
  have hlenAvg := (List.getElem?_eq_some_iff.mp havg).1
  have hlenAlert := (List.getElem?_eq_some_iff.mp hlast).1
  have hindex := cIndex_of_nonneg (Int.le_of_lt hid.1)
  by_cases ha : (checkAlert (updateAverage c.avg r) c.lastAlert r.now).isSome = true
  · simp [dataManager, hid, hindex, hlock, havg, hlast, cStore_of_lt hlenAvg,
      cStore_of_lt hlenAlert, ha, Cell.entry, Cell.update, Cell.alert]
  · have hsame : m.lastAlertTime.set r.id.toNat c.lastAlert = m.lastAlertTime := by
      have hget : m.lastAlertTime[r.id.toNat] = c.lastAlert := by
        rw [List.getElem?_eq_getElem hlenAlert] at hlast
        exact Option.some.inj hlast
      rw [← hget, List.set_getElem_self]
    simp [dataManager, hid, hindex, hlock, havg, hlast, cStore_of_lt hlenAvg, ha, Cell.entry,
      Cell.update, Cell.alert, hsame]

omit [Temperature T] in
theorem sensorReadings_snoc_self (rs : List (Reading T)) (r : Reading T) :
    sensorReadings r.id (rs ++ [r]) = sensorReadings r.id rs ++ [r] := by
  rw [sensorReadings, List.filter_append]
  simp [sensorReadings]

omit [Temperature T] in
theorem sensorReadings_snoc_ne {id : Int} (rs : List (Reading T)) {r : Reading T} (h : r.id ≠ id) :
    sensorReadings id (rs ++ [r]) = sensorReadings id rs := by
  rw [sensorReadings, List.filter_append]
  simp [sensorReadings, h]

theorem Holds.start : Holds (.start : DataManager T) [] := by
  refine ⟨List.length_replicate, List.length_replicate, ?_⟩
  intro id hid
  have hlt := validId_lt hid
  constructor
  · show (List.replicate maxSensors (SensorAvg.start : SensorAvg T))[id.toNat]? = some .start
    rw [List.getElem?_replicate, if_pos hlt]
  · show (List.replicate maxSensors (0 : Int))[id.toNat]? = some 0
    rw [List.getElem?_replicate, if_pos hlt]

theorem dataManagerStep_invalid {m : DataManager T} {rs : List (Reading T)} {r : Reading T}
    (h : Holds m rs) (hid : ¬ValidId r.id) :
    dataManagerStep m r = some (m, [skipEntry r
      [logEvent "Received sensor data with invalid sensor ID %d" [.int r.id]]]) ∧
    Holds m (rs ++ [r]) := by
  constructor
  · simp [dataManagerStep, dataManager, hid]
  · refine ⟨h.averages, h.alerts, ?_⟩
    intro id hvalid
    have hne : r.id ≠ id := fun he => hid (he ▸ hvalid)
    rw [sensorReadings_snoc_ne rs hne]
    exact h.cells id hvalid

/-- A valid reading updates the cell of its sensor and no other. -/
theorem dataManagerStep_valid {m : DataManager T} {rs : List (Reading T)} {r : Reading T}
    (h : Holds m rs) (hid : ValidId r.id) :
    ∃ m', dataManagerStep m r =
        some (m', [(Cell.after (sensorReadings r.id rs)).entry r]) ∧
      Holds m' (rs ++ [r]) := by
  obtain ⟨havg, hlast⟩ := h.cells r.id hid
  have hlt := validId_lt hid
  have hlenAvg : r.id.toNat < m.sensorAverages.length := h.averages ▸ hlt
  have hlenAlert : r.id.toNat < m.lastAlertTime.length := h.alerts ▸ hlt
  generalize hc : Cell.after (sensorReadings r.id rs) = c at havg hlast
  have hafter : Cell.after (sensorReadings r.id (rs ++ [r])) = c.update r := by
    rw [sensorReadings_snoc_self, Cell.after_snoc, hc]
  let m' : DataManager T :=
    { sensorAverages := m.sensorAverages.set r.id.toNat (c.update r).avg
      lastAlertTime := m.lastAlertTime.set r.id.toNat (c.update r).lastAlert }
  have hstep : dataManagerStep m r = some (m', [c.entry r]) := by
    rw [dataManagerStep, dataManager_of_valid hid rfl havg hlast]
    simp [m', MutexCalls.ok, Cell.entry]
  refine ⟨m', hstep, ?_, ?_, ?_⟩
  · show (m.sensorAverages.set _ _).length = maxSensors
    rw [List.length_set, h.averages]
  · show (m.lastAlertTime.set _ _).length = maxSensors
    rw [List.length_set, h.alerts]
  · intro id hvalid
    by_cases he : r.id = id
    · subst he
      rw [hafter]
      exact ⟨List.getElem?_set_self hlenAvg, List.getElem?_set_self hlenAlert⟩
    · have hne : r.id.toNat ≠ id.toNat := validId_toNat_ne hid hvalid he
      rw [sensorReadings_snoc_ne rs he]
      show (m.sensorAverages.set _ _)[id.toNat]? = _ ∧ (m.lastAlertTime.set _ _)[id.toNat]? = _
      rw [List.getElem?_set_ne hne, List.getElem?_set_ne hne]
      exact h.cells id hvalid

/-- What a run over `rs` leaves behind: the cell of every sensor, and one entry a
reading. -/
structure Ran (rs : List (Reading T)) (m : DataManager T) (es : List (Entry T)) : Prop where
  holds : Holds m rs
  readings : es.map Entry.reading = rs
  valid : ∀ id, ValidId id →
    sensorEntries id es = Cell.entries Cell.start (sensorReadings id rs)
  invalid : ∀ e ∈ es, ¬ValidId e.reading.id →
    e.reset = false ∧ e.avg = .start ∧ e.alert = none

omit [Temperature T] in
theorem sensorEntries_snoc (id : Int) (es : List (Entry T)) (e : Entry T) :
    sensorEntries id (es ++ [e]) =
      sensorEntries id es ++ (if e.reading.id = id then [e] else []) := by
  rw [sensorEntries, List.filter_append]
  by_cases h : e.reading.id = id <;> simp [sensorEntries, h]

theorem Ran.step {rs : List (Reading T)} {m : DataManager T} {es : List (Entry T)} (h : Ran rs m es)
    (r : Reading T) :
    ∃ m' e, dataManagerStep m r = some (m', [e]) ∧ Ran (rs ++ [r]) m' (es ++ [e]) := by
  by_cases hid : ValidId r.id
  · obtain ⟨m', hstep, hholds⟩ := dataManagerStep_valid h.holds hid
    refine ⟨m', _, hstep, hholds, ?_, ?_, ?_⟩
    · rw [List.map_append, h.readings]
      rfl
    · intro id hvalid
      rw [sensorEntries_snoc, h.valid id hvalid]
      by_cases he : r.id = id
      · subst he
        rw [sensorReadings_snoc_self, Cell.entries_snoc]
        simp [Cell.entry]
      · rw [sensorReadings_snoc_ne rs he]
        simp [Cell.entry, he]
    · intro e he hinvalid
      rcases List.mem_append.mp he with he | he
      · exact h.invalid e he hinvalid
      · rw [List.mem_singleton] at he
        subst he
        exact absurd hid hinvalid
  · obtain ⟨hstep, hholds⟩ := dataManagerStep_invalid h.holds hid
    refine ⟨m, _, hstep, hholds, ?_, ?_, ?_⟩
    · rw [List.map_append, h.readings]
      rfl
    · intro id hvalid
      have hne : r.id ≠ id := fun he => hid (he ▸ hvalid)
      rw [sensorEntries_snoc, h.valid id hvalid, sensorReadings_snoc_ne rs hne]
      simp [skipEntry, hne]
    · intro e he hinvalid
      rcases List.mem_append.mp he with he | he
      · exact h.invalid e he hinvalid
      · rw [List.mem_singleton] at he
        subst he
        exact ⟨rfl, rfl, rfl⟩

/-- Every list of readings is processed to its end. -/
theorem exists_run (rs : List (Reading T)) :
    ∃ m es, Machine.run dataManagerStep .start rs = some (m, es) ∧ Ran rs m es := by
  induction rs using List.reverseRecOn with
  | nil =>
    refine ⟨.start, [], rfl, Holds.start, rfl, fun _ _ => rfl, ?_⟩
    intro e he
    cases he
  | append_singleton rs r ih =>
    obtain ⟨m, es, hrun, hran⟩ := ih
    obtain ⟨m', e, hstep, hran'⟩ := hran.step r
    exact ⟨m', es ++ [e], Machine.run_snoc_eq_some.mpr ⟨m, es, [e], hrun, hstep, rfl⟩, hran'⟩

theorem ran_of_run {rs : List (Reading T)} {m : DataManager T} {es : List (Entry T)}
    (h : Machine.run dataManagerStep .start rs = some (m, es)) : Ran rs m es := by
  obtain ⟨m', es', hrun, hran⟩ := exists_run rs
  rw [h] at hrun
  obtain ⟨rfl, rfl⟩ := Prod.mk.inj (Option.some.inj hrun)
  exact hran

/-! ## Exact temperatures -/

def temperatureSum (rs : List (Reading ℚ)) : ℚ := (rs.map fun r => r.data.temperature).sum

theorem temperatureSum_snoc (rs : List (Reading ℚ)) (r : Reading ℚ) :
    temperatureSum (rs ++ [r]) = temperatureSum rs + r.data.temperature := by
  rw [temperatureSum, List.map_append, List.sum_append]
  show _ + (r.data.temperature + 0) = _
  rw [add_zero]
  rfl

/-- The counter after one more reading. -/
theorem count_succ_toInt (c : Int32) :
    (c + 1).toInt = if c.toInt + 1 < 2 ^ 31 then c.toInt + 1 else -2 ^ 31 := by
  have hlow := c.le_toInt
  have hhigh := c.toInt_lt
  rw [Int32.toInt_add]
  show (c.toInt + 1).bmod (2 ^ 32) = _
  by_cases h : c.toInt + 1 < 2 ^ 31
  · rw [if_pos h]
    exact Int.bmod_eq_of_le (by omega) (by omega)
  · have hmax : c.toInt + 1 = 2 ^ 31 := by omega
    rw [if_neg h, hmax]
    rfl

end Gateway
end LinuxEmbedded
