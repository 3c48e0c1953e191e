import LinuxEmbedded.Gateway.Alerts
import LinuxEmbedded.Gateway.EndToEnd
import Mathlib.Algebra.Order.BigOperators.Group.List
import Mathlib.Data.Nat.Cast.Order.Ring
import Mathlib.Tactic.Linarith

/-
Where an alert comes from.

`data_manager` sees the readings that `storage_manager` did not take, of all
sensors mixed.  Behind the average of an alert there are still records of that one
sensor, each read from a connection, in the order they were read.
-/
namespace LinuxEmbedded
namespace Gateway
namespace Cell

/-- The readings behind an average are the last ones of its sensor, counted as an `int`
counts. -/
theorem recent_after (rs : List (Reading ℚ)) :
    ∃ recent, recent <:+ rs ∧ (after rs).avg.count = Int32.ofNat recent.length ∧
      temperatureSum recent = (after rs).avg.sum := by
  induction rs using List.reverseRecOn with
  | nil => exact ⟨[], List.nil_suffix, rfl, rfl⟩
  | append_singleton rs r ih =>
    obtain ⟨recent, ⟨front, hfront⟩, hcount, hsum⟩ := ih
    have havg : (after (rs ++ [r])).avg = updateAverage (after rs).avg r := by
      rw [after_snoc]
      rfl
    rw [havg]
    by_cases hr : needsReset (after rs).avg r.now = true
    · rw [updateAverage_of_reset hr]
      refine ⟨[r], List.suffix_append _ _, rfl, ?_⟩
      show r.data.temperature + 0 = _
      rw [add_zero]
    · rw [updateAverage_of_not_reset hr]
      refine ⟨recent ++ [r], ⟨front, ?_⟩, ?_, ?_⟩
      · rw [← List.append_assoc, hfront]
      · rw [List.length_append, List.length_singleton, Int32.ofNat_add, ← hcount]
        rfl
      · rw [temperatureSum_snoc, hsum]
        rfl

/-- An entry is that of its reading after the readings before it. -/
theorem mem_entries {rs : List (Reading ℚ)} {e : Entry ℚ} (h : e ∈ entries start rs) :
    ∃ p q r, rs = p ++ r :: q ∧ e = (after p).entry r := by
  induction rs using List.reverseRecOn with
  | nil => cases h
  | append_singleton rs r ih =>
    rw [entries_snoc] at h
    rcases List.mem_append.mp h with h | h
    · obtain ⟨p, q, r', hrs, he⟩ := ih h
      exact ⟨p, q ++ [r], r', by rw [hrs, List.append_assoc, List.cons_append], he⟩
    · exact ⟨rs, [], r, rfl, List.mem_singleton.mp h⟩

end Cell

/-- Behind an alert there are enough readings of its sensor, and its average is theirs. -/
theorem Ran.alert_recent {rs : List (Reading ℚ)} {m : DataManager ℚ} {es : List (Entry ℚ)}
    (h : Ran rs m es) (hcountable : rs.length < 2 ^ 31) {e : Entry ℚ} {a : Alert ℚ} (he : e ∈ es)
    (ha : e.alert = some a) :
    ∃ recent, recent.Sublist rs ∧ minAvgCount.toInt ≤ recent.length ∧
      (∀ r ∈ recent, r.id = e.reading.id) ∧ a.average = temperatureSum recent / recent.length ∧
      (a.kind = .tooCold → a.average < tooCold) ∧ (a.kind = .tooHot → tooHot < a.average) := by
  have hid : ValidId e.reading.id := by
    by_contra hid
    rw [(h.invalid e he hid).2.2] at ha
    cases ha
  have hmem : e ∈ sensorEntries e.reading.id es :=
    List.mem_filter.mpr ⟨he, decide_eq_true rfl⟩
  rw [h.valid _ hid] at hmem
  obtain ⟨p, q, r, hrs, hentry⟩ := Cell.mem_entries hmem
  obtain ⟨recent, hsuffix, hcount, hsum⟩ := Cell.recent_after (p ++ [r])
  rw [Cell.after_snoc] at hcount hsum
  have hraised : checkAlert ((Cell.after p).update r).avg (Cell.after p).lastAlert r.now =
      some a := by
    rw [hentry] at ha
    exact ha
  obtain ⟨hmin, -, haverage, hcold, hhot⟩ := checkAlert_some hraised
  have hpart : recent.Sublist (sensorReadings e.reading.id rs) := by
    rw [hrs, List.append_cons]
    exact hsuffix.sublist.trans (List.sublist_append_left ..)
  have hsub := hpart.trans List.filter_sublist
  have hlength : ((Cell.after p).update r).avg.count.toInt = recent.length := by
    rw [hcount, Int32.toInt_ofNat_of_lt (Nat.lt_of_le_of_lt hsub.length_le hcountable)]
  rw [Int32.le_iff_toInt_le, hlength] at hmin
  refine ⟨recent, hsub, hmin, ?_, ?_, ?_, ?_⟩
  · intro r' hr'
    exact of_decide_eq_true (List.mem_filter.mp (hpart.subset hr')).2
  · rw [haverage, hsum, hlength]
    rfl
  · rw [haverage]
    exact hcold
  · rw [haverage]
    exact hhot

namespace EndToEnd

variable {value : FloatBits → ℚ} {socketFd : Int}

def meanTemperature (value : FloatBits → ℚ) (rs : List SensorRecord) : ℚ :=
  (rs.map fun r => value r.temperature).sum / rs.length

/-- A mean below a bound has a value below it. -/
theorem exists_lt_of_mean_lt {rs : List SensorRecord} {bound : ℚ} (hne : 0 < rs.length)
    (h : meanTemperature value rs < bound) : ∃ r ∈ rs, value r.temperature < bound := by
  by_contra hall
  push Not at hall
  have hpos : (0 : ℚ) < rs.length := Nat.cast_pos.mpr hne
  have hle := List.card_nsmul_le_sum (rs.map fun r => value r.temperature) bound
    (by simpa using hall)
  rw [List.length_map, nsmul_eq_mul] at hle
  rw [meanTemperature, div_lt_iff₀ hpos] at h
  linarith

theorem exists_gt_of_lt_mean {rs : List SensorRecord} {bound : ℚ} (hne : 0 < rs.length)
    (h : bound < meanTemperature value rs) : ∃ r ∈ rs, bound < value r.temperature := by
  by_contra hall
  push Not at hall
  have hpos : (0 : ℚ) < rs.length := Nat.cast_pos.mpr hne
  have hle := List.sum_le_card_nsmul (rs.map fun r => value r.temperature) bound
    (by simpa using hall)
  rw [List.length_map, nsmul_eq_mul] at hle
  rw [meanTemperature, lt_div_iff₀ hpos] at h
  linarith

/-- What `data_manager` went through are records of the connections, in their order. -/
theorem handled_sublist {N : Nat} {sb : Sbuffer ℚ} {os : List Event} {s : State}
    (hstart : Consumers.Ledger N [] [] (Consumers.start sb))
    (h : Books value socketFd sb os s) :
    ((Consumers.processed (consumerEvents os)).map fun p => p.1.reading.data).Sublist
      ((records os).map fun p => reading value p.2) := by
  have hsub := (dealt_sublist hstart h .dataManager).map Prod.fst
  rw [pushes_eq hstart h, List.zipIdx_map_fst] at hsub
  have hfst : (Consumers.dealt .dataManager (consumerEvents os)).map Prod.fst =
      (Consumers.processed (consumerEvents os)).map fun p => p.1.reading.data := by
    show (Consumers.handled _).map Prod.fst = _
    rw [Consumers.handled, List.map_map]
    rfl
  rwa [hfst] at hsub

/-- A sensor that is accepted. -/
def accepts : List Act :=
  [.manager (.select [3]), .manager (.accept [0, 1, 2] 4 100), .manager (.track 100),
    .manager .next, .manager .next]

/-- A record is read from the sensor and taken by `data_manager`. -/
def readAndTake (r : SensorRecord) : List Act :=
  [.manager (.select [4]), .manager .noConnection,
    .manager (.read (some (recordBytes r)) (List.replicate 16 0) 0 100), .manager (.touch 100),
    .manager .next] ++ takes .dataManager

end EndToEnd
end Gateway
end LinuxEmbedded
