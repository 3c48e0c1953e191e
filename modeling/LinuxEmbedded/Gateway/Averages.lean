import LinuxEmbedded.Gateway.DataManager
import LinuxEmbedded.Lib.Session

/-
When the running averages are averages over a session.

The restart test compares the clock of the gateway with the timestamp that the
sensor put into its previous record.  The averages are those of the last session
of processing times exactly when, between any two consecutive readings of the
sensor, that test answers as the processing times do, and no session is longer than
the counter can tell.
-/
namespace LinuxEmbedded
namespace Gateway

/-- `r'` was processed at most `resetThresholdSeconds` after `r`. -/
def processedClose (r r' : Reading ℚ) : Prop := difftime r'.now r.now ≤ resetThresholdSeconds

instance (r r' : Reading ℚ) : Decidable (processedClose r r') :=
  inferInstanceAs (Decidable (_ ≤ _))

/-- `avg` holds the sum and the number of the readings of the last session. -/
def AveragesSession (rs : List (Reading ℚ)) (avg : SensorAvg ℚ) : Prop :=
  ∃ s, Session.IsLast processedClose rs s ∧
    avg.sum = temperatureSum s ∧ avg.count.toInt = s.length

/-- No more than 2³¹ - 1 readings come one after the other without a gap. -/
def CountableSessions (rs : List (Reading ℚ)) : Prop :=
  ∀ s, s <:+: rs → s.IsChain processedClose → s.length < 2 ^ 31

/-- The timestamp of `r` is on the side of the threshold its processing time is on. -/
def TimestampAgrees (r r' : Reading ℚ) : Prop :=
  difftime r'.now r.data.timestamp.toInt ≤ resetThresholdSeconds ↔ processedClose r r'

instance (r r' : Reading ℚ) : Decidable (TimestampAgrees r r') :=
  inferInstanceAs (Decidable (_ ↔ _))

namespace Cell

theorem avg_after_snoc (rs : List (Reading ℚ)) (r : Reading ℚ) :
    (after (rs ++ [r])).avg = updateAverage (after rs).avg r := by
  rw [after_snoc]
  rfl

/-- The test for a reading after `y` reads the timestamp of `y`. -/
theorem needsReset_after_snoc (rs : List (Reading ℚ)) (y r : Reading ℚ) :
    needsReset (after (rs ++ [y])).avg r.now = true ↔
      ¬difftime r.now y.data.timestamp.toInt ≤ resetThresholdSeconds := by
  rw [needsReset_iff, avg_after_snoc, updateAverage_lastUpdate]
  omega

/-- The first reading of a sensor is a session, whichever branch it takes. -/
theorem averagesSession_singleton (r : Reading ℚ) : AveragesSession [r] (after [r]).avg := by
  refine ⟨[r], Session.isLast_singleton r, ?_⟩
  have hafter : (after [r]).avg = updateAverage SensorAvg.start r := rfl
  rw [hafter]
  have hsum : temperatureSum [r] = r.data.temperature := by simp [temperatureSum]
  by_cases h : needsReset (SensorAvg.start : SensorAvg ℚ) r.now = true
  · rw [updateAverage_of_reset h]
    exact ⟨hsum.symm, rfl⟩
  · rw [updateAverage_of_not_reset h]
    refine ⟨?_, rfl⟩
    rw [hsum]
    exact zero_add r.data.temperature

/-- One more reading: the session law is kept exactly when the timestamp agrees and the new
session can be counted. -/
theorem averagesSession_snoc_iff {l : List (Reading ℚ)} {y r : Reading ℚ}
    (h : AveragesSession (l ++ [y]) (after (l ++ [y])).avg) :
    AveragesSession (l ++ [y] ++ [r]) (after (l ++ [y] ++ [r])).avg ↔
      TimestampAgrees y r ∧
        ∀ s, Session.IsLast processedClose (l ++ [y] ++ [r]) s → s.length < 2 ^ 31 := by
  obtain ⟨s, hs, hsum, hcount⟩ := h
  -- the session before `r` ends with `y`
  have hend : ∃ s', s = s' ++ [y] := by
    rcases Session.suffix_snoc hs.1 with hnil | ⟨s', hs', -⟩
    · exact absurd hnil (hs.ne_nil (by simp))
    · exact ⟨s', hs'⟩
  obtain ⟨s', rfl⟩ := hend
  have hlength : (s' ++ [y]).length = s'.length + 1 := List.length_append
  have hsucc := count_succ_toInt (after (l ++ [y])).avg.count
  rw [hcount, hlength] at hsucc
  rw [avg_after_snoc (l ++ [y]) r]
  have htest := needsReset_after_snoc l y r
  by_cases hclose : processedClose y r
  · have hnext := hs.extend hclose
    have hlength' : (s' ++ [y] ++ [r]).length = s'.length + 2 := by simp
    by_cases hreset : needsReset (after (l ++ [y])).avg r.now = true
    · rw [updateAverage_of_reset hreset]
      constructor
      · rintro ⟨s₂, hs₂, _, hcount₂⟩
        have hlen : ((1 : Int32).toInt : Int) = (s' ++ [y] ++ [r]).length := by
          rw [hnext.unique hs₂]
          exact hcount₂
        rw [hlength'] at hlen
        have hone : (1 : Int32).toInt = 1 := rfl
        omega
      · rintro ⟨hagree, _⟩
        exact absurd (hagree.mpr hclose) (htest.mp hreset)
    · rw [updateAverage_of_not_reset hreset]
      have hle : difftime r.now y.data.timestamp.toInt ≤ resetThresholdSeconds :=
        Decidable.not_not.mp fun hn => hreset (htest.mpr hn)
      constructor
      · rintro ⟨s₂, hs₂, _, hcount₂⟩
        obtain rfl := hnext.unique hs₂
        refine ⟨⟨fun _ => hclose, fun _ => hle⟩, ?_⟩
        intro s₃ hs₃
        rw [← hnext.unique hs₃, hlength']
        have hcount₂ : ((after (l ++ [y])).avg.count + 1).toInt = _ := hcount₂
        rw [hsucc, hlength'] at hcount₂
        split at hcount₂ <;> omega
      · rintro ⟨_, hbound⟩
        have hlt := hbound _ hnext
        rw [hlength'] at hlt
        refine ⟨_, hnext, ?_, ?_⟩
        · rw [temperatureSum_snoc, ← hsum]
          rfl
        · show ((after (l ++ [y])).avg.count + 1).toInt = _
          rw [hsucc, if_pos (by omega), hlength']
          omega
  · have hnext := Session.isLast_restart (l := l) hclose
    by_cases hreset : needsReset (after (l ++ [y])).avg r.now = true
    · rw [updateAverage_of_reset hreset]
      constructor
      · intro _
        refine ⟨⟨fun hle => absurd hle (htest.mp hreset), fun hc => absurd hc hclose⟩, ?_⟩
        intro s₃ hs₃
        rw [← hnext.unique hs₃]
        exact (by decide : 1 < 2 ^ 31)
      · intro _
        exact ⟨[r], hnext, by simp [temperatureSum], rfl⟩
    · rw [updateAverage_of_not_reset hreset]
      have hle : difftime r.now y.data.timestamp.toInt ≤ resetThresholdSeconds :=
        Decidable.not_not.mp fun hn => hreset (htest.mpr hn)
      constructor
      · rintro ⟨s₂, hs₂, _, hcount₂⟩
        have hlen : ((after (l ++ [y])).avg.count + 1).toInt = ([r].length : Nat) := by
          rw [hnext.unique hs₂]
          exact hcount₂
        rw [hsucc, List.length_singleton] at hlen
        split at hlen <;> omega
      · rintro ⟨hagree, _⟩
        exact absurd (hagree.mp hle) hclose

/-- The sessions of a list with one more element are those of the list and the last one. -/
theorem countableSessions_snoc {l : List (Reading ℚ)} {r : Reading ℚ} :
    CountableSessions (l ++ [r]) ↔ CountableSessions l ∧
      ∀ s, Session.IsLast processedClose (l ++ [r]) s → s.length < 2 ^ 31 := by
  constructor
  · intro h
    exact ⟨fun s hs hchain => h s (hs.trans (List.prefix_append l [r]).isInfix) hchain,
      fun s hs => h s hs.1.isInfix hs.2.1⟩
  · rintro ⟨hbefore, hlast⟩ s hs hchain
    rcases List.infix_concat_iff.mp hs with hs | hs
    · obtain ⟨s₂, hs₂⟩ : ∃ s₂, Session.IsLast processedClose (l ++ [r]) s₂ :=
        Session.exists_isLast (l ++ [r])
      exact Nat.lt_of_le_of_lt (hs₂.2.2 s hs hchain) (hlast s₂ hs₂)
    · exact hbefore s hs hchain

/-- The law after every reading of one sensor. -/
theorem averagesSession_prefixes_iff (l : List (Reading ℚ)) :
    (∀ p, p <+: l → AveragesSession p (after p).avg) ↔
      l.IsChain TimestampAgrees ∧ CountableSessions l := by
  have hnil : AveragesSession [] (after []).avg := ⟨[], Session.isLast_nil, rfl, rfl⟩
  induction l using List.reverseRecOn with
  | nil =>
    constructor
    · intro _
      refine ⟨List.IsChain.nil, fun s hs _ => ?_⟩
      rw [List.infix_nil.mp hs]
      exact (by decide : 0 < 2 ^ 31)
    · intro _ p hp
      rw [List.prefix_nil.mp hp]
      exact hnil
  | append_singleton l r ih =>
    rcases List.eq_nil_or_concat l with hl | ⟨l', y, hl⟩
    · subst hl
      constructor
      · intro _
        refine ⟨List.IsChain.singleton r, fun s hs _ => ?_⟩
        exact Nat.lt_of_le_of_lt hs.length_le (by decide : 1 < 2 ^ 31)
      · intro _ p hp
        rcases List.prefix_concat_iff.mp hp with hp | hp
        · rw [hp]
          exact averagesSession_singleton r
        · rw [List.prefix_nil.mp hp]
          exact hnil
    · rw [List.concat_eq_append] at hl
      subst hl
      have hchain : (l' ++ [y] ++ [r]).IsChain TimestampAgrees ↔
          (l' ++ [y]).IsChain TimestampAgrees ∧ TimestampAgrees y r := by
        rw [List.append_assoc, List.cons_append, List.nil_append,
          List.isChain_append_cons_cons]
        simp
      rw [hchain, countableSessions_snoc, and_and_and_comm]
      refine Iff.trans ?_ (and_congr_left' ih)
      constructor
      · intro h
        have hbefore : ∀ p, p <+: l' ++ [y] → AveragesSession p (after p).avg :=
          fun p hp => h p (hp.trans (List.prefix_append _ _))
        exact ⟨hbefore, (averagesSession_snoc_iff (hbefore _ (List.prefix_refl _))).mp
          (h _ (List.prefix_refl _))⟩
      · intro ⟨hbefore, hnext⟩ p hp
        rcases List.prefix_concat_iff.mp hp with hp | hp
        · rw [hp]
          exact (averagesSession_snoc_iff (hbefore _ (List.prefix_refl _))).mpr hnext
        · exact hbefore p hp

end Cell

/-- The readings of one sensor in the prefixes of a run. -/
theorem prefix_sensorReadings {id : Int} {p rs : List (Reading ℚ)} (h : p <+: rs) :
    sensorReadings id p <+: sensorReadings id rs := by
  obtain ⟨t, ht⟩ := h
  exact ⟨sensorReadings id t, by rw [← ht, sensorReadings, sensorReadings, sensorReadings,
    List.filter_append]⟩

theorem exists_prefix_sensorReadings {id : Int} {rs q : List (Reading ℚ)}
    (h : q <+: sensorReadings id rs) : ∃ p, p <+: rs ∧ sensorReadings id p = q := by
  obtain ⟨t, ht⟩ := h
  have hsplit : rs.filter (fun r => decide (r.id = id)) = q ++ t := ht.symm
  obtain ⟨p, p', hrs, hp, _⟩ := List.filter_eq_append_iff.mp hsplit
  exact ⟨p, ⟨p', hrs.symm⟩, hp⟩

/-- After every reading the average of a valid sensor is that of the last session
of its processing times, if and only if no timestamp moves a reading across the
threshold and every session can be counted. -/
theorem averages_restart_iff_timestamps_agree {id : Int} (hid : ValidId id)
    (rs : List (Reading ℚ)) :
    (∀ p, p <+: rs → ∃ m es avg, Machine.run dataManagerStep .start p = some (m, es) ∧
      m.sensorAverages[id.toNat]? = some avg ∧
      AveragesSession (sensorReadings id p) avg) ↔
    (sensorReadings id rs).IsChain TimestampAgrees ∧
      CountableSessions (sensorReadings id rs) := by
  rw [← Cell.averagesSession_prefixes_iff]
  constructor
  · intro h q hq
    obtain ⟨p, hp, hpq⟩ := exists_prefix_sensorReadings hq
    obtain ⟨m, es, avg, hrun, havg, hsession⟩ := h p hp
    have hcell := ((ran_of_run hrun).holds.cells id hid).1
    rw [havg, hpq] at hcell
    rw [hpq, Option.some.inj hcell] at hsession
    exact hsession
  · intro h p hp
    obtain ⟨m, es, hrun, hran⟩ := exists_run p
    exact ⟨m, es, _, hrun, (hran.holds.cells id hid).1, h _ (prefix_sensorReadings hp)⟩

/-- Two records of one sensor whose timestamps and processing times are in step. -/
theorem averages_restart_iff_timestamps_agree_in_step :
    let rs : List (Reading ℚ) := [⟨⟨1, 20, 10000⟩, 10000⟩, ⟨⟨1, 21, 13600⟩, 13600⟩]
    ∀ p, p <+: rs → ∃ m es avg, Machine.run dataManagerStep .start p = some (m, es) ∧
      m.sensorAverages[Int.toNat 1]? = some avg ∧
      AveragesSession (sensorReadings 1 p) avg :=
  (averages_restart_iff_timestamps_agree (show ValidId 1 by decide)
    [⟨⟨1, 20, 10000⟩, 10000⟩, ⟨⟨1, 21, 13600⟩, 13600⟩]).mpr
    ⟨List.IsChain.cons_cons (by decide) (List.IsChain.singleton _),
      fun _ hs _ => Nat.lt_of_le_of_lt hs.length_le (by decide)⟩

/-- A sensor whose clock starts at zero: the second reading is processed one second
after the first and still restarts the average. -/
theorem average_restarts_within_a_second :
    let rs : List (Reading ℚ) := [⟨⟨1, 20, 0⟩, 10000⟩, ⟨⟨1, 21, 1⟩, 10001⟩]
    rs.Pairwise (fun r r' => r.now ≤ r'.now) ∧ ValidId 1 ∧
      ¬∀ p, p <+: rs → ∃ m es avg, Machine.run dataManagerStep .start p = some (m, es) ∧
        m.sensorAverages[Int.toNat 1]? = some avg ∧
        AveragesSession (sensorReadings 1 p) avg := by
  intro rs
  refine ⟨by decide, by decide, ?_⟩
  intro h
  obtain ⟨m, es, avg, hrun, havg, s, hs, -, hcount⟩ := h rs (List.prefix_refl _)
  have hcell := ((ran_of_run hrun).holds.cells 1 (by decide)).1
  have hsession : Session.IsLast processedClose rs rs :=
    ⟨List.suffix_refl _, List.IsChain.cons_cons (by decide) (List.IsChain.singleton _),
      fun _ hs' _ => hs'.length_le⟩
  have htwo : avg.count.toInt = 2 := by
    rw [hcount, hs.unique hsession]
    rfl
  have hone : avg.count = 1 := by
    rw [havg] at hcell
    rw [Option.some.inj hcell]
    rfl
  rw [hone] at htwo
  exact absurd htwo (by decide)

end Gateway
end LinuxEmbedded
