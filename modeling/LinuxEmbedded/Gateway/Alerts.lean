import LinuxEmbedded.Gateway.DataManager
import Mathlib.Data.List.Chain
import Mathlib.Tactic.NormNum

/-
The alerts of a sensor: how far apart they are, what they report, and when an
average out of range raises none.

The law holds as long as the counter of a sensor does not overflow.
-/
namespace LinuxEmbedded
namespace Gateway

def alerts (es : List (Entry ℚ)) : List (Entry ℚ) := es.filter fun e => e.alert.isSome

/-- The mean of the temperatures of some entries. -/
def mean (es : List (Entry ℚ)) : ℚ := temperatureSum (es.map Entry.reading) / es.length

/-- How the entry `e` of a sensor relates to the entries `h` before it; `recent`
are the readings its average is over. -/
structure Judged (h : List (Entry ℚ)) (e : Entry ℚ) (recent : List (Entry ℚ)) : Prop where
  isRecent : recent <:+ h ++ [e]
  count : (recent.length : Int) = e.avg.count.toInt
  sinceReset : ∀ u q v, h ++ [e] = u ++ q :: v → q.reset = true → recent <:+ q :: v
  raised : ∀ a, e.alert = some a → minAvgCount.toInt ≤ recent.length ∧ a.average = mean recent ∧
    (a.kind = .tooCold → mean recent < tooCold) ∧ (a.kind = .tooHot → tooHot < mean recent)
  held : minAvgCount.toInt ≤ recent.length → mean recent < tooCold ∨ tooHot < mean recent →
    e.alert = none → ∃ p, (alerts h).getLast? = some p ∧
      e.reading.now - alertCooldown < p.reading.now

/-- The law of the alerts over the entries of one sensor. -/
structure AlertsFollow (es : List (Entry ℚ)) : Prop where
  apart : (alerts es).Pairwise fun e e' =>
    alertCooldown ≤ difftime e'.reading.now e.reading.now
  judged : ∀ h e t, es = h ++ e :: t → ∃ recent, Judged h e recent

/-- The reading `r'` does not restart the average that `r` left. -/
def KeepsAverage (r r' : Reading ℚ) : Prop :=
  difftime r'.now r.data.timestamp.toInt ≤ resetThresholdSeconds

instance (r r' : Reading ℚ) : Decidable (KeepsAverage r r') :=
  inferInstanceAs (Decidable (_ ≤ _))

/-- No more than 2³¹ - 1 readings come one after the other without a reset. -/
def CountableRuns (rs : List (Reading ℚ)) : Prop :=
  ∀ s, s <:+: rs → s.IsChain KeepsAverage → s.length < 2 ^ 31

theorem CountableRuns.of_prefix {rs rs' : List (Reading ℚ)} (h : CountableRuns rs)
    (hp : rs' <+: rs) : CountableRuns rs' :=
  fun s hs hchain => h s (hs.trans hp.isInfix) hchain

theorem newAverage_eq {avg : SensorAvg ℚ} (h : minAvgCount ≤ avg.count) :
    newAverage avg = avg.sum / avg.count.toInt := if_pos h

theorem belowCold_iff {t : ℚ} : Temperature.belowCold t = true ↔ t < tooCold :=
  decide_eq_true_iff

theorem aboveHot_iff {t : ℚ} : Temperature.aboveHot t = true ↔ tooHot < t :=
  decide_eq_true_iff

theorem checkAlert_some {avg : SensorAvg ℚ} {lastAlert now : Int} {a : Alert ℚ}
    (h : checkAlert avg lastAlert now = some a) :
    minAvgCount ≤ avg.count ∧ alertCooldown ≤ difftime now lastAlert ∧
      a.average = avg.sum / avg.count.toInt ∧
      (a.kind = .tooCold → avg.sum / avg.count.toInt < tooCold) ∧
      (a.kind = .tooHot → tooHot < avg.sum / avg.count.toInt) := by
  unfold checkAlert at h
  by_cases hcount : minAvgCount ≤ avg.count
  · rw [if_pos hcount, newAverage_eq hcount] at h
    by_cases hcool : alertCooldown ≤ difftime now lastAlert
    · rw [if_pos hcool] at h
      by_cases hcold : avg.sum / avg.count.toInt < tooCold
      · rw [if_pos (belowCold_iff.mpr hcold)] at h
        rw [← Option.some.inj h]
        exact ⟨hcount, hcool, rfl, fun _ => hcold, fun hk => (nomatch hk)⟩
      · rw [if_neg (mt belowCold_iff.mp hcold)] at h
        by_cases hhot : tooHot < avg.sum / avg.count.toInt
        · rw [if_pos (aboveHot_iff.mpr hhot)] at h
          rw [← Option.some.inj h]
          exact ⟨hcount, hcool, rfl, fun hk => (nomatch hk), fun _ => hhot⟩
        · rw [if_neg (mt aboveHot_iff.mp hhot)] at h
          cases h
    · rw [if_neg hcool] at h
      cases h
  · rw [if_neg hcount] at h
    cases h

/-- Only the cooldown holds back an alert. -/
theorem checkAlert_none {avg : SensorAvg ℚ} {lastAlert now : Int}
    (h : checkAlert avg lastAlert now = none) (hcount : minAvgCount ≤ avg.count)
    (hout : avg.sum / avg.count.toInt < tooCold ∨ tooHot < avg.sum / avg.count.toInt) :
    difftime now lastAlert < alertCooldown := by
  unfold checkAlert at h
  rw [if_pos hcount, newAverage_eq hcount] at h
  by_cases hcool : alertCooldown ≤ difftime now lastAlert
  · rw [if_pos hcool] at h
    by_cases hcold : avg.sum / avg.count.toInt < tooCold
    · rw [if_pos (belowCold_iff.mpr hcold)] at h
      cases h
    · have hhot : tooHot < avg.sum / avg.count.toInt := hout.resolve_left hcold
      rw [if_neg (mt belowCold_iff.mp hcold), if_pos (aboveHot_iff.mpr hhot)] at h
      cases h
  · omega

theorem checkAlert_of_hot {avg : SensorAvg ℚ} {lastAlert now : Int}
    (hcount : minAvgCount ≤ avg.count) (hcool : alertCooldown ≤ difftime now lastAlert)
    (hhot : tooHot < avg.sum / avg.count.toInt) :
    checkAlert avg lastAlert now = some ⟨.tooHot, avg.sum / avg.count.toInt⟩ := by
  have hcold : ¬avg.sum / avg.count.toInt < tooCold :=
    not_lt.mpr (le_of_lt (lt_trans (by decide) hhot))
  unfold checkAlert
  rw [if_pos hcount, if_pos hcool, newAverage_eq hcount, if_neg (mt belowCold_iff.mp hcold),
    if_pos (aboveHot_iff.mpr hhot)]

theorem alerts_snoc_of_some (es : List (Entry ℚ)) {e : Entry ℚ} (h : e.alert.isSome = true) :
    alerts (es ++ [e]) = alerts es ++ [e] := by
  simp [alerts, h]

theorem alerts_snoc_of_none (es : List (Entry ℚ)) {e : Entry ℚ} (h : ¬e.alert.isSome = true) :
    alerts (es ++ [e]) = alerts es := by
  simp [alerts, h]

theorem snoc_eq_append_cons {α : Type} {l u v : List α} {x q : α}
    (h : l ++ [x] = u ++ q :: v) :
    (v = [] ∧ q = x ∧ u = l) ∨ ∃ v', v = v' ++ [x] ∧ l = u ++ q :: v' := by
  rcases List.eq_nil_or_concat v with hv | ⟨v', y, hv⟩
  · subst hv
    obtain ⟨hl, hx⟩ := List.append_inj' h rfl
    exact Or.inl ⟨rfl, (List.singleton_inj.mp hx).symm, hl.symm⟩
  · rw [List.concat_eq_append] at hv
    subst hv
    rw [← List.cons_append, ← List.append_assoc] at h
    obtain ⟨hl, hx⟩ := List.append_inj' h rfl
    exact Or.inr ⟨v', by rw [List.singleton_inj.mp hx], hl⟩

/-- The law is kept by an entry that is far enough from every alert before it. -/
theorem AlertsFollow.snoc {es : List (Entry ℚ)} {e : Entry ℚ} (h : AlertsFollow es)
    (hapart : e.alert.isSome = true →
      ∀ p ∈ alerts es, alertCooldown ≤ difftime e.reading.now p.reading.now)
    (hjudged : ∃ recent, Judged es e recent) : AlertsFollow (es ++ [e]) := by
  constructor
  · by_cases ha : e.alert.isSome = true
    · rw [alerts_snoc_of_some es ha, List.pairwise_append]
      refine ⟨h.apart, List.pairwise_singleton _ _, ?_⟩
      intro p hp q hq
      rw [List.mem_singleton.mp hq]
      exact hapart ha p hp
    · rw [alerts_snoc_of_none es ha]
      exact h.apart
  · intro u q v huv
    rcases snoc_eq_append_cons huv with ⟨_, hq, hu⟩ | ⟨v', _, hes⟩
    · rw [hq, hu]
      exact hjudged
    · exact h.judged u q v' hes

/-- A sensor that never accumulates raises no alert. -/
theorem alertsFollow_of_idle {es : List (Entry ℚ)}
    (h : ∀ e ∈ es, e.reset = false ∧ e.avg = .start ∧ e.alert = none) :
    AlertsFollow es := by
  constructor
  · have hnone : alerts es = [] := by
      rw [alerts, List.filter_eq_nil_iff]
      intro e he
      rw [(h e he).2.2]
      exact Bool.false_ne_true
    rw [hnone]
    exact List.Pairwise.nil
  · intro u e t hes
    have he := h e (hes ▸ List.mem_append_right u (List.mem_cons_self ..))
    refine ⟨[], List.nil_suffix, by rw [he.2.1]; rfl, fun _ _ _ _ _ => List.nil_suffix, ?_, ?_⟩
    · intro a ha
      rw [he.2.2] at ha
      cases ha
    · intro hcount
      exact absurd hcount (by decide)

/-- The processing time of the last alert, zero before the first. -/
def lastAlertOf (es : List (Entry ℚ)) : Int :=
  ((alerts es).getLast?.map fun e => e.reading.now).getD 0

/-- The readings behind an average: the last ones of the sensor, counted as an `int`
counts. -/
structure Behind (avg : SensorAvg ℚ) (es recent : List (Entry ℚ)) : Prop where
  isRecent : recent <:+ es
  count : avg.count = Int32.ofNat recent.length
  sum : temperatureSum (recent.map Entry.reading) = avg.sum
  kept : (recent.map Entry.reading).IsChain KeepsAverage
  last : ∀ e ∈ es.getLast?, avg.lastUpdate = e.reading.data.timestamp.toInt
  sinceReset : ∀ u q v, es = u ++ q :: v → q.reset = true → recent <:+ q :: v

/-- What the array entries of a sensor say about its entries so far. -/
structure Follows (c : Cell ℚ) (es : List (Entry ℚ)) : Prop where
  alertsFollow : AlertsFollow es
  lastAlert : c.lastAlert = lastAlertOf es
  recent : ∃ recent, Behind c.avg es recent

theorem lastAlertOf_snoc_of_some (es : List (Entry ℚ)) {e : Entry ℚ} (h : e.alert.isSome = true) :
    lastAlertOf (es ++ [e]) = e.reading.now := by
  rw [lastAlertOf, alerts_snoc_of_some es h, List.getLast?_concat]
  rfl

theorem lastAlertOf_snoc_of_none (es : List (Entry ℚ)) {e : Entry ℚ} (h : ¬e.alert.isSome = true) :
    lastAlertOf (es ++ [e]) = lastAlertOf es := by
  rw [lastAlertOf, alerts_snoc_of_none es h]
  rfl

/-- Alerts that are apart are in order of their processing times. -/
theorem AlertsFollow.le_lastAlertOf {es : List (Entry ℚ)} (h : AlertsFollow es) {p : Entry ℚ}
    (hp : p ∈ alerts es) : p.reading.now ≤ lastAlertOf es := by
  have hne : alerts es ≠ [] := List.ne_nil_of_mem hp
  have hsplit := List.dropLast_concat_getLast hne
  have hlast : lastAlertOf es = ((alerts es).getLast hne).reading.now := by
    rw [lastAlertOf, List.getLast?_eq_some_getLast hne]
    rfl
  have hpair := h.apart
  rw [← hsplit, List.pairwise_append] at hpair
  rw [← hsplit] at hp
  rcases List.mem_append.mp hp with hp | hp
  · have hle := hpair.2.2 p hp _ (List.mem_singleton_self _)
    unfold difftime alertCooldown at hle
    omega
  · rw [List.mem_singleton.mp hp, hlast]

theorem Behind.start : Behind .start [] [] where
  isRecent := List.nil_suffix
  count := rfl
  sum := rfl
  kept := List.IsChain.nil
  last := fun _ he => nomatch he
  sinceReset := fun _ _ _ huv => absurd huv (by simp)

/-- The readings behind the average after one more reading. -/
theorem Behind.step {c : Cell ℚ} {es recent : List (Entry ℚ)} (h : Behind c.avg es recent)
    (r : Reading ℚ) : ∃ recent', Behind (c.update r).avg (es ++ [c.entry r]) recent' := by
  have havg : (c.update r).avg = updateAverage c.avg r := rfl
  have hlast : ∀ e ∈ (es ++ [c.entry r]).getLast?,
      (c.update r).avg.lastUpdate = e.reading.data.timestamp.toInt := by
    intro e he
    rw [List.getLast?_concat] at he
    rw [havg, updateAverage_lastUpdate, ← Option.some.inj he]
    rfl
  by_cases hr : needsReset c.avg r.now = true
  · -- the average restarts at this reading
    refine ⟨[c.entry r], List.suffix_append _ _, ?_, ?_, List.IsChain.singleton _, hlast, ?_⟩
    · rw [havg, updateAverage_of_reset hr]
      rfl
    · rw [havg, updateAverage_of_reset hr]
      show r.data.temperature + 0 = _
      rw [add_zero]
    · intro u q v huv _
      rcases snoc_eq_append_cons huv with ⟨hv, hq, _⟩ | ⟨v', hv, _⟩
      · have heq : q :: v = [c.entry r] := by rw [hv, hq]
        exact heq ▸ List.suffix_refl _
      · rw [hv]
        exact ⟨q :: v', rfl⟩
  · refine ⟨recent ++ [c.entry r], ?_, ?_, ?_, ?_, hlast, ?_⟩
    · obtain ⟨front, hfront⟩ := h.isRecent
      exact ⟨front, by rw [← List.append_assoc, hfront]⟩
    · rw [havg, updateAverage_of_not_reset hr, List.length_append, List.length_singleton,
        Int32.ofNat_add, ← h.count]
      rfl
    · rw [havg, updateAverage_of_not_reset hr, List.map_append, List.map_singleton,
        temperatureSum_snoc, h.sum]
      rfl
    · -- the reading before is the one whose timestamp the test read
      rw [List.map_append, List.isChain_append]
      refine ⟨h.kept, List.IsChain.singleton _, ?_⟩
      intro x hx y hy
      obtain rfl : r = y := Option.some.inj hy
      rw [List.getLast?_map] at hx
      obtain ⟨e, he, rfl⟩ := Option.map_eq_some_iff.mp hx
      have hmem : e ∈ es.getLast? := by
        obtain ⟨front, hfront⟩ := h.isRecent
        rw [← hfront, List.getLast?_append, he]
        rfl
      have hupdate := h.last e hmem
      rw [needsReset_iff, hupdate] at hr
      exact Int.not_lt.mp hr
    · intro u q v huv hq
      rcases snoc_eq_append_cons huv with ⟨_, hqe, _⟩ | ⟨v', hv, hes⟩
      · -- the entry itself is no reset
        rw [hqe] at hq
        exact absurd hq hr
      · obtain ⟨front, hfront⟩ := h.sinceReset u q v' hes hq
        exact ⟨front, by rw [hv, ← List.append_assoc, hfront]; rfl⟩

/-- As long as the readings can be counted, the counter is their number. -/
theorem Behind.count_toInt {avg : SensorAvg ℚ} {es recent : List (Entry ℚ)}
    (h : Behind avg es recent) (hruns : CountableRuns (es.map Entry.reading)) :
    (recent.length : Int) = avg.count.toInt := by
  have hlt := hruns _ (h.isRecent.map Entry.reading).isInfix h.kept
  rw [List.length_map] at hlt
  rw [h.count, Int32.toInt_ofNat_of_lt hlt]

/-- The verdict on the next reading of a sensor. -/
theorem Follows.judged_step {c : Cell ℚ} {es : List (Entry ℚ)} (h : Follows c es)
    {r : Reading ℚ} (hclock : alertCooldown ≤ r.now)
    (hruns : CountableRuns (es.map Entry.reading ++ [r])) :
    ∃ recent, Judged es (c.entry r) recent := by
  obtain ⟨recent, hrecent⟩ := h.recent
  obtain ⟨recent, hbehind⟩ := hrecent.step r
  have hreadings : (es ++ [c.entry r]).map Entry.reading = es.map Entry.reading ++ [r] := by
    rw [List.map_append]
    rfl
  have hcount := hbehind.count_toInt (hreadings ▸ hruns)
  have hcount' : (recent.length : Int) = (updateAverage c.avg r).count.toInt := hcount
  have hmean : mean recent =
      (updateAverage c.avg r).sum / (updateAverage c.avg r).count.toInt := by
    rw [mean, hbehind.sum, ← hcount']
    rfl
  refine ⟨recent, hbehind.isRecent, hcount, hbehind.sinceReset, ?_, ?_⟩
  · intro a ha
    have ha' : checkAlert (updateAverage c.avg r) c.lastAlert r.now = some a := ha
    obtain ⟨hmin, _, haverage, hcold, hhot⟩ := checkAlert_some ha'
    rw [hmean, hcount']
    exact ⟨Int32.le_iff_toInt_le.mp hmin, haverage, hcold, hhot⟩
  · intro hmin hout hnone
    rw [hcount'] at hmin
    rw [hmean] at hout
    have hheld := checkAlert_none hnone (Int32.le_iff_toInt_le.mpr hmin) hout
    rw [h.lastAlert, lastAlertOf] at hheld
    cases hlast : (alerts es).getLast? with
    | none =>
      -- no alert yet: the clock alone is past the cooldown
      rw [hlast] at hheld
      have hzero : r.now - 0 < alertCooldown := hheld
      omega
    | some p =>
      rw [hlast] at hheld
      have hp : r.now - p.reading.now < alertCooldown := hheld
      refine ⟨p, rfl, ?_⟩
      show r.now - alertCooldown < p.reading.now
      omega

/-- One reading keeps the law of the alerts of its sensor. -/
theorem Follows.step {c : Cell ℚ} {es : List (Entry ℚ)} (h : Follows c es) {r : Reading ℚ}
    (hclock : alertCooldown ≤ r.now) (hruns : CountableRuns (es.map Entry.reading ++ [r])) :
    Follows (c.update r) (es ++ [c.entry r]) := by
  have hentry : (c.entry r).alert = c.alert r := rfl
  obtain ⟨recent, hrecent⟩ := h.recent
  refine ⟨h.alertsFollow.snoc ?_ (h.judged_step hclock hruns), ?_, hrecent.step r⟩
  · intro hsome p hp
    obtain ⟨a, ha⟩ := Option.isSome_iff_exists.mp hsome
    have hcool := (checkAlert_some ha).2.1
    have hle := h.alertsFollow.le_lastAlertOf hp
    rw [h.lastAlert] at hcool
    show alertCooldown ≤ difftime r.now p.reading.now
    unfold difftime at hcool ⊢
    omega
  · by_cases hsome : (c.alert r).isSome = true
    · rw [lastAlertOf_snoc_of_some es (hentry ▸ hsome)]
      exact if_pos hsome
    · rw [lastAlertOf_snoc_of_none es (hentry ▸ hsome), ← h.lastAlert]
      exact if_neg hsome

theorem Follows.start : Follows .start [] :=
  ⟨alertsFollow_of_idle fun _ he => absurd he List.not_mem_nil, rfl, [], Behind.start⟩

theorem Cell.entries_reading (c : Cell ℚ) (rs : List (Reading ℚ)) :
    (Cell.entries c rs).map Entry.reading = rs := by
  induction rs generalizing c with
  | nil => rfl
  | cons r rs ih =>
    show r :: (Cell.entries (c.update r) rs).map Entry.reading = r :: rs
    rw [ih]

theorem Cell.follows (rs : List (Reading ℚ)) (hclock : ∀ r ∈ rs, alertCooldown ≤ r.now)
    (hruns : CountableRuns rs) : Follows (Cell.after rs) (Cell.entries Cell.start rs) := by
  induction rs using List.reverseRecOn with
  | nil => exact Follows.start
  | append_singleton rs r ih =>
    have hbefore := ih (fun r' hr' => hclock r' (List.mem_append_left _ hr'))
      (hruns.of_prefix (List.prefix_append rs [r]))
    rw [Cell.after_snoc, Cell.entries_snoc]
    refine hbefore.step (hclock r (List.mem_append_right _ (List.mem_singleton_self r))) ?_
    rw [Cell.entries_reading]
    exact hruns

/-! ## Past the last `int` -/

/-- What the array entries of a sensor hold after `n` equal readings that restart nothing. -/
structure Steady (r : Reading ℚ) (n : Nat) (c : Cell ℚ) : Prop where
  sum : c.avg.sum = n * r.data.temperature
  count : c.avg.count = Int32.ofNat n
  lastUpdate : 0 ≤ c.avg.lastUpdate
  lastAlert : c.lastAlert ≤ r.now

theorem Steady.step {r : Reading ℚ} {n : Nat} {c : Cell ℚ} (h : Steady r n c) (r' : Reading ℚ)
    (htemperature : r'.data.temperature = r.data.temperature)
    (hearly : r'.now ≤ resetThresholdSeconds) :
    (c.update r').avg.sum = ((n + 1 : Nat) : ℚ) * r.data.temperature ∧
      (c.update r').avg.count = Int32.ofNat (n + 1) := by
  have hkept : ¬needsReset c.avg r'.now = true := by
    have hle := h.lastUpdate
    rw [needsReset_iff, difftime]
    omega
  have havg : (c.update r').avg = updateAverage c.avg r' := rfl
  rw [havg, updateAverage_of_not_reset hkept]
  constructor
  · show c.avg.sum + r'.data.temperature = _
    rw [h.sum, htemperature, Nat.cast_succ, add_mul, one_mul]
  · show c.avg.count + 1 = _
    rw [h.count, Int32.ofNat_add]
    rfl

theorem Cell.steady {r : Reading ℚ} (hearly : r.now ≤ resetThresholdSeconds)
    (hstamp : 0 ≤ r.data.timestamp.toInt) (hnow : 0 ≤ r.now) (n : Nat) :
    Steady r n (Cell.after (List.replicate n r)) := by
  induction n with
  | zero => exact ⟨(zero_mul _).symm, rfl, Int.le_refl 0, hnow⟩
  | succ n ih =>
    rw [List.replicate_succ', Cell.after_snoc]
    obtain ⟨hsum, hcount⟩ := ih.step r rfl hearly
    refine ⟨hsum, hcount, ?_, ?_⟩
    · show 0 ≤ (updateAverage _ r).lastUpdate
      rw [updateAverage_lastUpdate]
      exact hstamp
    · show (if ((Cell.after (List.replicate n r)).alert r).isSome then r.now else _) ≤ r.now
      split
      · exact Int.le_refl _
      · exact ih.lastAlert

/-- The alert of a counter that has come round to five. -/
theorem Steady.alert_of_overflow {r : Reading ℚ} {n : Nat} {c : Cell ℚ} (h : Steady r n c)
    (r' : Reading ℚ) (htemperature : r'.data.temperature = r.data.temperature)
    (hearly : r'.now ≤ resetThresholdSeconds) (hlate : alertCooldown ≤ difftime r'.now r.now)
    (hfive : Int32.ofNat (n + 1) = 5)
    (hhot : tooHot < ((n + 1 : Nat) : ℚ) * r.data.temperature / 5) :
    (c.entry r').avg.count = 5 ∧ (c.entry r').alert =
      some ⟨.tooHot, ((n + 1 : Nat) : ℚ) * r.data.temperature / 5⟩ := by
  obtain ⟨hsum, hcount⟩ := h.step r' htemperature hearly
  rw [hfive] at hcount
  have haverage : (c.update r').avg.sum / (c.update r').avg.count.toInt =
      ((n + 1 : Nat) : ℚ) * r.data.temperature / 5 := by
    rw [hsum, hcount]
    rfl
  have hcool : alertCooldown ≤ difftime r'.now c.lastAlert := by
    have hle := h.lastAlert
    unfold difftime at hlate ⊢
    omega
  refine ⟨hcount, ?_⟩
  rw [← haverage] at hhot ⊢
  refine checkAlert_of_hot ?_ hcool hhot
  show minAvgCount ≤ (c.update r').avg.count
  rw [hcount]
  decide

/-- Entries of one temperature have it as their mean. -/
theorem mean_of_const {es : List (Entry ℚ)} {t : ℚ} (hne : es ≠ [])
    (h : ∀ e ∈ es, e.reading.data.temperature = t) : mean es = t := by
  have hsum : temperatureSum (es.map Entry.reading) = es.length * t := by
    clear hne
    induction es with
    | nil => exact (zero_mul t).symm
    | cons e es ih =>
      have hrest := ih fun e' he' => h e' (List.mem_cons_of_mem _ he')
      have hhead := h e (List.mem_cons_self ..)
      show e.reading.data.temperature + temperatureSum (es.map Entry.reading) = _
      rw [hrest, hhead, List.length_cons, Nat.cast_succ, add_mul, one_mul, add_comm]
  have hlength : (es.length : ℚ) ≠ 0 :=
    Nat.cast_ne_zero.mpr fun hz => hne (List.eq_nil_of_length_eq_zero hz)
  rw [mean, hsum, mul_div_cancel_left₀ t hlength]

/-! ## Every run -/

/-- Over every run whose clock is past the first cooldown, the alerts of every sensor follow
its averages and the cooldown, as long as its readings between two resets can be counted. -/
theorem alerts_follow_averages (rs : List (Reading ℚ))
    (hclock : ∀ r ∈ rs, alertCooldown ≤ r.now)
    (hruns : ∀ id, CountableRuns (sensorReadings id rs)) :
    ∃ m es, Machine.run dataManagerStep .start rs = some (m, es) ∧
      es.map Entry.reading = rs ∧ ∀ id, AlertsFollow (sensorEntries id es) := by
  obtain ⟨m, es, hrun, hran⟩ := exists_run rs
  refine ⟨m, es, hrun, hran.readings, ?_⟩
  intro id
  by_cases hid : ValidId id
  · rw [hran.valid id hid]
    have hsensor : ∀ r ∈ sensorReadings id rs, alertCooldown ≤ r.now :=
      fun r hr => hclock r (List.mem_filter.mp hr).1
    exact (Cell.follows _ hsensor (hruns id)).alertsFollow
  · apply alertsFollow_of_idle
    intro e he
    obtain ⟨hmem, heq⟩ := List.mem_filter.mp he
    have hne : ¬ValidId e.reading.id := fun hv => hid (of_decide_eq_true heq ▸ hv)
    exact hran.invalid e hmem hne

/-- A sensor in the cold, read every twenty seconds. -/
theorem alerts_follow_averages_cold :
    let rs : List (Reading ℚ) := [⟨⟨7, 10, 0⟩, 1000⟩, ⟨⟨7, 10, 0⟩, 1020⟩, ⟨⟨7, 10, 0⟩, 1040⟩,
      ⟨⟨7, 10, 0⟩, 1060⟩, ⟨⟨7, 10, 0⟩, 1080⟩, ⟨⟨7, 10, 0⟩, 1100⟩, ⟨⟨7, 10, 0⟩, 1140⟩]
    ∃ m es, Machine.run dataManagerStep .start rs = some (m, es) ∧
      es.map Entry.reading = rs ∧ ∀ id, AlertsFollow (sensorEntries id es) := by
  refine alerts_follow_averages _ (by decide) ?_
  intro id s hs _
  exact Nat.lt_of_le_of_lt (hs.length_le.trans (List.length_filter_le ..)) (by decide)

/-- A sensor read 2³² + 4 times within one second, and once more after a minute. -/
theorem alerts_after_overflow :
    let rs : List (Reading ℚ) :=
      List.replicate (2 ^ 32 + 4) ⟨⟨7, 50, 1000⟩, 1000⟩ ++ [⟨⟨7, 50, 1000⟩, 1060⟩]
    (∀ r ∈ rs, alertCooldown ≤ r.now) ∧
      ∃ m es h e a, Machine.run dataManagerStep .start rs = some (m, es) ∧
        sensorEntries 7 es = h ++ [e] ∧ e.alert = some a ∧ e.avg.count = 5 ∧
        (∀ recent, recent <:+ h ++ [e] → recent.length = 5 → a.average ≠ mean recent) ∧
        ¬AlertsFollow (sensorEntries 7 es) := by
  intro rs
  refine ⟨?_, ?_⟩
  · intro r hr
    rcases List.mem_append.mp hr with hr | hr
    · rw [List.eq_of_mem_replicate hr]
      decide
    · rw [List.mem_singleton.mp hr]
      decide
  have hall : ∀ r ∈ rs, r.id = 7 ∧ r.data.temperature = 50 := by
    intro r hr
    rcases List.mem_append.mp hr with hr | hr
    · rw [List.eq_of_mem_replicate hr]
      exact ⟨rfl, rfl⟩
    · rw [List.mem_singleton.mp hr]
      exact ⟨rfl, rfl⟩
  obtain ⟨m, es, hrun, hran⟩ := exists_run rs
  have hsame : sensorReadings 7 rs = rs :=
    List.filter_eq_self.mpr fun r hr => decide_eq_true (hall r hr).1
  have hentries := hran.valid 7 (by decide)
  rw [hsame] at hentries
  obtain ⟨c, hc, hsteady⟩ : ∃ c, Cell.entries .start rs =
      Cell.entries .start (List.replicate (2 ^ 32 + 4) ⟨⟨7, 50, 1000⟩, 1000⟩) ++
        [Cell.entry c ⟨⟨7, 50, 1000⟩, 1060⟩] ∧
      Steady ⟨⟨7, 50, 1000⟩, 1000⟩ (2 ^ 32 + 4) c :=
    ⟨_, Cell.entries_snoc _ _, Cell.steady (by decide) (by decide) (by decide) _⟩
  rw [hc] at hentries
  obtain ⟨hfive, halert⟩ := hsteady.alert_of_overflow ⟨⟨7, 50, 1000⟩, 1060⟩ rfl
    (by decide) (by decide) (by decide) (by norm_num [tooHot])
  have hmean : ∀ recent, recent <:+ Cell.entries Cell.start rs → recent.length = 5 →
      ((2 ^ 32 + 4 + 1 : Nat) : ℚ) * 50 / 5 ≠ mean recent := by
    intro recent hrecent hlength
    rw [mean_of_const (t := 50)]
    · norm_num
    · intro hnil
      rw [hnil] at hlength
      cases hlength
    · intro e he
      have hread := List.mem_map_of_mem (f := Entry.reading) (hrecent.subset he)
      rw [Cell.entries_reading] at hread
      exact (hall _ hread).2
  rw [hc] at hmean
  refine ⟨m, es, _, _, _, hrun, hentries, halert, hfive, hmean, ?_⟩
  intro hfollow
  obtain ⟨recent, hjudged⟩ := hfollow.judged _ _ [] hentries
  have hlength : (recent.length : Int) = 5 := hjudged.count.trans (congrArg Int32.toInt hfive)
  exact hmean recent hjudged.isRecent (by omega) (hjudged.raised _ halert).2.1

/-- The fifth reading and the first one a minute later raise an alert. -/
example :
    (Machine.run dataManagerStep .start
      [⟨⟨7, 10, 0⟩, 1000⟩, ⟨⟨7, 10, 0⟩, 1020⟩, ⟨⟨7, 10, 0⟩, 1040⟩, ⟨⟨7, 10, 0⟩, 1060⟩,
        ⟨⟨7, 10, 0⟩, 1080⟩, ⟨⟨7, 10, 0⟩, 1100⟩, ⟨⟨7, 10, 0⟩, 1140⟩]).map
      (fun q => (alerts q.2).map fun e => e.reading.now) = some [1080, 1140] := by
  decide +kernel

end Gateway
end LinuxEmbedded
