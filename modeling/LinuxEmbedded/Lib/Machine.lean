import Mathlib.Data.List.Induction

/-
Labelled machines with outputs.

A machine is a partial step from a state and a label to a next state and the
outputs of that step.  All nondeterminism sits in the label: which thread moves,
what the kernel answers, what the clock reads.  A label the state does not
enable steps to `none`, so a schedule is a list of labels and a run is the fold
of the step along it.
-/
namespace LinuxEmbedded
namespace Machine

variable {S A O : Type}

/-- Run a schedule, collecting the outputs in order. -/
def run (step : S → A → Option (S × List O)) (s : S) : List A → Option (S × List O)
  | [] => some (s, [])
  | a :: as =>
    (step s a).bind fun r => (run step r.1 as).map fun q => (q.1, r.2 ++ q.2)

variable {step : S → A → Option (S × List O)}

@[simp] theorem run_nil (s : S) : run step s [] = some (s, []) := rfl

theorem run_cons_eq_some {s t : S} {a : A} {as : List A} {os : List O} :
    run step s (a :: as) = some (t, os) ↔
      ∃ u os₁ os₂, step s a = some (u, os₁) ∧ run step u as = some (t, os₂) ∧
        os = os₁ ++ os₂ := by
  constructor
  · intro h
    obtain ⟨⟨u, os₁⟩, hu, h⟩ := Option.bind_eq_some_iff.mp h
    obtain ⟨⟨v, os₂⟩, hv, h⟩ := Option.map_eq_some_iff.mp h
    obtain ⟨rfl, rfl⟩ := Prod.mk.inj h
    exact ⟨u, os₁, os₂, hu, hv, rfl⟩
  · rintro ⟨u, os₁, os₂, hu, hv, rfl⟩
    simp [run, hu, hv]

theorem run_single {s t : S} {a : A} {os : List O} (h : step s a = some (t, os)) :
    run step s [a] = some (t, os) :=
  run_cons_eq_some.mpr ⟨t, os, [], h, rfl, (List.append_nil os).symm⟩

theorem run_append_eq_some {s t : S} {as bs : List A} {os : List O} :
    run step s (as ++ bs) = some (t, os) ↔
      ∃ u os₁ os₂, run step s as = some (u, os₁) ∧ run step u bs = some (t, os₂) ∧
        os = os₁ ++ os₂ := by
  induction as generalizing s os with
  | nil => simp
  | cons a as ih =>
    rw [List.cons_append, run_cons_eq_some]
    constructor
    · rintro ⟨u, os₁, os₂, hu, h, rfl⟩
      obtain ⟨v, os₃, os₄, hv, hw, rfl⟩ := ih.mp h
      exact ⟨v, os₁ ++ os₃, os₄, run_cons_eq_some.mpr ⟨u, os₁, os₃, hu, hv, rfl⟩, hw,
        (List.append_assoc ..).symm⟩
    · rintro ⟨v, os₁, os₂, h, hw, rfl⟩
      obtain ⟨u, os₃, os₄, hu, hv, rfl⟩ := run_cons_eq_some.mp h
      exact ⟨u, os₃, os₄ ++ os₂, hu, ih.mpr ⟨v, os₄, os₂, hv, hw, rfl⟩,
        List.append_assoc ..⟩

/-- The last step of a nonempty run. -/
theorem run_snoc_eq_some {s t : S} {as : List A} {a : A} {os : List O} :
    run step s (as ++ [a]) = some (t, os) ↔
      ∃ u os₁ os₂, run step s as = some (u, os₁) ∧ step u a = some (t, os₂) ∧
        os = os₁ ++ os₂ := by
  rw [run_append_eq_some]
  constructor
  · rintro ⟨u, os₁, os₂, hu, h, rfl⟩
    obtain ⟨v, os₃, os₄, hv, hw, rfl⟩ := run_cons_eq_some.mp h
    obtain ⟨rfl, rfl⟩ := Prod.mk.inj (Option.some.inj hw)
    exact ⟨u, os₁, os₃, hu, hv, by simp⟩
  · rintro ⟨u, os₁, os₂, hu, h, rfl⟩
    exact ⟨u, os₁, os₂, hu, run_cons_eq_some.mpr ⟨t, os₂, [], h, rfl, by simp⟩, rfl⟩

/-- A property of schedules, outputs and states that the empty run has and one
more step keeps holds of every run. -/
theorem run_induction {P : List A → List O → S → Prop} {s : S} (start : P [] [] s)
    (next : ∀ as os u a t os', run step s as = some (u, os) → P as os u →
      step u a = some (t, os') → P (as ++ [a]) (os ++ os') t) :
    ∀ {as : List A} {t : S} {os : List O}, run step s as = some (t, os) → P as os t := by
  intro as
  induction as using List.reverseRecOn with
  | nil =>
    intro t os h
    obtain ⟨rfl, rfl⟩ := Prod.mk.inj (Option.some.inj h)
    exact start
  | append_singleton as a ih =>
    intro t os h
    obtain ⟨u, os₁, os₂, hu, ha, rfl⟩ := run_snoc_eq_some.mp h
    exact next as os₁ u a t os₂ hu (ih hu) ha

/-- An invariant of the step is an invariant of the run. -/
theorem run_invariant {I : S → Prop} (keep : ∀ u a t os, I u → step u a = some (t, os) → I t)
    {s t : S} {as : List A} {os : List O} (start : I s)
    (h : run step s as = some (t, os)) : I t :=
  run_induction (P := fun _ _ u => I u) start
    (fun _ _ u a t os' _ hu ha => keep u a t os' hu ha) h

/-- `t` is reached from `s` by some schedule. -/
def Reachable (step : S → A → Option (S × List O)) (s t : S) : Prop :=
  ∃ as os, run step s as = some (t, os)

theorem Reachable.refl (s : S) : Reachable step s s := ⟨[], [], rfl⟩

/-- One step more. -/
theorem Reachable.tail {s t u : S} {a : A} {os : List O} (h : Reachable step s t)
    (hstep : step t a = some (u, os)) : Reachable step s u := by
  obtain ⟨as, os', h⟩ := h
  exact ⟨as ++ [a], os' ++ os, run_snoc_eq_some.mpr ⟨t, os', os, h, hstep, rfl⟩⟩

/-- `t` is reached from `s` with these outputs. -/
def Reaches (step : S → A → Option (S × List O)) (s t : S) (os : List O) : Prop :=
  ∃ as, run step s as = some (t, os)

theorem Reaches.refl (s : S) : Reaches step s s [] := ⟨[], rfl⟩

theorem Reaches.single {s t : S} {a : A} {os : List O} (h : step s a = some (t, os)) :
    Reaches step s t os := ⟨[a], run_single h⟩

theorem Reaches.trans {s t u : S} {os os' : List O} (h : Reaches step s t os)
    (h' : Reaches step t u os') : Reaches step s u (os ++ os') := by
  obtain ⟨as, h⟩ := h
  obtain ⟨bs, h'⟩ := h'
  exact ⟨as ++ bs, run_append_eq_some.mpr ⟨t, os, os', h, h', rfl⟩⟩

/-- One step before. -/
theorem Reaches.head {s t u : S} {a : A} {os os' : List O} (h : step s a = some (t, os))
    (h' : Reaches step t u os') : Reaches step s u (os ++ os') :=
  (Reaches.single h).trans h'

theorem Reachable.invariant {I : S → Prop}
    (keep : ∀ u a t os, I u → step u a = some (t, os) → I t) {s t : S} (start : I s)
    (h : Reachable step s t) : I t := by
  obtain ⟨as, os, h⟩ := h
  exact run_invariant keep start h

/-! ## Runs that meet a condition -/

/-- Every step of the schedule is taken in a state that meets `C` for it. -/
def Meets (step : S → A → Option (S × List O)) (C : S → A → Prop) (s : S) : List A → Prop
  | [] => True
  | a :: as => C s a ∧ ∀ t os, step s a = some (t, os) → Meets step C t as

variable {C : S → A → Prop}

theorem meets_append_iff {s u : S} {as bs : List A} {os : List O}
    (h : run step s as = some (u, os)) :
    Meets step C s (as ++ bs) ↔ Meets step C s as ∧ Meets step C u bs := by
  induction as generalizing s os with
  | nil =>
    obtain ⟨rfl, _⟩ := Prod.mk.inj (Option.some.inj h)
    show Meets step C s bs ↔ True ∧ Meets step C s bs
    rw [true_and]
  | cons a as ih =>
    obtain ⟨v, os₁, os₂, hv, hu, _⟩ := run_cons_eq_some.mp h
    -- the step is a function, so the continuation is the one of the run
    have hnext : ∀ cs, (∀ t os, step s a = some (t, os) → Meets step C t cs) ↔
        Meets step C v cs := by
      intro cs
      constructor
      · intro hall
        exact hall v os₁ hv
      · intro hcs t os ht
        rw [hv] at ht
        obtain ⟨rfl, _⟩ := Prod.mk.inj (Option.some.inj ht)
        exact hcs
    show (C s a ∧ ∀ t os, step s a = some (t, os) → Meets step C t (as ++ bs)) ↔
      (C s a ∧ ∀ t os, step s a = some (t, os) → Meets step C t as) ∧ Meets step C u bs
    rw [hnext, hnext, ih hu, and_assoc]

theorem meets_snoc_iff {s u : S} {as : List A} {a : A} {os : List O}
    (h : run step s as = some (u, os)) :
    Meets step C s (as ++ [a]) ↔ Meets step C s as ∧ C u a := by
  rw [meets_append_iff h]
  show Meets step C s as ∧ (C u a ∧ ∀ t os, step u a = some (t, os) → True) ↔ _
  simp

/-- A weaker condition is met as well. -/
theorem meets_mono {C' : S → A → Prop} (h : ∀ s a, C s a → C' s a) {s : S} {as : List A}
    (hmeets : Meets step C s as) : Meets step C' s as := by
  induction as generalizing s with
  | nil => trivial
  | cons a as ih => exact ⟨h s a hmeets.1, fun t os hstep => ih (hmeets.2 t os hstep)⟩

/-- What the condition gives in the states with an invariant, which it keeps. -/
theorem meets_of_invariant {C' : S → A → Prop} {I : S → Prop}
    (gives : ∀ u a, I u → C u a → C' u a)
    (keep : ∀ u a t os, I u → C u a → step u a = some (t, os) → I t) {s : S} {as : List A}
    (start : I s) (h : Meets step C s as) : Meets step C' s as := by
  induction as generalizing s with
  | nil => trivial
  | cons a as ih =>
    refine ⟨gives s a start h.1, fun t os hstep => ?_⟩
    exact ih (keep s a t os start h.1 hstep) (h.2 t os hstep)

/-- Induction along a run whose steps meet a condition. -/
theorem meets_induction {P : List O → S → Prop} {s : S} (start : P [] s)
    (next : ∀ os u a t os', P os u → C u a → step u a = some (t, os') → P (os ++ os') t)
    {as : List A} {t : S} {os : List O} (hmeets : Meets step C s as)
    (h : run step s as = some (t, os)) : P os t := by
  refine run_induction (P := fun as os t => Meets step C s as → P os t) (fun _ => start) ?_ h
    hmeets
  intro as os u a t os' hrun ih ha hmeets
  obtain ⟨hbefore, hlast⟩ := (meets_snoc_iff hrun).mp hmeets
  exact next os u a t os' (ih hbefore) hlast ha

/-- Two conditions that agree on the steps from states with an invariant, which the first
condition keeps, are met by the same runs. -/
theorem meets_congr {C' : S → A → Prop} {I : S → Prop}
    (same : ∀ u a t os, I u → step u a = some (t, os) → (C u a ↔ C' u a))
    (keep : ∀ u a t os, I u → C u a → step u a = some (t, os) → I t)
    {s t : S} {as : List A} {os : List O} (start : I s) (h : run step s as = some (t, os)) :
    Meets step C s as ↔ Meets step C' s as := by
  induction as generalizing s os with
  | nil => exact Iff.rfl
  | cons a as ih =>
    obtain ⟨v, os₁, os₂, hv, ht, rfl⟩ := run_cons_eq_some.mp h
    -- the step is a function, so the rest of the run starts in `v`
    have hnext : ∀ D : S → A → Prop, Meets step D s (a :: as) ↔ D s a ∧ Meets step D v as := by
      intro D
      refine and_congr_right fun _ => ⟨fun hall => hall v os₁ hv, fun hD u os' hu => ?_⟩
      obtain ⟨rfl, _⟩ := Prod.mk.inj (Option.some.inj (hv.symm.trans hu))
      exact hD
    rw [hnext, hnext, same s a v os₁ start hv]
    refine and_congr_right fun hC => ?_
    exact ih (keep s a v os₁ start ((same s a v os₁ start hv).mpr hC) hv) ht

/-- Every state the run goes through has the property, with the outputs up to it. -/
def Always (step : S → A → Option (S × List O)) (P : List O → S → Prop) (s : S) (as : List A) :
    Prop :=
  ∀ bs cs u os, as = bs ++ cs → run step s bs = some (u, os) → P os u

theorem always_snoc_iff {P : List O → S → Prop} {s t : S} {as : List A} {a : A} {os : List O}
    (h : run step s (as ++ [a]) = some (t, os)) :
    Always step P s (as ++ [a]) ↔ Always step P s as ∧ P os t := by
  constructor
  · intro hall
    refine ⟨?_, hall (as ++ [a]) [] t os (List.append_nil _).symm h⟩
    intro bs cs u os' has hu
    exact hall bs (cs ++ [a]) u os' (by rw [has, List.append_assoc]) hu
  · rintro ⟨hbefore, hlast⟩ bs cs u os' has hu
    rcases cs.eq_nil_or_concat with rfl | ⟨cs, b, rfl⟩
    · rw [List.append_nil] at has
      rw [← has, h] at hu
      obtain ⟨rfl, rfl⟩ := Prod.mk.inj (Option.some.inj hu)
      exact hlast
    · rw [List.concat_eq_append, ← List.append_assoc] at has
      exact hbefore bs cs u os' (List.append_inj_left' has rfl) hu

/-- A condition on the labels alone. -/
theorem meets_of_forall {D : A → Prop} {s : S} {as : List A} (h : ∀ a ∈ as, D a) :
    Meets step (fun _ a => D a) s as := by
  induction as generalizing s with
  | nil => trivial
  | cons a as ih =>
    exact ⟨h a List.mem_cons_self, fun t _ _ => ih fun b hb => h b (List.mem_cons_of_mem _ hb)⟩

/-- Let every step that meets `D` keep `I`.  When the condition on such a step from a state
with the property says exactly that the step is as `R` wants it and the next state has the
property, the condition on the run says this of all its steps and states. -/
theorem meets_iff_always_and {P : List O → S → Prop} {I : S → Prop} {D R : S → A → Prop} {s : S}
    (start : P [] s) (inv : I s)
    (keep : ∀ u a t os, I u → D u a → step u a = some (t, os) → I t)
    (next : ∀ os u a t os', I u → D u a → P os u → step u a = some (t, os') →
      (C u a ↔ P (os ++ os') t ∧ R u a))
    {as : List A} {t : S} {os : List O} (h : run step s as = some (t, os))
    (hD : Meets step D s as) :
    Meets step C s as ↔ Always step P s as ∧ Meets step R s as := by
  refine (run_induction (P := fun as os t => Meets step D s as →
    I t ∧ (Meets step C s as ↔ Always step P s as ∧ Meets step R s as)) ?_ ?_ h hD).2
  · refine fun _ => ⟨inv, iff_of_true trivial ⟨?_, trivial⟩⟩
    intro bs cs u os has hu
    obtain ⟨rfl, _⟩ := List.append_eq_nil_iff.mp has.symm
    obtain ⟨rfl, rfl⟩ := Prod.mk.inj (Option.some.inj hu)
    exact start
  · intro as os u a t os' hu ih ha hD
    obtain ⟨hDas, hDa⟩ := (meets_snoc_iff hu).mp hD
    obtain ⟨hI, ih⟩ := ih hDas
    refine ⟨keep u a t os' hI hDa ha, ?_⟩
    have hsnoc : run step s (as ++ [a]) = some (t, os ++ os') :=
      run_snoc_eq_some.mpr ⟨u, os, os', hu, ha, rfl⟩
    rw [meets_snoc_iff hu, meets_snoc_iff hu, always_snoc_iff hsnoc, ih, and_and_and_comm]
    refine and_congr_right fun hbefore => ?_
    exact next os u a t os' hI hDa (hbefore.1 as [] u os (List.append_nil _).symm hu) ha

/-- The same without a wish for the steps. -/
theorem meets_iff_always_of_meets {P : List O → S → Prop} {I : S → Prop} {D : S → A → Prop} {s : S}
    (start : P [] s) (inv : I s)
    (keep : ∀ u a t os, I u → D u a → step u a = some (t, os) → I t)
    (next : ∀ os u a t os', I u → D u a → P os u → step u a = some (t, os') →
      (C u a ↔ P (os ++ os') t))
    {as : List A} {t : S} {os : List O} (h : run step s as = some (t, os))
    (hD : Meets step D s as) : Meets step C s as ↔ Always step P s as := by
  have hiff := meets_iff_always_and (C := C) (R := fun _ _ => True) start inv keep
    (fun os u a t os' hI hDa hP ha => by rw [next os u a t os' hI hDa hP ha, and_true]) h hD
  rw [hiff, and_iff_left (meets_of_forall fun _ _ => trivial)]

/-- From states with an invariant. -/
theorem meets_iff_always_of_invariant {P : List O → S → Prop} {I : S → Prop} {s : S}
    (start : P [] s) (inv : I s) (keep : ∀ u a t os, I u → step u a = some (t, os) → I t)
    (next : ∀ os u a t os', I u → P os u → step u a = some (t, os') →
      (C u a ↔ P (os ++ os') t))
    {as : List A} {t : S} {os : List O} (h : run step s as = some (t, os)) :
    Meets step C s as ↔ Always step P s as :=
  meets_iff_always_of_meets (D := fun _ _ => True) start inv
    (fun u a t os hI _ ha => keep u a t os hI ha)
    (fun os u a t os' hI _ hP ha => next os u a t os' hI hP ha) h
    (meets_of_forall fun _ _ => trivial)

theorem meets_iff_always {P : List O → S → Prop} {s : S} (start : P [] s)
    (next : ∀ os u a t os', P os u → step u a = some (t, os') → (C u a ↔ P (os ++ os') t))
    {as : List A} {t : S} {os : List O} (h : run step s as = some (t, os)) :
    Meets step C s as ↔ Always step P s as :=
  meets_iff_always_of_invariant (I := fun _ => True) start trivial
    (fun _ _ _ _ _ _ => trivial) (fun os u a t os' _ hP ha => next os u a t os' hP ha) h

/-- Whether a schedule meets a condition is found by running it. -/
instance decidableMeets [∀ s a, Decidable (C s a)] :
    (s : S) → (as : List A) → Decidable (Meets step C s as)
  | _, [] => isTrue trivial
  | s, a :: as =>
    match h : step s a with
    | none => decidable_of_iff (C s a)
        ⟨fun hc => ⟨hc, fun _ _ ht => nomatch h.symm.trans ht⟩, fun hm => hm.1⟩
    | some q =>
      have : Decidable (Meets step C q.1 as) := decidableMeets q.1 as
      decidable_of_iff (C s a ∧ Meets step C q.1 as)
        ⟨fun hm => ⟨hm.1, fun t os ht => by
            have hq : q = (t, os) := Option.some.inj (h.symm.trans ht)
            rw [hq] at hm
            exact hm.2⟩,
          fun hm => ⟨hm.1, hm.2 q.1 q.2 h⟩⟩

/-! ## Refinement

The concrete machine refines the abstract one along a relation when every
concrete step is answered by abstract steps with the same visible outputs.  Either
machine may have outputs that the other does not show. -/

variable {S' A' O' : Type} {step' : S' → A' → Option (S' × List O')}

theorem run_follows {V : Type} {R : S → S' → Prop} {view : O → Option V} {view' : O' → Option V}
    (sim : ∀ u u' a t os, R u u' → step u a = some (t, os) →
      ∃ t' os', Reaches step' u' t' os' ∧ os'.filterMap view' = os.filterMap view ∧ R t t')
    {s t : S} {s' : S'} {as : List A} {os : List O} (hs : R s s')
    (h : run step s as = some (t, os)) :
    ∃ t' os', Reaches step' s' t' os' ∧ os'.filterMap view' = os.filterMap view ∧ R t t' := by
  refine run_induction (P := fun _ os t => ∃ t' os', Reaches step' s' t' os' ∧
    os'.filterMap view' = os.filterMap view ∧ R t t') ⟨s', [], .refl s', rfl, hs⟩ ?_ h
  rintro as os u a t os' - ⟨u', os₁, hu, hview, hR⟩ ha
  obtain ⟨t', os₂, ht, hview', hR'⟩ := sim u u' a t os' hR ha
  refine ⟨t', os₁ ++ os₂, hu.trans ht, ?_, hR'⟩
  rw [List.filterMap_append, List.filterMap_append, hview, hview']

/-- Where every abstract output shows. -/
theorem run_refines {R : S → S' → Prop} {view : O → Option O'}
    (sim : ∀ u u' a t os, R u u' → step u a = some (t, os) →
      ∃ bs t', run step' u' bs = some (t', os.filterMap view) ∧ R t t')
    {s t : S} {s' : S'} {as : List A} {os : List O} (hs : R s s')
    (h : run step s as = some (t, os)) :
    ∃ bs t', run step' s' bs = some (t', os.filterMap view) ∧ R t t' := by
  have hsim : ∀ u u' a t os, R u u' → step u a = some (t, os) → ∃ t' os',
      Reaches step' u' t' os' ∧ os'.filterMap some = os.filterMap view ∧ R t t' := by
    intro u u' a t os hR ha
    obtain ⟨bs, t', ht, hR'⟩ := sim u u' a t os hR ha
    exact ⟨t', _, ⟨bs, ht⟩, List.filterMap_some, hR'⟩
  obtain ⟨t', os', ⟨bs, ht⟩, hview, hR'⟩ := run_follows hsim hs h
  rw [List.filterMap_some] at hview
  exact ⟨bs, t', hview ▸ ht, hR'⟩

end Machine
end LinuxEmbedded
