import LinuxEmbedded.Lib.Machine

/-
Unwinding: what one observer of a machine cannot tell apart.

The observer sees a part of the state, some of the labels and some of the
outputs.  If a label it does not see changes nothing it sees, and a label it sees
acts on what it sees alone, then two runs with the same seen labels look the same.
-/
namespace LinuxEmbedded
namespace Machine

variable {S A O V : Type} {step : S → A → Option (S × List O)}

/-- The conditions on one step from the states with the invariant `I`. -/
structure Unwinds (step : S → A → Option (S × List O)) (I : S → Prop) (view : S → V)
    (sees : A → Bool) (shows : O → Bool) : Prop where
  keeps : ∀ s a t os, I s → step s a = some (t, os) → I t
  respects : ∀ s a t os, I s → sees a = false → step s a = some (t, os) →
    view t = view s ∧ os.filter shows = []
  consistent : ∀ s s' a t t' os os', I s → I s' → sees a = true → view s = view s' →
    step s a = some (t, os) → step s' a = some (t', os') →
      view t = view t' ∧ os.filter shows = os'.filter shows

variable {I : S → Prop} {view : S → V} {sees : A → Bool} {shows : O → Bool}

/-- Labels that are not seen leave no trace. -/
theorem Unwinds.unseen (h : Unwinds step I view sees shows) {s t : S} {as : List A}
    {os : List O} (hs : I s) (hunseen : ∀ a ∈ as, sees a = false)
    (hrun : run step s as = some (t, os)) :
    I t ∧ view t = view s ∧ os.filter shows = [] := by
  induction as generalizing s os with
  | nil =>
    obtain ⟨rfl, rfl⟩ := Prod.mk.inj (Option.some.inj hrun)
    exact ⟨hs, rfl, rfl⟩
  | cons a as ih =>
    obtain ⟨u, os₁, os₂, hu, ht, rfl⟩ := run_cons_eq_some.mp hrun
    obtain ⟨hview, hshows⟩ := h.respects s a u os₁ hs (hunseen a (List.mem_cons_self ..)) hu
    obtain ⟨hI, hrest, hshows'⟩ := ih (h.keeps s a u os₁ hs hu)
      (fun b hb => hunseen b (List.mem_cons_of_mem a hb)) ht
    refine ⟨hI, hrest.trans hview, ?_⟩
    rw [List.filter_append, hshows, hshows']
    rfl

/-- Two runs with the same seen labels end in the same view and show the same outputs. -/
theorem Unwinds.run_eq (h : Unwinds step I view sees shows) {s s' t t' : S}
    {as as' : List A} {os os' : List O} (hs : I s) (hs' : I s') (hview : view s = view s')
    (hseen : as.filter sees = as'.filter sees) (hrun : run step s as = some (t, os))
    (hrun' : run step s' as' = some (t', os')) :
    view t = view t' ∧ os.filter shows = os'.filter shows := by
  induction as generalizing s s' as' os os' with
  | nil =>
    obtain ⟨rfl, rfl⟩ := Prod.mk.inj (Option.some.inj hrun)
    have hunseen : ∀ a ∈ as', sees a = false := by
      intro a ha
      have hnil := List.filter_eq_nil_iff.mp hseen.symm a ha
      exact Bool.eq_false_iff.mpr hnil
    obtain ⟨_, hend, hshows⟩ := h.unseen hs' hunseen hrun'
    rw [hend, hshows]
    exact ⟨hview, rfl⟩
  | cons a as ih =>
    obtain ⟨u, os₁, os₂, hu, ht, rfl⟩ := run_cons_eq_some.mp hrun
    have hI : I u := h.keeps s a u os₁ hs hu
    cases ha : sees a with
    | false =>
      obtain ⟨hsame, hshows⟩ := h.respects s a u os₁ hs ha hu
      rw [List.filter_cons_of_neg (by simp [ha])] at hseen
      rw [List.filter_append, hshows, List.nil_append]
      exact ih hI hs' (hsame.trans hview) hseen ht hrun'
    | true =>
      -- the other run comes to `a` through labels that are not seen
      rw [List.filter_cons_of_pos ha] at hseen
      obtain ⟨before, after, rfl, hbefore, _, hafter⟩ :=
        List.filter_eq_cons_iff.mp hseen.symm
      obtain ⟨v, os₃, os₄, hv, hrest, rfl⟩ := run_append_eq_some.mp hrun'
      obtain ⟨w, os₅, os₆, hw, ht', rfl⟩ := run_cons_eq_some.mp hrest
      obtain ⟨hIv, hviewv, hshowsv⟩ := h.unseen hs'
        (fun b hb => Bool.eq_false_iff.mpr (hbefore b hb)) hv
      obtain ⟨hsame, hshows⟩ := h.consistent s v a u w os₁ os₅ hs hIv ha
        (hview.trans hviewv.symm) hu hw
      obtain ⟨hend, hend'⟩ := ih hI (h.keeps v a w os₅ hIv hw) hsame hafter.symm ht ht'
      refine ⟨hend, ?_⟩
      rw [List.filter_append, List.filter_append, List.filter_append, hshowsv, hshows, hend',
        List.nil_append]

end Machine
end LinuxEmbedded
