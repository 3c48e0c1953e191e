import Mathlib.Data.List.Chain
import Mathlib.Data.List.Infix
import Mathlib.Data.List.Induction

/-
Sessions of a sequence.

A session ends where an element is not close to the one before it.  The last
session of a list is its longest suffix in which consecutive elements are close,
and it can be kept up to date one element at a time.
-/
namespace LinuxEmbedded
namespace Session

variable {α : Type} {close : α → α → Prop}

/-- `s` is the longest suffix of `l` whose consecutive elements are close. -/
def IsLast (close : α → α → Prop) (l s : List α) : Prop :=
  s <:+ l ∧ s.IsChain close ∧ ∀ s', s' <:+ l → s'.IsChain close → s'.length ≤ s.length

theorem IsLast.unique {l s s' : List α} (h : IsLast close l s) (h' : IsLast close l s') :
    s = s' := by
  have hle : s.length ≤ s'.length := h'.2.2 s h.1 h.2.1
  have hge : s'.length ≤ s.length := h.2.2 s' h'.1 h'.2.1
  exact (List.suffix_of_suffix_length_le h.1 h'.1 hle).eq_of_length (by omega)

theorem isLast_nil : IsLast close [] [] :=
  ⟨List.nil_suffix, List.IsChain.nil, fun _ h _ => h.length_le⟩

/-- A nonempty list ends with a nonempty session. -/
theorem IsLast.ne_nil {l s : List α} (h : IsLast close l s) (hl : l ≠ []) : s ≠ [] := by
  intro hs
  have hsuffix : [l.getLast hl] <:+ l := ⟨l.dropLast, List.dropLast_append_getLast hl⟩
  have hle := h.2.2 _ hsuffix (List.IsChain.singleton _)
  rw [hs] at hle
  exact absurd hle (by simp)

theorem suffix_snoc {l s : List α} {x : α} (h : s <:+ l ++ [x]) :
    s = [] ∨ ∃ s', s = s' ++ [x] ∧ s' <:+ l := by
  rcases List.suffix_concat_iff.mp h with hs | ⟨s', hs, hl⟩
  · exact Or.inl hs
  · exact Or.inr ⟨s', hs, hl⟩

/-- A close element extends the last session. -/
theorem IsLast.extend {l s : List α} {y x : α} (h : IsLast close (l ++ [y]) (s ++ [y]))
    (hclose : close y x) : IsLast close (l ++ [y] ++ [x]) (s ++ [y] ++ [x]) := by
  refine ⟨?_, ?_, ?_⟩
  · obtain ⟨front, hfront⟩ := h.1
    exact ⟨front, by rw [← hfront]; simp⟩
  · rw [List.append_assoc]
    exact List.isChain_append_cons_cons.mpr ⟨h.2.1, hclose, List.IsChain.singleton _⟩
  · intro s' hs' hchain
    rcases suffix_snoc hs' with rfl | ⟨s'', rfl, hs''⟩
    · exact Nat.zero_le _
    · have hle := h.2.2 s'' hs'' hchain.left_of_append
      simp only [List.length_append, List.length_singleton] at hle ⊢
      omega

/-- An element that is not close starts a session. -/
theorem isLast_restart {l : List α} {y x : α} (hclose : ¬close y x) :
    IsLast close (l ++ [y] ++ [x]) [x] := by
  refine ⟨⟨l ++ [y], rfl⟩, List.IsChain.singleton _, ?_⟩
  intro s' hs' hchain
  rcases suffix_snoc hs' with rfl | ⟨s'', rfl, hs''⟩
  · exact Nat.zero_le _
  · rcases suffix_snoc hs'' with rfl | ⟨s₃, rfl, -⟩
    · simp
    · rw [List.append_assoc] at hchain
      exact absurd (List.isChain_append_cons_cons.mp hchain).2.1 hclose

theorem isLast_singleton (x : α) : IsLast close [x] [x] :=
  ⟨List.suffix_refl _, List.IsChain.singleton _, fun _ h _ => h.length_le⟩

/-- Every list has a last session. -/
theorem exists_isLast (l : List α) : ∃ s, IsLast close l s := by
  induction l using List.reverseRecOn with
  | nil => exact ⟨[], isLast_nil⟩
  | append_singleton l x ih =>
    obtain ⟨s, hs⟩ := ih
    rcases List.eq_nil_or_concat l with hl | ⟨l', y, hl⟩
    · subst hl
      exact ⟨[x], isLast_singleton x⟩
    · rw [List.concat_eq_append] at hl
      subst hl
      by_cases hclose : close y x
      · rcases suffix_snoc hs.1 with hnil | ⟨s', rfl, -⟩
        · exact absurd hnil (hs.ne_nil (by simp))
        · exact ⟨_, hs.extend hclose⟩
      · exact ⟨[x], isLast_restart hclose⟩

end Session
end LinuxEmbedded
