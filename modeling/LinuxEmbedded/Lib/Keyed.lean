import Mathlib.Data.List.Nodup
import Mathlib.Data.List.Basic

/-
Lists whose elements have distinct keys.

An operation at an index is an operation at a key when the index denotes the key:
it is the place of the key, or the key is absent and the index is past the end.
-/
namespace LinuxEmbedded
namespace Keyed

variable {α κ : Type} {key : α → κ}

/-- Index `i` of `l` stands for key `k`. -/
def Denotes (key : α → κ) (l : List α) (i : Nat) (k : κ) : Prop :=
  l[i]?.map key = some k ∨ l.length ≤ i ∧ ∀ x ∈ l, key x ≠ k

theorem Denotes.tail {x : α} {l : List α} {i : Nat} {k : κ}
    (h : Denotes key (x :: l) (i + 1) k) : Denotes key l i k := by
  rcases h with h | ⟨hle, habsent⟩
  · exact Or.inl h
  · refine Or.inr ⟨by simpa using hle, ?_⟩
    intro y hy
    exact habsent y (List.mem_cons_of_mem x hy)

/-- A denoted key is not the key of an element before it. -/
theorem Denotes.head_ne {x : α} {l : List α} {i : Nat} {k : κ}
    (hn : ((x :: l).map key).Nodup) (h : Denotes key (x :: l) (i + 1) k) : key x ≠ k := by
  rcases h with h | ⟨_, habsent⟩
  · obtain ⟨y, hy, hk⟩ := Option.map_eq_some_iff.mp h
    rw [List.map_cons, List.nodup_cons] at hn
    intro he
    apply hn.1
    rw [he, ← hk]
    exact List.mem_map_of_mem (List.mem_of_getElem? hy)
  · exact habsent x (List.mem_cons_self ..)

/-- An element with a new key. -/
theorem nodup_append_singleton {l : List α} {x : α} (hn : (l.map key).Nodup)
    (habsent : ∀ y ∈ l, key y ≠ key x) : ((l ++ [x]).map key).Nodup := by
  rw [List.map_append, List.nodup_append]
  refine ⟨hn, List.nodup_singleton _, ?_⟩
  intro k hk k' hk'
  obtain ⟨y, hy, rfl⟩ := List.mem_map.mp hk
  rw [List.mem_singleton.mp hk']
  exact habsent y hy

theorem tail_ne {x : α} {l : List α} (hn : ((x :: l).map key).Nodup) :
    ∀ y ∈ l, key y ≠ key x := by
  rw [List.map_cons, List.nodup_cons] at hn
  intro y hy he
  exact hn.1 (he ▸ List.mem_map_of_mem hy)

variable [DecidableEq κ]

theorem modify_eq_map {l : List α} (hn : (l.map key).Nodup) {i : Nat} {k : κ}
    (h : Denotes key l i k) (f : α → α) :
    l.modify i f = l.map fun x => if key x = k then f x else x := by
  induction l generalizing i with
  | nil => simp
  | cons x l ih =>
    have htail : (l.map key).Nodup := by
      rw [List.map_cons] at hn
      exact (List.nodup_cons.mp hn).2
    cases i with
    | zero =>
      have hx : key x = k := by
        rcases h with h | ⟨hle, _⟩
        · simpa using h
        · exact absurd hle (by simp)
      have hid : (l.map fun y => if key y = k then f y else y) = l := by
        conv_rhs => rw [← List.map_id l]
        apply List.map_congr_left
        intro y hy
        rw [if_neg (hx ▸ tail_ne hn y hy)]
        rfl
      rw [List.map_cons, if_pos hx, hid]
      rfl
    | succ i =>
      rw [List.map_cons, if_neg (h.head_ne hn), ← ih htail h.tail]
      rfl

theorem eraseIdx_eq_filter {l : List α} (hn : (l.map key).Nodup) {i : Nat} {k : κ}
    (h : Denotes key l i k) : l.eraseIdx i = l.filter fun x => key x ≠ k := by
  induction l generalizing i with
  | nil => rfl
  | cons x l ih =>
    have htail : (l.map key).Nodup := by
      rw [List.map_cons] at hn
      exact (List.nodup_cons.mp hn).2
    cases i with
    | zero =>
      have hx : key x = k := by
        rcases h with h | ⟨hle, _⟩
        · simpa using h
        · exact absurd hle (by simp)
      have hkeep : l.filter (fun y => key y ≠ k) = l := by
        rw [List.filter_eq_self]
        intro y hy
        exact decide_eq_true (hx ▸ tail_ne hn y hy)
      rw [List.filter_cons_of_neg (by simpa using hx), hkeep]
      rfl
    | succ i =>
      have hx := h.head_ne hn
      rw [List.filter_cons_of_pos (by simpa using hx), ← ih htail h.tail]
      rfl

theorem eraseP_eq_filter {l : List α} (hn : (l.map key).Nodup) (k : κ) :
    (l.eraseP fun x => key x == k) = l.filter fun x => key x ≠ k := by
  induction l with
  | nil => rfl
  | cons x l ih =>
    have htail : (l.map key).Nodup := by
      rw [List.map_cons] at hn
      exact (List.nodup_cons.mp hn).2
    by_cases hx : key x = k
    · have hkeep : l.filter (fun y => key y ≠ k) = l := by
        rw [List.filter_eq_self]
        intro y hy
        exact decide_eq_true (hx ▸ tail_ne hn y hy)
      rw [List.eraseP_cons_of_pos (by simpa using hx), List.filter_cons_of_neg (by simpa using hx),
        hkeep]
    · rw [List.eraseP_cons_of_neg (by simpa using hx), List.filter_cons_of_pos (by simpa using hx),
        ih htail]

theorem mem_eraseP_iff {l : List α} (hn : (l.map key).Nodup) {k : κ} {x : α} :
    x ∈ (l.eraseP fun y => key y == k) ↔ x ∈ l ∧ key x ≠ k := by
  rw [eraseP_eq_filter hn, List.mem_filter, decide_eq_true_eq]

theorem mem_eraseIdx_iff {l : List α} (hn : (l.map key).Nodup) {i : Nat} {k : κ}
    (h : Denotes key l i k) {x : α} : x ∈ l.eraseIdx i ↔ x ∈ l ∧ key x ≠ k := by
  rw [eraseIdx_eq_filter hn h, List.mem_filter, decide_eq_true_eq]

/-- The element a search for a key stops at is the element with that key. -/
theorem find?_eq_some_iff {l : List α} (hn : (l.map key).Nodup) {k : κ} {x : α} :
    (l.find? fun y => key y == k) = some x ↔ x ∈ l ∧ key x = k := by
  constructor
  · intro hfind
    exact ⟨List.mem_of_find?_eq_some hfind, by simpa using List.find?_some hfind⟩
  · rintro ⟨hmem, hx⟩
    have hsome : (l.find? fun y => key y == k).isSome = true :=
      List.find?_isSome.mpr ⟨x, hmem, by simpa using hx⟩
    obtain ⟨y, hfind⟩ := Option.isSome_iff_exists.mp hsome
    have hy : key y = k := by simpa using List.find?_some hfind
    rw [hfind, List.inj_on_of_nodup_map hn (List.mem_of_find?_eq_some hfind) hmem
      (hy.trans hx.symm)]

end Keyed
end LinuxEmbedded
