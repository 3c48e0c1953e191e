import LinuxEmbedded.Lib.Machine
import Mathlib.Data.List.Nodup
import Mathlib.Data.List.Perm.Basic

/-
The life of a component that is loaded in stages and used by others.

Each stage acquires at most one resource.  A stage whose test notices a failure
releases what the earlier ones acquired, last one first.  From the acquisition of
one of the resources on, the component is published: clients come in and use it,
also while it is still being loaded.  It is unloaded when no client is left.
-/
namespace LinuxEmbedded
namespace Lifecycle

/-- How a call says that it failed, and what a caller may test for. -/
inductive Report where
  | null
  | error
  deriving DecidableEq, Repr

structure Stage (R : Type) where
  resource : Option R
  /-- How the call of the stage reports a failure. -/
  reports : Report
  /-- What is tested after the call. -/
  test : Report
  /-- What is released when the test notices a failure. -/
  undo : List R
  deriving DecidableEq, Repr

/-- What the first `k` stages acquire. -/
def acquired {R : Type} (stages : List (Stage R)) (k : Nat) : List R :=
  (stages.take k).filterMap Stage.resource

structure Component (R : Type) where
  stages : List (Stage R)
  /-- What unloading releases, in order. -/
  teardown : List R
  published : R
  /-- What a client's use of the component relies on. -/
  needs : List R
  undo_eq : stages.map Stage.undo =
    (List.range stages.length).map fun k => (acquired stages k).reverse
  nodup : (acquired stages stages.length).Nodup
  teardown_perm : teardown.Perm (acquired stages stages.length)
  needs_sub : needs ⊆ acquired stages stages.length
  needs_ne : needs ≠ []
  stages_ne : stages ≠ []

inductive Pc (R : Type) where
  | down
  /-- At the call of the stage with this number. -/
  | loading (k : Nat)
  /-- A stage failed and these are still to be released. -/
  | unwinding (rest : List R)
  | up
  | unloading (rest : List R)
  deriving DecidableEq, Repr

structure State (R : Type) where
  pc : Pc R
  held : List R
  /-- The clients that are in. -/
  clients : Nat
  deriving DecidableEq, Repr

def start {R : Type} : State R := ⟨.down, [], 0⟩

inductive Act where
  | load
  /-- The call of the stage, and whether it succeeds. -/
  | call (ok : Bool)
  /-- The next release, or the return when nothing is left. -/
  | release
  | enter
  | use
  | leave
  | unload
  deriving DecidableEq, Repr

inductive Event (R : Type) where
  | acquired (r : R)
  /-- A release, and whether the resource was held. -/
  | released (r : R) (valid : Bool)
  /-- A use, and whether all it relies on was held. -/
  | used (valid : Bool)
  deriving DecidableEq, Repr

def Event.Ok {R : Type} : Event R → Prop
  | .acquired _ => True
  | .released _ valid => valid = true
  | .used valid => valid = true

variable {R : Type} [DecidableEq R] (c : Component R)

/-- After the last stage the component is up. -/
def advance (k : Nat) : Pc R := if k + 1 = c.stages.length then .up else .loading (k + 1)

def Pc.isUnloading : Pc R → Bool
  | .unloading _ => true
  | _ => false

def step (s : State R) : Act → Option (State R × List (Event R))
  | .load => if s.pc = .down ∧ s.clients = 0 then some ({ s with pc := .loading 0 }, []) else none
  | .call ok =>
    match s.pc with
    | .loading k => do
      let stage ← c.stages[k]?
      if ok then
        some ({ s with pc := advance c k, held := s.held ++ stage.resource.toList },
          stage.resource.toList.map .acquired)
      else if stage.test = stage.reports then some ({ s with pc := .unwinding stage.undo }, [])
      else some ({ s with pc := advance c k }, [])
    | _ => none
  | .release =>
    match s.pc with
    | .unwinding (r :: rest) =>
      some ({ s with pc := .unwinding rest, held := s.held.erase r },
        [.released r (decide (r ∈ s.held))])
    | .unloading (r :: rest) =>
      some ({ s with pc := .unloading rest, held := s.held.erase r },
        [.released r (decide (r ∈ s.held))])
    | .unwinding [] | .unloading [] => some ({ s with pc := .down }, [])
    | _ => none
  | .enter =>
    if c.published ∈ s.held ∧ s.pc.isUnloading = false then
      some ({ s with clients := s.clients + 1 }, [])
    else none
  | .use => if 0 < s.clients then some (s, [.used (decide (c.needs ⊆ s.held))]) else none
  | .leave => if 0 < s.clients then some ({ s with clients := s.clients - 1 }, []) else none
  | .unload =>
    if s.pc = .up ∧ s.clients = 0 then some ({ s with pc := .unloading c.teardown }, []) else none

/-! ## What is held where -/

/-- What is held at a place if no failure went unnoticed. -/
def expected : Pc R → List R
  | .down => []
  | .loading k => acquired c.stages k
  | .unwinding rest => rest
  | .up => acquired c.stages c.stages.length
  | .unloading rest => rest

/-- What holds in every state that is reached. -/
structure Inv (s : State R) : Prop where
  held_sub : s.held ⊆ expected c s.pc
  held_nodup : s.held.Nodup
  expected_nodup : (expected c s.pc).Nodup
  loading : ∀ k, s.pc = .loading k → k < c.stages.length
  unwinding : ∀ rest, s.pc = .unwinding rest →
    ∃ k < c.stages.length, rest ⊆ acquired c.stages k
  quiet : s.pc.isUnloading = true → s.clients = 0

/-- All that is expected is held, and clients are in only when the component is up. -/
structure Sound (s : State R) : Prop where
  inv : Inv c s
  expected_sub : expected c s.pc ⊆ s.held
  clients : s.clients = 0 ∨ s.pc = .up

/-- No failure goes unnoticed that leaves a resource missing, and no client enters before
the component is up. -/
def Good (s : State R) : Act → Prop
  | .call false => ∀ k stage, s.pc = .loading k → c.stages[k]? = some stage →
      stage.resource = none ∨ stage.test = stage.reports
  | .enter => s.pc = .up
  | _ => True

section Stages

omit [DecidableEq R]

theorem acquired_succ {k : Nat} {stage : Stage R} (h : c.stages[k]? = some stage) :
    acquired c.stages (k + 1) = acquired c.stages k ++ stage.resource.toList := by
  rw [acquired, List.take_add_one, h, List.filterMap_append]
  cases hr : stage.resource with
  | none => simp [acquired, hr]
  | some r => simp [acquired, hr]

theorem acquired_sublist (k : Nat) :
    (acquired c.stages k).Sublist (acquired c.stages c.stages.length) := by
  rw [acquired, acquired, List.take_length]
  exact (List.take_sublist k c.stages).filterMap _

theorem acquired_nodup (k : Nat) : (acquired c.stages k).Nodup :=
  c.nodup.sublist (acquired_sublist c k)

theorem undo_of {k : Nat} {stage : Stage R} (h : c.stages[k]? = some stage) :
    stage.undo = (acquired c.stages k).reverse := by
  have hk : k < c.stages.length := (List.getElem?_eq_some_iff.mp h).1
  have hget := congrArg (fun l => l[k]?) c.undo_eq
  simp only [List.getElem?_map, h, Option.map_some, List.getElem?_range hk] at hget
  exact Option.some.inj hget

theorem expected_advance (k : Nat) : expected c (advance c k) = acquired c.stages (k + 1) := by
  unfold advance
  by_cases hk : k + 1 = c.stages.length
  · rw [if_pos hk, hk]
    rfl
  · rw [if_neg hk]
    rfl

theorem lt_of_advance {k j : Nat} (hk : k < c.stages.length) (h : advance c k = .loading j) :
    j < c.stages.length := by
  unfold advance at h
  by_cases he : k + 1 = c.stages.length
  · rw [if_pos he] at h
    cases h
  · rw [if_neg he] at h
    cases h
    omega

theorem isUnloading_advance (k : Nat) : (advance c k).isUnloading = false := by
  unfold advance
  by_cases he : k + 1 = c.stages.length
  · rw [if_pos he]
    rfl
  · rw [if_neg he]
    rfl

theorem advance_ne_unwinding (k : Nat) (rest : List R) : advance c k ≠ .unwinding rest := by
  unfold advance
  by_cases he : k + 1 = c.stages.length
  · rw [if_pos he]
    exact nofun
  · rw [if_neg he]
    exact nofun

end Stages

/-! ## What one step can do -/

/-- The places of a release: what is left to release, and the place after it. -/
inductive Pc.Releases : Pc R → List R → (List R → Pc R) → Prop where
  | unwinding (rest : List R) : Pc.Releases (.unwinding rest) rest .unwinding
  | unloading (rest : List R) : Pc.Releases (.unloading rest) rest .unloading

inductive Moves (s : State R) : Act → State R → List (Event R) → Prop where
  | load (at_ : s.pc = .down) (none_ : s.clients = 0) : Moves s .load { s with pc := .loading 0 } []
  | acquire {k stage} (at_ : s.pc = .loading k) (stage_ : c.stages[k]? = some stage) :
    Moves s (.call true)
      { s with pc := advance c k, held := s.held ++ stage.resource.toList }
      (stage.resource.toList.map .acquired)
  | fail {k stage} (at_ : s.pc = .loading k) (stage_ : c.stages[k]? = some stage)
      (noticed : stage.test = stage.reports) :
    Moves s (.call false) { s with pc := .unwinding stage.undo } []
  | miss {k stage} (at_ : s.pc = .loading k) (stage_ : c.stages[k]? = some stage)
      (unnoticed : stage.test ≠ stage.reports) :
    Moves s (.call false) { s with pc := advance c k } []
  | release {r rest pc} (at_ : s.pc.Releases (r :: rest) pc) :
    Moves s .release { s with pc := pc rest, held := s.held.erase r }
      [.released r (decide (r ∈ s.held))]
  | «return» {pc} (at_ : s.pc.Releases [] pc) : Moves s .release { s with pc := .down } []
  | enter (published : c.published ∈ s.held) (stays : s.pc.isUnloading = false) :
    Moves s .enter { s with clients := s.clients + 1 } []
  | use (some_ : 0 < s.clients) : Moves s .use s [.used (decide (c.needs ⊆ s.held))]
  | leave (some_ : 0 < s.clients) : Moves s .leave { s with clients := s.clients - 1 } []
  | unload (at_ : s.pc = .up) (none_ : s.clients = 0) :
    Moves s .unload { s with pc := .unloading c.teardown } []

theorem step_moves {s t : State R} {a : Act} {os : List (Event R)}
    (h : step c s a = some (t, os)) : Moves c s a t os := by
  cases a with
  | load =>
    obtain ⟨⟨hpc, hnone⟩, h⟩ := Option.ite_none_right_eq_some.mp h
    obtain ⟨rfl, rfl⟩ := Prod.mk.inj (Option.some.inj h)
    exact .load hpc hnone
  | call ok =>
    cases hpc : s.pc with
    | loading k =>
      simp only [step, hpc] at h
      obtain ⟨stage, hstage, h⟩ := Option.bind_eq_some_iff.mp h
      cases ok with
      | true =>
        obtain ⟨rfl, rfl⟩ := Prod.mk.inj (Option.some.inj h)
        exact .acquire hpc hstage
      | false =>
        by_cases hnotice : stage.test = stage.reports
        · rw [if_neg Bool.false_ne_true, if_pos hnotice] at h
          obtain ⟨rfl, rfl⟩ := Prod.mk.inj (Option.some.inj h)
          exact .fail hpc hstage hnotice
        · rw [if_neg Bool.false_ne_true, if_neg hnotice] at h
          obtain ⟨rfl, rfl⟩ := Prod.mk.inj (Option.some.inj h)
          exact .miss hpc hstage hnotice
    | _ => simp [step, hpc] at h
  | release =>
    cases hpc : s.pc with
    | unwinding rest =>
      cases rest with
      | nil =>
        simp only [step, hpc] at h
        obtain ⟨rfl, rfl⟩ := Prod.mk.inj (Option.some.inj h)
        have hat : s.pc.Releases [] .unwinding := hpc ▸ Pc.Releases.unwinding []
        exact .return hat
      | cons r rest =>
        simp only [step, hpc] at h
        obtain ⟨rfl, rfl⟩ := Prod.mk.inj (Option.some.inj h)
        have hat : s.pc.Releases (r :: rest) .unwinding := hpc ▸ Pc.Releases.unwinding (r :: rest)
        exact .release hat
    | unloading rest =>
      cases rest with
      | nil =>
        simp only [step, hpc] at h
        obtain ⟨rfl, rfl⟩ := Prod.mk.inj (Option.some.inj h)
        have hat : s.pc.Releases [] .unloading := hpc ▸ Pc.Releases.unloading []
        exact .return hat
      | cons r rest =>
        simp only [step, hpc] at h
        obtain ⟨rfl, rfl⟩ := Prod.mk.inj (Option.some.inj h)
        have hat : s.pc.Releases (r :: rest) .unloading := hpc ▸ Pc.Releases.unloading (r :: rest)
        exact .release hat
    | _ => simp [step, hpc] at h
  | enter =>
    obtain ⟨⟨hin, hstay⟩, h⟩ := Option.ite_none_right_eq_some.mp h
    obtain ⟨rfl, rfl⟩ := Prod.mk.inj (Option.some.inj h)
    exact .enter hin hstay
  | use =>
    obtain ⟨hsome, h⟩ := Option.ite_none_right_eq_some.mp h
    obtain ⟨rfl, rfl⟩ := Prod.mk.inj (Option.some.inj h)
    exact .use hsome
  | leave =>
    obtain ⟨hsome, h⟩ := Option.ite_none_right_eq_some.mp h
    obtain ⟨rfl, rfl⟩ := Prod.mk.inj (Option.some.inj h)
    exact .leave hsome
  | unload =>
    obtain ⟨⟨hpc, hnone⟩, h⟩ := Option.ite_none_right_eq_some.mp h
    obtain ⟨rfl, rfl⟩ := Prod.mk.inj (Option.some.inj h)
    exact .unload hpc hnone

/-! ## The invariant -/

variable {c} {s t : State R} {a : Act} {os : List (Event R)}

omit [DecidableEq R] in
theorem inv_start : Inv c start where
  held_sub := List.Subset.refl _
  held_nodup := List.nodup_nil
  expected_nodup := List.nodup_nil
  loading _ h := nomatch h
  unwinding _ h := nomatch h
  quiet _ := rfl

omit [DecidableEq R] in
theorem Pc.Releases.expected {pc : Pc R} {rest : List R} {next : List R → Pc R}
    (h : pc.Releases rest next) :
    expected c pc = rest ∧ (∀ rest', expected c (next rest') = rest') ∧
      (∀ rest', (next rest').isUnloading = pc.isUnloading) ∧
      (∀ rest', pc ≠ .loading rest' ∧ ∀ l, next l ≠ .loading rest') ∧
      (∀ l l', next l = .unwinding l' → pc = .unwinding rest ∧ l = l') := by
  cases h with
  | unwinding =>
    refine ⟨rfl, fun _ => rfl, fun _ => rfl, fun _ => ⟨nofun, nofun⟩, ?_⟩
    intro l l' he
    cases he
    exact ⟨rfl, rfl⟩
  | unloading => exact ⟨rfl, fun _ => rfl, fun _ => rfl, fun _ => ⟨nofun, nofun⟩, nofun⟩

omit [DecidableEq R] in
/-- The place of a release is told by what is left, and so is the next one. -/
theorem Pc.Releases.eq {pc : Pc R} {rest : List R} {next : List R → Pc R}
    (h : pc.Releases rest next) : pc = next rest ∧ ∀ l, (next l).Releases l next := by
  cases h with
  | unwinding => exact ⟨rfl, .unwinding⟩
  | unloading => exact ⟨rfl, .unloading⟩

omit [DecidableEq R] in
/-- What the next stage acquires is not held yet. -/
theorem Inv.acquire {k : Nat} {stage : Stage R} (h : Inv c s) (hpc : s.pc = .loading k)
    (hstage : c.stages[k]? = some stage) :
    s.held ++ stage.resource.toList ⊆ acquired c.stages (k + 1) ∧
      (s.held ++ stage.resource.toList).Nodup := by
  have hsub : s.held ⊆ acquired c.stages k := by
    have hsub := h.held_sub
    rw [hpc] at hsub
    exact hsub
  have hnodup := acquired_nodup c (k + 1)
  rw [acquired_succ c hstage] at hnodup ⊢
  obtain ⟨-, hnew, hdisjoint⟩ := List.nodup_append.mp hnodup
  constructor
  · exact List.append_subset.mpr ⟨fun x hx => List.mem_append_left _ (hsub hx),
      List.subset_append_right ..⟩
  · refine List.nodup_append.mpr ⟨h.held_nodup, hnew, ?_⟩
    intro x hx y hy
    exact hdisjoint x (hsub hx) y hy

theorem inv_moves (h : Inv c s) (hmove : Moves c s a t os) : Inv c t := by
  cases hmove with
  | load hpc hnone =>
    refine ⟨?_, h.held_nodup, List.nodup_nil, ?_, nofun, nofun⟩
    · have hsub := h.held_sub
      rw [hpc] at hsub
      exact hsub
    · intro k hk
      cases hk
      exact List.length_pos_of_ne_nil c.stages_ne
  | @acquire k stage hpc hstage =>
    obtain ⟨hsub, hnodup⟩ := h.acquire hpc hstage
    refine ⟨?_, hnodup, ?_, fun j hj => lt_of_advance c (h.loading k hpc) hj,
      fun rest hr => absurd hr (advance_ne_unwinding c k rest), ?_⟩
    · rw [expected_advance]
      exact hsub
    · rw [expected_advance]
      exact acquired_nodup c (k + 1)
    · intro hunloading
      rw [isUnloading_advance] at hunloading
      cases hunloading
  | @fail k stage hpc hstage hnotice =>
    have hsub := h.held_sub
    rw [hpc] at hsub
    have hundo := undo_of c hstage
    refine ⟨?_, h.held_nodup, ?_, nofun, ?_, nofun⟩
    · show s.held ⊆ stage.undo
      rw [hundo]
      exact fun x hx => List.mem_reverse.mpr (hsub hx)
    · show stage.undo.Nodup
      rw [hundo]
      exact List.nodup_reverse.mpr (acquired_nodup c k)
    · intro rest hr
      cases hr
      refine ⟨k, h.loading k hpc, ?_⟩
      rw [hundo]
      exact fun x hx => List.mem_reverse.mp hx
  | @miss k stage hpc hstage hmiss =>
    have hsub := h.held_sub
    rw [hpc] at hsub
    refine ⟨?_, h.held_nodup, ?_, fun j hj => lt_of_advance c (h.loading k hpc) hj,
      fun rest hr => absurd hr (advance_ne_unwinding c k rest), ?_⟩
    · rw [expected_advance, acquired_succ c hstage]
      exact fun x hx => List.mem_append_left _ (hsub hx)
    · rw [expected_advance]
      exact acquired_nodup c (k + 1)
    · intro hunloading
      rw [isUnloading_advance] at hunloading
      cases hunloading
  | @release r rest pc hat =>
    obtain ⟨hexpected, hnext, hunloading, hloading, hunwinding⟩ := hat.expected (c := c)
    have hsub := h.held_sub
    have hnodup := h.expected_nodup
    rw [hexpected] at hsub hnodup
    refine ⟨?_, h.held_nodup.erase r, ?_, fun j hj => absurd hj ((hloading j).2 rest), ?_, ?_⟩
    · rw [hnext]
      intro x hx
      obtain ⟨hne, hx⟩ := (h.held_nodup.mem_erase_iff).mp hx
      exact (List.mem_cons.mp (hsub hx)).resolve_left hne
    · rw [hnext]
      exact (List.nodup_cons.mp hnodup).2
    · intro rest' hr
      obtain ⟨hpc, rfl⟩ := hunwinding rest rest' hr
      obtain ⟨k, hk, hrest⟩ := h.unwinding _ hpc
      exact ⟨k, hk, fun x hx => hrest (List.mem_cons_of_mem r hx)⟩
    · rw [hunloading]
      exact h.quiet
  | «return» hat =>
    have hsub := h.held_sub
    rw [(hat.expected (c := c)).1] at hsub
    exact ⟨hsub, h.held_nodup, List.nodup_nil, nofun, nofun, nofun⟩
  | enter hin hstay =>
    refine ⟨h.held_sub, h.held_nodup, h.expected_nodup, h.loading, h.unwinding, ?_⟩
    intro hunloading
    rw [hstay] at hunloading
    cases hunloading
  | use hsome => exact h
  | leave hsome =>
    refine ⟨h.held_sub, h.held_nodup, h.expected_nodup, h.loading, h.unwinding, ?_⟩
    intro hunloading
    have hquiet := h.quiet hunloading
    show s.clients - 1 = 0
    omega
  | unload hpc hnone =>
    have hsub := h.held_sub
    rw [hpc] at hsub
    refine ⟨?_, h.held_nodup, ?_, nofun, nofun, fun _ => hnone⟩
    · exact fun x hx => c.teardown_perm.mem_iff.mpr (hsub hx)
    · exact c.teardown_perm.nodup_iff.mpr c.nodup

/-! ## Sound states -/

omit [DecidableEq R] in
theorem sound_start : Sound c start where
  inv := inv_start
  expected_sub := List.Subset.refl _
  clients := Or.inl rfl

omit [DecidableEq R] in
theorem Sound.clients_of {pc : Pc R} (h : Sound c s) (hpc : s.pc = pc) (hne : pc ≠ .up) :
    s.clients = 0 := by
  rcases h.clients with hnone | hup
  · exact hnone
  · exact absurd (hpc.symm.trans hup) hne

/-- A good step from a sound state releases what is held, and a client finds what it needs. -/
theorem Sound.ok (h : Sound c s) (hmove : Moves c s a t os) : ∀ e ∈ os, e.Ok := by
  cases hmove with
  | @acquire k stage hpc hstage =>
    intro e he
    obtain ⟨r, -, rfl⟩ := List.mem_map.mp he
    trivial
  | @release r rest pc hat =>
    intro e he
    rw [List.mem_singleton.mp he]
    have hheld := h.expected_sub
    rw [(hat.expected (c := c)).1] at hheld
    exact decide_eq_true (hheld (List.mem_cons_self ..))
  | use hsome =>
    intro e he
    rw [List.mem_singleton.mp he]
    have hup : s.pc = .up := h.clients.resolve_left (by omega)
    have hheld := h.expected_sub
    rw [hup] at hheld
    exact decide_eq_true (fun x hx => hheld (c.needs_sub hx))
  | _ => exact fun e he => absurd he List.not_mem_nil

/-- From a sound state, the good steps are those that lead to sound states. -/
theorem Sound.good_iff (h : Sound c s) (hmove : Moves c s a t os) : Good c s a ↔ Sound c t := by
  have hinv := inv_moves h.inv hmove
  have hheld := h.expected_sub
  cases hmove with
  | load hpc hnone =>
    exact iff_of_true trivial ⟨hinv, List.nil_subset _, Or.inl hnone⟩
  | @acquire k stage hpc hstage =>
    rw [hpc] at hheld
    refine iff_of_true trivial ⟨hinv, ?_, Or.inl (h.clients_of hpc nofun)⟩
    rw [expected_advance, acquired_succ c hstage]
    exact List.append_subset.mpr ⟨fun x hx => List.mem_append_left _ (hheld hx),
      List.subset_append_right ..⟩
  | @fail k stage hpc hstage hnotice =>
    rw [hpc] at hheld
    refine iff_of_true ?_ ⟨hinv, ?_, Or.inl (h.clients_of hpc nofun)⟩
    · intro j stage' hj hstage'
      rw [hpc] at hj
      cases hj
      rw [hstage] at hstage'
      cases hstage'
      exact Or.inr hnotice
    · show stage.undo ⊆ s.held
      rw [undo_of c hstage]
      exact fun x hx => hheld (List.mem_reverse.mp hx)
  | @miss k stage hpc hstage hmiss =>
    rw [hpc] at hheld
    constructor
    · intro hgood
      rcases hgood k stage hpc hstage with hnone | hnotice
      · refine ⟨hinv, ?_, Or.inl (h.clients_of hpc nofun)⟩
        rw [expected_advance, acquired_succ c hstage, hnone]
        exact fun x hx => hheld ((List.mem_append.mp hx).resolve_right List.not_mem_nil)
      · exact absurd hnotice hmiss
    · intro hsound j stage' hj hstage'
      rw [hpc] at hj
      cases hj
      rw [hstage] at hstage'
      cases hstage'
      left
      cases hr : stage.resource with
      | none => rfl
      | some r =>
        -- the resource of the stage is missing
        have hexpected := hsound.expected_sub
        rw [expected_advance, acquired_succ c hstage, hr] at hexpected
        have hmem : r ∈ s.held :=
          hexpected (List.mem_append_right _ (List.mem_singleton_self r))
        have hsub := h.inv.held_sub
        rw [hpc] at hsub
        have hnodup := acquired_nodup c (k + 1)
        rw [acquired_succ c hstage, hr] at hnodup
        exact absurd rfl ((List.nodup_append.mp hnodup).2.2 r (hsub hmem) r
          (List.mem_singleton_self r))
  | @release r rest pc hat =>
    obtain ⟨hexpected, hnext, -, -, -⟩ := hat.expected (c := c)
    have hnodup := h.inv.expected_nodup
    rw [hexpected] at hheld hnodup
    refine iff_of_true trivial ⟨hinv, ?_, Or.inl ?_⟩
    · rw [hnext]
      intro x hx
      apply (h.inv.held_nodup.mem_erase_iff).mpr
      refine ⟨?_, hheld (List.mem_cons_of_mem r hx)⟩
      intro he
      rw [he] at hx
      exact (List.nodup_cons.mp hnodup).1 hx
    · refine h.clients.resolve_right ?_
      intro hup
      rw [hup] at hat
      cases hat
  | «return» hat =>
    refine iff_of_true trivial ⟨hinv, List.nil_subset _, Or.inl ?_⟩
    refine h.clients.resolve_right ?_
    intro hup
    rw [hup] at hat
    cases hat
  | enter hin hstay =>
    constructor
    · intro hup
      exact ⟨hinv, hheld, Or.inr hup⟩
    · intro hsound
      refine hsound.clients.resolve_left ?_
      exact Nat.succ_ne_zero _
  | use hsome => exact iff_of_true trivial h
  | leave hsome =>
    have hup : s.pc = .up := h.clients.resolve_left (by omega)
    exact iff_of_true trivial ⟨hinv, hheld, Or.inr hup⟩
  | unload hpc hnone =>
    rw [hpc] at hheld
    refine iff_of_true trivial ⟨hinv, ?_, Or.inl hnone⟩
    exact fun x hx => hheld (c.teardown_perm.mem_iff.mp hx)

/-- A run of good steps keeps the state sound, and every release and use in it is in order. -/
theorem sound_of_run {as : List Act} (hgood : Machine.Meets (step c) (Good c) s as)
    (hs : Sound c s) (hrun : Machine.run (step c) s as = some (t, os)) :
    Sound c t ∧ ∀ e ∈ os, e.Ok := by
  refine Machine.meets_induction (P := fun os t => Sound c t ∧ ∀ e ∈ os, e.Ok)
    ⟨hs, fun e he => absurd he List.not_mem_nil⟩ ?_ hgood hrun
  intro os u a v os' hu ha hstep
  have hmove := step_moves c hstep
  refine ⟨(hu.1.good_iff hmove).mp ha, ?_⟩
  intro e he
  rcases List.mem_append.mp he with he | he
  · exact hu.2 e he
  · exact hu.1.ok hmove e he

/-- The runs of good steps are those all of whose states are sound. -/
theorem good_iff_always_sound {as : List Act}
    (hrun : Machine.run (step c) start as = some (t, os)) :
    Machine.Meets (step c) (Good c) start as ↔
      Machine.Always (step c) (fun _ u => Sound c u) start as :=
  Machine.meets_iff_always sound_start
    (fun _ _ _ _ _ hu hstep => hu.good_iff (step_moves c hstep)) hrun

/-! ## States that are not sound -/

theorem meets_of_forall {as : List Act} (h : ∀ a ∈ as, ∀ u, Good c u a) (s : State R) :
    Machine.Meets (step c) (Good c) s as := by
  induction as generalizing s with
  | nil => trivial
  | cons a as ih =>
    exact ⟨h a (List.mem_cons_self ..) s,
      fun t _ _ => ih (fun b hb => h b (List.mem_cons_of_mem a hb)) t⟩

/-- A state from which good steps lead to a release or a use that is not in order. -/
def Doomed (c : Component R) (s : State R) : Prop :=
  ∃ as t os, Machine.Meets (step c) (Good c) s as ∧
    Machine.run (step c) s as = some (t, os) ∧ ∃ e ∈ os, ¬e.Ok

theorem Doomed.of_run {as : List Act} (hgood : Machine.Meets (step c) (Good c) s as)
    (hrun : Machine.run (step c) s as = some (t, os)) (h : Doomed c t) : Doomed c s := by
  obtain ⟨bs, u, os', hgood', hrun', e, he, hbad⟩ := h
  exact ⟨as ++ bs, u, os ++ os', (Machine.meets_append_iff hrun).mpr ⟨hgood, hgood'⟩,
    Machine.run_append_eq_some.mpr ⟨t, os, os', hrun, hrun', rfl⟩, e,
    List.mem_append_right _ he, hbad⟩

theorem doomed_of_step (hgood : Good c s a) (hstep : step c s a = some (t, os))
    (h : Doomed c t) : Doomed c s :=
  have hmeets : Machine.Meets (step c) (Good c) s [a] := ⟨hgood, fun _ _ _ => trivial⟩
  Doomed.of_run hmeets (Machine.run_single hstep) h

theorem step_release {r : R} {rest : List R} {next : List R → Pc R}
    (hat : s.pc.Releases (r :: rest) next) :
    step c s .release = some ({ s with pc := next rest, held := s.held.erase r },
      [.released r (decide (r ∈ s.held))]) := by
  generalize hpc : s.pc = pc at hat
  cases hat with
  | unwinding => simp only [step, hpc]
  | unloading => simp only [step, hpc]

/-- All that is left is released, and nothing of it is held after that. -/
theorem release_all {rest : List R} {next : List R → Pc R} (hat : s.pc.Releases rest next)
    (hnodup : rest.Nodup) (hheld : s.held.Nodup) :
    ∃ held os, Machine.run (step c) s (List.replicate rest.length .release) =
        some ({ s with pc := next [], held }, os) ∧
      (∀ x ∈ held, x ∈ s.held ∧ x ∉ rest) ∧
      ∀ r ∈ rest, .released r (decide (r ∈ s.held)) ∈ os := by
  induction rest generalizing s with
  | nil =>
    refine ⟨s.held, [], ?_, fun x hx => ⟨hx, List.not_mem_nil⟩,
      fun r hr => absurd hr List.not_mem_nil⟩
    rw [← hat.eq.1]
    rfl
  | cons r rest ih =>
    obtain ⟨hr, hnodup⟩ := List.nodup_cons.mp hnodup
    have hstep : step c s .release = some ({ s with pc := next rest, held := s.held.erase r },
        [.released r (decide (r ∈ s.held))]) :=
      step_release hat
    obtain ⟨held, os, hrun, hleft, hevents⟩ := ih
      (s := { s with pc := next rest, held := s.held.erase r }) (hat.eq.2 rest) hnodup
      (hheld.erase r)
    refine ⟨held, .released r (decide (r ∈ s.held)) :: os, ?_, ?_, ?_⟩
    · exact Machine.run_cons_eq_some.mpr ⟨_, _, os, hstep, hrun, rfl⟩
    · intro x hx
      obtain ⟨herase, hrest⟩ := hleft x hx
      obtain ⟨hne, hmem⟩ := (hheld.mem_erase_iff).mp herase
      exact ⟨hmem, fun hin => (List.mem_cons.mp hin).elim hne hrest⟩
    · intro x hx
      rcases List.mem_cons.mp hx with rfl | hx
      · exact List.mem_cons_self ..
      · have hne : x ≠ r := fun he => hr (he ▸ hx)
        have hsame : decide (x ∈ s.held.erase r) = decide (x ∈ s.held) :=
          decide_eq_decide.mpr (List.mem_erase_of_ne hne)
        rw [← hsame]
        exact List.mem_cons_of_mem _ (hevents x hx)

theorem doomed_of_missing_release {rest : List R} {next : List R → Pc R} (h : Inv c s)
    (hat : s.pc.Releases rest next) {r : R} (hr : r ∈ rest) (hmissing : r ∉ s.held) :
    Doomed c s := by
  have hnodup := h.expected_nodup
  rw [(hat.expected (c := c)).1] at hnodup
  obtain ⟨held, os, hrun, -, hevents⟩ := release_all (c := c) hat hnodup h.held_nodup
  refine ⟨_, _, os, meets_of_forall ?_ s, hrun, _, hevents r hr, ?_⟩
  · intro a ha u
    rw [List.eq_of_mem_replicate ha]
    trivial
  · intro hok
    have hok : decide (r ∈ s.held) = true := hok
    exact hmissing (of_decide_eq_true hok)

/-- The clients that are in leave. -/
theorem leave_all (n : Nat) (hn : s.clients = n) :
    Machine.run (step c) s (List.replicate n .leave) = some ({ s with clients := 0 }, []) := by
  induction n generalizing s with
  | zero =>
    obtain ⟨pc, held, clients⟩ := s
    have hn : clients = 0 := hn
    rw [hn]
    rfl
  | succ n ih =>
    have hstep : step c s .leave = some ({ s with clients := s.clients - 1 }, []) :=
      if_pos (by omega)
    have hrest := ih (s := { s with clients := s.clients - 1 })
      (show s.clients - 1 = n by omega)
    exact Machine.run_cons_eq_some.mpr ⟨_, _, _, hstep, hrest, rfl⟩

theorem doomed_of_missing_up (h : Inv c s) (hpc : s.pc = .up) {r : R}
    (hr : r ∈ acquired c.stages c.stages.length) (hmissing : r ∉ s.held) : Doomed c s := by
  have hleave := leave_all (c := c) s.clients rfl
  have hgood : Machine.Meets (step c) (Good c) s (List.replicate s.clients .leave) := by
    apply meets_of_forall
    intro a ha u
    rw [List.eq_of_mem_replicate ha]
    trivial
  have hinv : Inv c { s with clients := 0 } :=
    ⟨h.held_sub, h.held_nodup, h.expected_nodup, h.loading, h.unwinding, fun _ => rfl⟩
  have hunload : step c { s with clients := 0 } .unload =
      some ({ s with clients := 0, pc := .unloading c.teardown }, []) := if_pos ⟨hpc, rfl⟩
  refine Doomed.of_run hgood hleave (doomed_of_step (a := .unload) trivial hunload ?_)
  exact doomed_of_missing_release (inv_moves hinv (step_moves c hunload)) (.unloading c.teardown)
    (c.teardown_perm.mem_iff.mpr hr) hmissing

/-- The next `n` stages succeed; what was missing is still missing. -/
theorem climb {k : Nat} (hpc : s.pc = .loading k) (n : Nat) (hn : k + n < c.stages.length) :
    ∃ held os, Machine.run (step c) s (List.replicate n (.call true)) =
        some ({ s with pc := .loading (k + n), held }, os) ∧
      ∀ r ∈ acquired c.stages k, r ∉ s.held → r ∉ held := by
  induction n generalizing s k with
  | zero =>
    refine ⟨s.held, [], ?_, fun r _ hr => hr⟩
    rw [Nat.add_zero, ← hpc]
    rfl
  | succ n ih =>
    obtain ⟨stage, hstage⟩ : ∃ stage, c.stages[k]? = some stage :=
      ⟨_, List.getElem?_eq_getElem (by omega)⟩
    have hnext : advance c k = .loading (k + 1) := if_neg (by omega)
    have hstep : step c s (.call true) =
        some ({ s with pc := .loading (k + 1), held := s.held ++ stage.resource.toList },
          stage.resource.toList.map .acquired) := by
      simp only [step, hpc, hstage]
      rw [hnext]
      rfl
    obtain ⟨held, os, hrun, hmissing⟩ := ih
      (s := { s with pc := .loading (k + 1), held := s.held ++ stage.resource.toList }) rfl
      (by omega)
    refine ⟨held, _, Machine.run_cons_eq_some.mpr ⟨_, _, os, hstep, ?_, rfl⟩, ?_⟩
    · rw [hrun, Nat.add_assoc, Nat.add_comm 1 n]
    · intro r hr hout
      have hnodup := acquired_nodup c (k + 1)
      rw [acquired_succ c hstage] at hnodup
      refine hmissing r ?_ ?_
      · rw [acquired_succ c hstage]
        exact List.mem_append_left _ hr
      · intro hin
        rcases List.mem_append.mp hin with hin | hin
        · exact hout hin
        · exact (List.nodup_append.mp hnodup).2.2 r hr r hin rfl

/-- The stages succeed up to the last one. -/
theorem climb_last (h : Inv c s) {k : Nat} (hpc : s.pc = .loading k) :
    ∃ held, Inv c { s with pc := .loading (c.stages.length - 1), held } ∧
      (∀ r ∈ acquired c.stages k, r ∉ s.held → r ∉ held) ∧
      (Doomed c { s with pc := .loading (c.stages.length - 1), held } → Doomed c s) := by
  have hk := h.loading k hpc
  obtain ⟨held, os, hrun, hmissing⟩ :=
    climb (c := c) hpc (c.stages.length - 1 - k) (by omega)
  rw [show k + (c.stages.length - 1 - k) = c.stages.length - 1 by omega] at hrun
  refine ⟨held, ?_, hmissing, Doomed.of_run ?_ hrun⟩
  · exact Machine.run_invariant (fun _ _ _ _ hu hstep => inv_moves hu (step_moves c hstep)) h hrun
  · apply meets_of_forall
    intro a ha u
    rw [List.eq_of_mem_replicate ha]
    trivial

/-- The last stage succeeds or fails. -/
theorem step_last {last : Stage R} (hpc : s.pc = .loading (c.stages.length - 1))
    (hlast : c.stages[c.stages.length - 1]? = some last) (hnotice : last.test = last.reports) :
    step c s (.call true) =
        some ({ s with pc := .up, held := s.held ++ last.resource.toList },
          last.resource.toList.map .acquired) ∧
      step c s (.call false) = some ({ s with pc := .unwinding last.undo }, []) := by
  have hlength : c.stages.length - 1 + 1 = c.stages.length := by
    have hpos := List.length_pos_of_ne_nil c.stages_ne
    omega
  have hup : advance c (c.stages.length - 1) = .up := if_pos hlength
  constructor
  · simp only [step, hpc, hlast]
    rw [hup]
    rfl
  · simp only [step, hpc, hlast]
    exact if_pos hnotice

/-- A client that finds nothing held. -/
theorem doomed_of_client_outside (hheld : s.held = []) (hin : 0 < s.clients) : Doomed c s := by
  refine ⟨[.use], s, [.used (decide (c.needs ⊆ s.held))], ⟨trivial, fun _ _ _ => trivial⟩,
    Machine.run_single (if_pos hin), _, List.mem_singleton_self _, ?_⟩
  intro hok
  have hsub : c.needs ⊆ s.held := of_decide_eq_true hok
  rw [hheld] at hsub
  exact c.needs_ne (List.subset_nil.mp hsub)

theorem doomed_of_client_release {rest : List R} {next : List R → Pc R} (h : Inv c s)
    (hat : s.pc.Releases rest next) (hin : 0 < s.clients) : Doomed c s := by
  have hnodup := h.expected_nodup
  have hsub := h.held_sub
  rw [(hat.expected (c := c)).1] at hnodup hsub
  obtain ⟨held, os, hrun, hleft, -⟩ := release_all (c := c) hat hnodup h.held_nodup
  refine Doomed.of_run ?_ hrun (doomed_of_client_outside ?_ hin)
  · apply meets_of_forall
    intro a ha u
    rw [List.eq_of_mem_replicate ha]
    trivial
  · apply List.eq_nil_iff_forall_not_mem.mpr
    intro x hx
    obtain ⟨hmem, hout⟩ := hleft x hx
    exact hout (hsub hmem)

variable {last : Stage R}

theorem doomed_of_missing (h : Inv c s)
    (hlast : c.stages[c.stages.length - 1]? = some last) (hnotice : last.test = last.reports)
    {r : R} (hr : r ∈ expected c s.pc) (hmissing : r ∉ s.held) : Doomed c s := by
  cases hpc : s.pc with
  | down =>
    rw [hpc] at hr
    exact absurd hr List.not_mem_nil
  | up =>
    rw [hpc] at hr
    exact doomed_of_missing_up h hpc hr hmissing
  | unwinding rest =>
    rw [hpc] at hr
    have hat : s.pc.Releases rest .unwinding := hpc ▸ Pc.Releases.unwinding rest
    exact doomed_of_missing_release h hat hr hmissing
  | unloading rest =>
    rw [hpc] at hr
    have hat : s.pc.Releases rest .unloading := hpc ▸ Pc.Releases.unloading rest
    exact doomed_of_missing_release h hat hr hmissing
  | loading k =>
    rw [hpc] at hr
    obtain ⟨held, hinv, hstill, hback⟩ := climb_last h hpc
    have hk := h.loading k hpc
    have hbefore : r ∈ acquired c.stages (c.stages.length - 1) := by
      have hsub : (c.stages.take k).Sublist (c.stages.take (c.stages.length - 1)) :=
        List.take_sublist_take_left (by omega)
      exact (hsub.filterMap Stage.resource).subset hr
    have hstep := (step_last (c := c)
      (s := { s with pc := .loading (c.stages.length - 1), held }) rfl hlast hnotice).1
    have hall := acquired_succ c hlast
    have hlength : c.stages.length - 1 + 1 = c.stages.length := by omega
    rw [hlength] at hall
    refine hback (doomed_of_step (a := .call true) trivial hstep
      (doomed_of_missing_up (r := r) (inv_moves hinv (step_moves c hstep)) rfl ?_ ?_))
    · rw [hall]
      exact List.mem_append_left _ hbefore
    · intro hin
      have hnodup := c.nodup
      rw [hall] at hnodup
      rcases List.mem_append.mp hin with hin | hin
      · exact hstill r hr hmissing hin
      · exact (List.nodup_append.mp hnodup).2.2 r hbefore r hin rfl

theorem doomed_of_client (h : Inv c s)
    (hlast : c.stages[c.stages.length - 1]? = some last) (hnotice : last.test = last.reports)
    (hin : 0 < s.clients) (hpc : s.pc ≠ .up) : Doomed c s := by
  cases hat : s.pc with
  | down =>
    have hsub := h.held_sub
    rw [hat] at hsub
    exact doomed_of_client_outside (List.subset_nil.mp hsub) hin
  | up => exact absurd hat hpc
  | unwinding rest =>
    have hrest : s.pc.Releases rest .unwinding := hat ▸ Pc.Releases.unwinding rest
    exact doomed_of_client_release h hrest hin
  | unloading rest =>
    have hquiet := h.quiet (by rw [hat]; rfl)
    omega
  | loading k =>
    obtain ⟨held, hinv, -, hback⟩ := climb_last h hat
    have hstep := (step_last (c := c)
      (s := { s with pc := .loading (c.stages.length - 1), held }) rfl hlast hnotice).2
    refine hback (doomed_of_step (a := .call false) ?_ hstep
      (doomed_of_client_release (inv_moves hinv (step_moves c hstep))
        (.unwinding last.undo) hin))
    intro k stage hk hstage
    cases hk
    rw [hlast] at hstage
    cases hstage
    exact Or.inr hnotice

/-- With a last stage that notices its failure, the sound states are those from which good
steps never lead to a release or a use that is not in order. -/
theorem sound_iff (hlast : c.stages[c.stages.length - 1]? = some last)
    (hnotice : last.test = last.reports) (h : Inv c s) : Sound c s ↔ ¬Doomed c s := by
  constructor
  · rintro hs ⟨as, t, os, hgood, hrun, e, he, hbad⟩
    exact hbad ((sound_of_run hgood hs hrun).2 e he)
  · intro hsafe
    refine ⟨h, ?_, ?_⟩
    · intro r hr
      by_cases hheld : r ∈ s.held
      · exact hheld
      · exact absurd (doomed_of_missing h hlast hnotice hr hheld) hsafe
    · by_cases hin : s.clients = 0
      · exact Or.inl hin
      · by_cases hpc : s.pc = .up
        · exact Or.inr hpc
        · exact absurd (doomed_of_client h hlast hnotice (by omega) hpc) hsafe

theorem inv_of_run {as : List Act} (hrun : Machine.run (step c) start as = some (t, os)) :
    Inv c t :=
  Machine.run_invariant (fun _ _ _ _ hu hstep => inv_moves hu (step_moves c hstep)) inv_start hrun

/-- Where the published resource is the last one acquired, clients enter only when the
component is up. -/
theorem enter_up (hlast : ∀ k < c.stages.length, c.published ∉ acquired c.stages k)
    (h : Inv c s) (hstep : step c s .enter = some (t, os)) : s.pc = .up := by
  obtain ⟨⟨hin, hstay⟩, -⟩ := Option.ite_none_right_eq_some.mp hstep
  have hexpected := h.held_sub hin
  cases hpc : s.pc with
  | up => rfl
  | down =>
    rw [hpc] at hexpected
    exact absurd hexpected List.not_mem_nil
  | loading k =>
    rw [hpc] at hexpected
    exact absurd hexpected (hlast k (h.loading k hpc))
  | unwinding rest =>
    obtain ⟨k, hk, hsub⟩ := h.unwinding rest hpc
    rw [hpc] at hexpected
    exact absurd (hsub hexpected) (hlast k hk)
  | unloading rest =>
    rw [hpc] at hstay
    cases hstay

end Lifecycle
end LinuxEmbedded
