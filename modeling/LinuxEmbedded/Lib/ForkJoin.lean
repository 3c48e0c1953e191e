import LinuxEmbedded.Lib.Machine
import Mathlib.Algebra.BigOperators.Group.Finset.Basic
import Mathlib.Algebra.Order.BigOperators.Group.Finset
import Mathlib.Data.Fintype.BigOperators

/-
Programs that start a fixed number of threads and join them.

The main thread creates the threads one after the other, joins them in the same
order and finishes.  A thread is a partial step on its own control state and the
globals; what it waits for is what its step does not enable.
-/
namespace LinuxEmbedded
namespace ForkJoin

variable {n : Nat} {W G A O : Type}

structure Program (n : Nat) (W G A O : Type) where
  entry : Fin n → W
  step : Fin n → A → W → G → Option (W × G × List O)
  returned : W → Bool
  /-- What the main thread does after the last join. -/
  finish : G → Option (List O)

structure State (n : Nat) (W G : Type) where
  /-- The number of calls the main thread has made: creations, joins, the rest. -/
  calls : Nat
  /-- The threads that were created. -/
  threads : Fin n → Option W
  globals : G

def start (g : G) : State n W G := ⟨0, fun _ => none, g⟩

/-- What a thread's change does to a view of all threads. -/
theorem view_update {B : Type} (f : Fin n → Option W → B) (threads : Fin n → Option W)
    (t : Fin n) (w : Option W) :
    (fun t' => f t' (Function.update threads t w t')) =
      Function.update (fun t' => f t' (threads t')) t (f t w) := by
  funext t'
  by_cases ht : t' = t
  · rw [ht, Function.update_self, Function.update_self]
  · rw [Function.update_of_ne ht, Function.update_of_ne ht]

/-- What holds of every thread and of the new state of one. -/
theorem all_update {Local : Fin n → W → Prop} {threads : Fin n → Option W} {t : Fin n} {w : W}
    (h : ∀ t w, threads t = some w → Local t w) (hw : Local t w) :
    ∀ t' w', Function.update threads t (some w) t' = some w' → Local t' w' := by
  intro t' w' hw'
  by_cases ht : t' = t
  · rw [ht, Function.update_self] at hw'
    rw [ht, ← Option.some.inj hw']
    exact hw
  · rw [Function.update_of_ne ht] at hw'
    exact h t' w' hw'

inductive Act (n : Nat) (A : Type) where
  | main
  | thread (t : Fin n) (a : A)

namespace Program

variable (P : Program n W G A O)

def mainStep (s : State n W G) : Option (State n W G × List O) :=
  if h : s.calls < n then
    some ({ s with
      calls := s.calls + 1
      threads := Function.update s.threads ⟨s.calls, h⟩ (some (P.entry ⟨s.calls, h⟩)) }, [])
  else if h : s.calls - n < n then
    if (s.threads ⟨s.calls - n, h⟩).any P.returned then
      some ({ s with calls := s.calls + 1 }, [])
    else none
  else if s.calls = 2 * n then
    (P.finish s.globals).map fun os => ({ s with calls := s.calls + 1 }, os)
  else none

def threadStep (s : State n W G) (t : Fin n) (a : A) : Option (State n W G × List O) := do
  let w ← s.threads t
  if P.returned w then none
  else
    let (w, globals, os) ← P.step t a w s.globals
    some ({ s with threads := Function.update s.threads t (some w), globals }, os)

def next (s : State n W G) : Act n A → Option (State n W G × List O)
  | .main => P.mainStep s
  | .thread t a => P.threadStep s t a

/-- The main thread is through. -/
def Done (s : State n W G) : Prop := s.calls = 2 * n + 1

/-- Every thread was created and has returned. -/
def AllReturned (threads : Fin n → Option W) : Prop :=
  ∀ t, ∃ w, threads t = some w ∧ P.returned w = true

/-! ## What one step can do -/

inductive Moves (s : State n W G) : Act n A → State n W G → List O → Prop where
  | create (h : s.calls < n) :
    Moves s .main { s with
      calls := s.calls + 1
      threads := Function.update s.threads ⟨s.calls, h⟩ (some (P.entry ⟨s.calls, h⟩)) } []
  | join (h : s.calls - n < n) (hn : n ≤ s.calls)
      (returned : ∃ w, s.threads ⟨s.calls - n, h⟩ = some w ∧ P.returned w = true) :
    Moves s .main { s with calls := s.calls + 1 } []
  | finish {os} (h : s.calls = 2 * n) (call : P.finish s.globals = some os) :
    Moves s .main { s with calls := s.calls + 1 } os
  | thread {t a w w' g os} (at_ : s.threads t = some w) (live : P.returned w = false)
      (call : P.step t a w s.globals = some (w', g, os)) :
    Moves s (.thread t a)
      { s with threads := Function.update s.threads t (some w'), globals := g } os

theorem moves_of_step {s u : State n W G} {a : Act n A} {os : List O}
    (h : P.next s a = some (u, os)) : P.Moves s a u os := by
  cases a with
  | main =>
    simp only [next, mainStep] at h
    by_cases hc : s.calls < n
    · rw [dif_pos hc] at h
      obtain ⟨rfl, rfl⟩ := Prod.mk.inj (Option.some.inj h)
      exact .create hc
    · rw [dif_neg hc] at h
      by_cases hj : s.calls - n < n
      · rw [dif_pos hj] at h
        obtain ⟨hany, h⟩ := Option.ite_none_right_eq_some.mp h
        obtain ⟨rfl, rfl⟩ := Prod.mk.inj (Option.some.inj h)
        exact .join hj (by omega) ((Option.any_eq_true _ _).mp hany)
      · rw [dif_neg hj] at h
        obtain ⟨hf, h⟩ := Option.ite_none_right_eq_some.mp h
        obtain ⟨os', hcall, h⟩ := Option.map_eq_some_iff.mp h
        obtain ⟨rfl, rfl⟩ := Prod.mk.inj h
        exact .finish hf hcall
  | thread t a =>
    obtain ⟨w, hw, h⟩ := Option.bind_eq_some_iff.mp h
    obtain ⟨hlive, h⟩ := Option.ite_none_left_eq_some.mp h
    obtain ⟨⟨w', g, os'⟩, hcall, h⟩ := Option.bind_eq_some_iff.mp h
    obtain ⟨rfl, rfl⟩ := Prod.mk.inj (Option.some.inj h)
    exact .thread hw (by simpa using hlive) hcall

/-! ## Invariants -/

/-- The threads there are, and those that were joined. -/
structure Shaped (s : State n W G) : Prop where
  created : ∀ t, (s.threads t).isSome = true ↔ t.val < s.calls
  joined : ∀ t : Fin n, t.val + n < s.calls → ∃ w, s.threads t = some w ∧ P.returned w = true
  bound : s.calls ≤ 2 * n + 1

theorem shaped_start (g : G) : P.Shaped (start g) where
  created _ := ⟨fun h => (nomatch h), fun h => absurd h (Nat.not_lt_zero _)⟩
  joined _ h := absurd h (Nat.not_lt_zero _)
  bound := Nat.zero_le _

variable {P}

theorem Shaped.step {s u : State n W G} {a : Act n A} {os : List O} (h : P.Shaped s)
    (hmove : P.Moves s a u os) : P.Shaped u := by
  cases hmove with
  | create hc =>
    refine ⟨?_, ?_, ?_⟩
    · intro t
      show (Function.update s.threads _ _ t).isSome = true ↔ t.val < s.calls + 1
      by_cases ht : t = ⟨s.calls, hc⟩
      · rw [ht, Function.update_self]
        simp
      · have hne : t.val ≠ s.calls := fun he => ht (Fin.ext he)
        rw [Function.update_of_ne ht, h.created t]
        omega
    · intro t ht
      have ht : t.val + n < s.calls + 1 := ht
      omega
    · show s.calls + 1 ≤ 2 * n + 1
      omega
  | join hj hn hreturned =>
    refine ⟨?_, ?_, ?_⟩
    · intro t
      show (s.threads t).isSome = true ↔ t.val < s.calls + 1
      rw [h.created t]
      have := t.isLt
      omega
    · intro t ht
      have ht : t.val + n < s.calls + 1 := ht
      by_cases hlast : t = ⟨s.calls - n, hj⟩
      · rw [hlast]
        exact hreturned
      · have hne : t.val ≠ s.calls - n := fun he => hlast (Fin.ext he)
        exact h.joined t (by omega)
    · show s.calls + 1 ≤ 2 * n + 1
      omega
  | finish hf hcall =>
    refine ⟨?_, ?_, ?_⟩
    · intro t
      show (s.threads t).isSome = true ↔ t.val < s.calls + 1
      rw [h.created t]
      have := t.isLt
      omega
    · intro t _
      have := t.isLt
      exact h.joined t (by omega)
    · show s.calls + 1 ≤ 2 * n + 1
      omega
  | @thread t a w w' g os at_ live call =>
    have hsome : ∀ t', (Function.update s.threads t (some w') t').isSome =
        (s.threads t').isSome := by
      intro t'
      by_cases ht : t' = t
      · rw [ht, Function.update_self, at_]
        rfl
      · rw [Function.update_of_ne ht]
    refine ⟨?_, ?_, h.bound⟩
    · intro t'
      show (Function.update s.threads t (some w') t').isSome = true ↔ t'.val < s.calls
      rw [hsome]
      exact h.created t'
    · intro t' ht'
      obtain ⟨w₁, hw₁, hreturned⟩ := h.joined t' ht'
      have hne : t' ≠ t := by
        rintro rfl
        rw [at_] at hw₁
        obtain rfl := Option.some.inj hw₁
        rw [live] at hreturned
        cases hreturned
      exact ⟨w₁, by rw [← hw₁]; exact Function.update_of_ne hne .., hreturned⟩

/-- After the last join every thread has returned. -/
theorem Shaped.allReturned {s : State n W G} (h : P.Shaped s) (hcalls : 2 * n ≤ s.calls) :
    P.AllReturned s.threads := by
  intro t
  have := t.isLt
  exact h.joined t (by omega)

variable (P)

/-- The labels of a run in which the threads take only labels with `D`. -/
def Allowed (D : A → Prop) : Act n A → Prop
  | .main => True
  | .thread _ a => D a

instance {D : A → Prop} [∀ a, Decidable (D a)] : (a : Act n A) → Decidable (Allowed D a)
  | .main => isTrue trivial
  | .thread _ a => inferInstanceAs (Decidable (D a))

theorem allowed_true (a : Act n A) : Allowed (fun _ => True) a := by
  cases a with
  | main => trivial
  | thread t a => trivial

/-- What creations and thread steps with a label in `D` carry along of the threads, the globals
and the output. -/
structure Carries (D : A → Prop) (J : (Fin n → Option W) → G → List O → Prop) : Prop where
  create : ∀ {threads g os t}, J threads g os → threads t = none →
    J (Function.update threads t (some (P.entry t))) g os
  thread : ∀ {threads g os t a w w' g' os'}, J threads g os → threads t = some w →
    P.returned w = false → D a → P.step t a w g = some (w', g', os') →
    J (Function.update threads t (some w')) g' (os ++ os')

/-- The same, and the end keeps it. -/
structure Keeps (D : A → Prop) (J : (Fin n → Option W) → G → List O → Prop) : Prop
    extends P.Carries D J where
  finish : ∀ {threads g os os'}, J threads g os → P.AllReturned threads →
    P.finish g = some os' → J threads g (os ++ os')

variable {P} {D : A → Prop} {J : (Fin n → Option W) → G → List O → Prop}

theorem Keeps.step (hkeeps : P.Keeps D J) {s u : State n W G} {a : Act n A} {os os' : List O}
    (h : P.Shaped s) (hJ : J s.threads s.globals os) (ha : Allowed D a)
    (hmove : P.Moves s a u os') : J u.threads u.globals (os ++ os') := by
  cases hmove with
  | create hc =>
    have hnone : s.threads ⟨s.calls, hc⟩ = none := by
      rw [← Option.not_isSome_iff_eq_none, h.created]
      exact Nat.lt_irrefl _
    rw [List.append_nil]
    exact hkeeps.create hJ hnone
  | join hj hn hreturned =>
    rw [List.append_nil]
    exact hJ
  | finish hf hcall => exact hkeeps.finish hJ (h.allReturned (Nat.le_of_eq hf.symm)) hcall
  | thread at_ live call => exact hkeeps.thread hJ at_ live ha call

theorem Keeps.run (hkeeps : P.Keeps D J) {g : G} (hstart : J (fun _ => none) g [])
    {as : List (Act n A)} {s : State n W G} {os : List O} (hD : ∀ a ∈ as, Allowed D a)
    (hrun : Machine.run P.next (start g) as = some (s, os)) :
    P.Shaped s ∧ J s.threads s.globals os := by
  refine Machine.run_induction
    (P := fun as os u => (∀ a ∈ as, Allowed D a) → P.Shaped u ∧ J u.threads u.globals os)
    (fun _ => ⟨P.shaped_start g, hstart⟩) ?_ hrun hD
  intro as os u a v os' _ ih hstep hD
  obtain ⟨hshaped, hJ⟩ := ih fun b hb => hD b (List.mem_append_left _ hb)
  have hmove := P.moves_of_step hstep
  have ha := hD a (List.mem_append_right _ (List.mem_singleton_self a))
  exact ⟨hshaped.step hmove, hkeeps.step hshaped hJ ha hmove⟩

/-- Without the output, what is carried along is kept. -/
theorem Carries.keeps (hcarries : P.Carries D J) :
    P.Keeps D fun threads g _ => ∃ os, J threads g os where
  create := fun ⟨os, hJ⟩ hnone => ⟨os, hcarries.create hJ hnone⟩
  thread := fun ⟨_, hJ⟩ hw hlive ha hstep => ⟨_, hcarries.thread hJ hw hlive ha hstep⟩
  finish := fun hJ _ _ => hJ

/-- The output is that of the threads, and then that of the end. -/
theorem Carries.outputs (hcarries : P.Carries D J) {g : G} (hstart : J (fun _ => none) g [])
    {as : List (Act n A)} {s : State n W G} {os : List O} (hD : ∀ a ∈ as, Allowed D a)
    (hrun : Machine.run P.next (start g) as = some (s, os)) :
    P.Shaped s ∧ ∃ os₀ os₁, os = os₀ ++ os₁ ∧ J s.threads s.globals os₀ ∧
      (s.calls ≤ 2 * n → os₁ = []) ∧ (Done s → P.finish s.globals = some os₁) := by
  refine Machine.run_induction (P := fun as os u => (∀ a ∈ as, Allowed D a) →
    P.Shaped u ∧ ∃ os₀ os₁, os = os₀ ++ os₁ ∧ J u.threads u.globals os₀ ∧
      (u.calls ≤ 2 * n → os₁ = []) ∧ (Done u → P.finish u.globals = some os₁))
    (fun _ => ⟨P.shaped_start g, [], [], rfl, hstart, fun _ => rfl, fun h => (nomatch h)⟩)
    ?_ hrun hD
  intro as os u a v os' _ ih hstep hD
  obtain ⟨hshaped, os₀, os₁, rfl, hJ, hbefore, hdone⟩ :=
    ih fun b hb => hD b (List.mem_append_left _ hb)
  have hmove := P.moves_of_step hstep
  refine ⟨hshaped.step hmove, ?_⟩
  cases hmove with
  | create hc =>
    have hnone : u.threads ⟨u.calls, hc⟩ = none := by
      rw [← Option.not_isSome_iff_eq_none, hshaped.created]
      exact Nat.lt_irrefl _
    refine ⟨os₀, [], by rw [hbefore (by omega), List.append_nil], hcarries.create hJ hnone,
      fun _ => rfl, fun h => ?_⟩
    have h : u.calls + 1 = 2 * n + 1 := h
    omega
  | join hj hn hreturned =>
    refine ⟨os₀, [], by rw [hbefore (by omega), List.append_nil], hJ, fun _ => rfl, fun h => ?_⟩
    have h : u.calls + 1 = 2 * n + 1 := h
    omega
  | finish hf hcall =>
    refine ⟨os₀, os', by rw [hbefore (Nat.le_of_eq hf), List.append_nil], hJ, fun h => ?_,
      fun _ => hcall⟩
    have h : u.calls + 1 ≤ 2 * n := h
    omega
  | @thread t a w w' g os' at_ live call =>
    -- after the joins no thread can go on
    have hcalls : u.calls < 2 * n := by
      by_contra hover
      obtain ⟨w₁, hw₁, hreturned⟩ := hshaped.allReturned (Nat.le_of_not_lt hover) t
      rw [at_] at hw₁
      obtain rfl := Option.some.inj hw₁
      rw [live] at hreturned
      cases hreturned
    have ha := hD (.thread t a) (List.mem_append_right _ (List.mem_singleton_self _))
    refine ⟨os₀ ++ os', [], by rw [hbefore (by omega), List.append_nil, List.append_nil],
      hcarries.thread hJ at_ live ha call, fun _ => rfl, fun h => ?_⟩
    have h : u.calls = 2 * n + 1 := h
    omega

/-- Of threads that put out nothing, the output is that of the end. -/
theorem outputs_of_silent {g : G} {as : List (Act n A)} {s : State n W G} {os : List O}
    (hsilent : ∀ {t a w g w' g' os}, P.step t a w g = some (w', g', os) → os = [])
    (hrun : Machine.run P.next (start g) as = some (s, os)) :
    (s.calls ≤ 2 * n → os = []) ∧ (Done s → P.finish s.globals = some os) := by
  have hcarries : P.Carries (fun _ => True) fun _ _ os => os = [] :=
    ⟨fun h _ => h, fun h _ _ _ hstep => by rw [h, hsilent hstep, List.append_nil]⟩
  obtain ⟨-, os₀, os₁, rfl, hnil, hends⟩ :=
    hcarries.outputs rfl (fun a _ => allowed_true a) hrun
  rw [hnil, List.nil_append]
  exact hends

/-! ## Progress and termination -/

/-- Some thread can take a step with a label in `D`. -/
def CanGo (P : Program n W G A O) (D : A → Prop) (threads : Fin n → Option W) (g : G) : Prop :=
  ∃ t a w r, D a ∧ threads t = some w ∧ P.returned w = false ∧ P.step t a w g = some r

/-- The main thread waits only for a thread that has not returned. -/
theorem exists_step {s : State n W G} (h : P.Shaped s)
    (hthread : ∀ t w, s.threads t = some w → P.returned w = false →
      CanGo P D s.threads s.globals)
    (hfinish : P.AllReturned s.threads → (P.finish s.globals).isSome = true) (hnot : ¬Done s) :
    ∃ a r, Allowed D a ∧ P.next s a = some r := by
  by_cases hc : s.calls < n
  · exact ⟨.main, _, trivial, dif_pos hc⟩
  by_cases hj : s.calls - n < n
  · have hsome := (h.created ⟨s.calls - n, hj⟩).mpr (show s.calls - n < s.calls by omega)
    obtain ⟨w, hw⟩ := Option.isSome_iff_exists.mp hsome
    by_cases hreturned : P.returned w = true
    · refine ⟨.main, ({ s with calls := s.calls + 1 }, []), trivial, ?_⟩
      show P.mainStep s = _
      rw [mainStep, dif_neg hc, dif_pos hj, hw, if_pos (by simpa using hreturned)]
    · obtain ⟨t', a, w', r, ha, hw', hlive', hcall⟩ := hthread _ w hw (by simpa using hreturned)
      refine ⟨.thread t' a, ({ s with
        threads := Function.update s.threads t' (some r.1), globals := r.2.1 }, r.2.2), ha, ?_⟩
      show P.threadStep s t' a = _
      simp [threadStep, hw', hlive', hcall]
  · have hbound := h.bound
    have hf : s.calls = 2 * n := by
      have hne : s.calls ≠ 2 * n + 1 := hnot
      omega
    obtain ⟨os, hos⟩ := Option.isSome_iff_exists.mp
      (hfinish (h.allReturned (Nat.le_of_eq hf.symm)))
    refine ⟨.main, ({ s with calls := s.calls + 1 }, os), trivial, ?_⟩
    show P.mainStep s = _
    rw [mainStep, dif_neg hc, dif_neg hj, if_pos hf, hos]
    rfl

/-- While a thread has not returned, some thread can go on; and the end can be taken. -/
structure Live (P : Program n W G A O) (D : A → Prop)
    (J : (Fin n → Option W) → G → List O → Prop) : Prop where
  thread : ∀ {threads g os t w}, J threads g os → threads t = some w → P.returned w = false →
    CanGo P D threads g
  finish : ∀ {threads g os}, J threads g os → P.AllReturned threads →
    (P.finish g).isSome = true

/-- `rank` bounds what the threads have left to do. -/
structure Ranked (P : Program n W G A O) (D : A → Prop)
    (J : (Fin n → Option W) → G → List O → Prop) (rank : (Fin n → Option W) → G → Nat) : Prop where
  create : ∀ {threads g os t}, J threads g os → threads t = none →
    rank (Function.update threads t (some (P.entry t))) g ≤ rank threads g
  thread : ∀ {threads g os t a w w' g' os'}, J threads g os → threads t = some w →
    P.returned w = false → D a → P.step t a w g = some (w', g', os') →
    rank (Function.update threads t (some w')) g' < rank threads g

/-- The steps that are left. -/
def left (rank : (Fin n → Option W) → G → Nat) (s : State n W G) : Nat :=
  2 * n + 1 - s.calls + rank s.threads s.globals

variable {rank : (Fin n → Option W) → G → Nat}

theorem Ranked.left_lt (hranked : Ranked P D J rank) {s u : State n W G} {a : Act n A}
    {os os' : List O} (h : P.Shaped s) (hJ : J s.threads s.globals os) (ha : Allowed D a)
    (hmove : P.Moves s a u os') : left rank u < left rank s := by
  cases hmove with
  | create hc =>
    have hnone : s.threads ⟨s.calls, hc⟩ = none := by
      rw [← Option.not_isSome_iff_eq_none, h.created]
      exact Nat.lt_irrefl _
    have hle := hranked.create hJ hnone
    show 2 * n + 1 - (s.calls + 1) +
        rank (Function.update s.threads ⟨s.calls, hc⟩ (some (P.entry ⟨s.calls, hc⟩))) s.globals <
      2 * n + 1 - s.calls + rank s.threads s.globals
    omega
  | join hj hn hreturned =>
    show 2 * n + 1 - (s.calls + 1) + rank s.threads s.globals <
      2 * n + 1 - s.calls + rank s.threads s.globals
    omega
  | finish hf hcall =>
    show 2 * n + 1 - (s.calls + 1) + rank s.threads s.globals <
      2 * n + 1 - s.calls + rank s.threads s.globals
    omega
  | thread at_ live call => exact Nat.add_lt_add_left (hranked.thread hJ at_ live ha call) _

/-- A run is no longer than what was left at its start. -/
theorem Ranked.length_le (hranked : Ranked P D J rank) (hkeeps : P.Keeps D J) {g : G}
    (hstart : J (fun _ => none) g []) {as : List (Act n A)} {s : State n W G} {os : List O}
    (hD : ∀ a ∈ as, Allowed D a) (hrun : Machine.run P.next (start g) as = some (s, os)) :
    as.length + left rank s ≤ 2 * n + 1 + rank (fun _ => none) g := by
  refine (Machine.run_induction (P := fun as os u => (∀ a ∈ as, Allowed D a) →
    P.Shaped u ∧ J u.threads u.globals os ∧
      as.length + left rank u ≤ 2 * n + 1 + rank (fun _ => none) g)
    (fun _ => ⟨P.shaped_start g, hstart, Nat.le_of_eq (Nat.zero_add _)⟩) ?_ hrun hD).2.2
  intro as os u a v os' _ ih hstep hD
  obtain ⟨hshaped, hJ, hle⟩ := ih fun b hb => hD b (List.mem_append_left _ hb)
  have hmove := P.moves_of_step hstep
  have ha := hD a (List.mem_append_right _ (List.mem_singleton_self a))
  have hlt := hranked.left_lt hshaped hJ ha hmove
  refine ⟨hshaped.step hmove, hkeeps.step hshaped hJ ha hmove, ?_⟩
  rw [List.length_append, List.length_singleton]
  omega

/-- Every state with the invariant can be brought to the end of the program. -/
theorem Live.finishes (hlive : Live P D J) (hkeeps : P.Keeps D J) (hranked : Ranked P D J rank)
    (s : State n W G) (os : List O) (h : P.Shaped s) (hJ : J s.threads s.globals os) :
    ∃ bs u os', (∀ b ∈ bs, Allowed D b) ∧ Machine.run P.next s bs = some (u, os') ∧ Done u := by
  by_cases hdone : Done s
  · exact ⟨[], s, [], fun b hb => absurd hb List.not_mem_nil, rfl, hdone⟩
  · obtain ⟨a, ⟨v, os₁⟩, ha, hstep⟩ :=
      exists_step h (fun _ _ => hlive.thread hJ) (hlive.finish hJ) hdone
    have hmove := P.moves_of_step hstep
    have hlt := hranked.left_lt h hJ ha hmove
    obtain ⟨bs, u, os', hbs, hrun, hu⟩ :=
      Live.finishes hlive hkeeps hranked v (os ++ os₁) (h.step hmove) (hkeeps.step h hJ ha hmove)
    refine ⟨a :: bs, u, os₁ ++ os', ?_,
      Machine.run_cons_eq_some.mpr ⟨v, os₁, os', hstep, hrun, rfl⟩, hu⟩
    intro b hb
    rcases List.mem_cons.mp hb with rfl | hb
    · exact ha
    · exact hbs b hb
termination_by left rank s

/-! ## Threads that get done on their own -/

/-- What the threads have left when each has so much in each of its states. -/
def weight (P : Program n W G A O) (size : Fin n → W → Nat) (threads : Fin n → Option W) : Nat :=
  ∑ t, size t ((threads t).getD (P.entry t))

theorem weight_update (P : Program n W G A O) (size : Fin n → W → Nat)
    (threads : Fin n → Option W) (t : Fin n) (w : W) :
    P.weight size (Function.update threads t (some w)) =
      ∑ t', Function.update (fun t => size t ((threads t).getD (P.entry t))) t (size t w) t' := by
  rw [weight, view_update fun t w => size t (w.getD (P.entry t))]
  rfl

/-- A function that gets smaller at one place has a smaller sum. -/
theorem sum_update_lt {f : Fin n → Nat} {t : Fin n} {m : Nat} (h : m < f t) :
    ∑ t', Function.update f t m t' < ∑ t', f t' := by
  apply Finset.sum_lt_sum
  · intro t' _
    by_cases ht : t' = t
    · rw [ht, Function.update_self]
      exact Nat.le_of_lt h
    · rw [Function.update_of_ne ht]
  · exact ⟨t, Finset.mem_univ t, by rw [Function.update_self]; exact h⟩

theorem ranked_weight {size : Fin n → W → Nat}
    (hsize : ∀ {t a w g w' g' os}, P.step t a w g = some (w', g', os) → size t w' < size t w) :
    Ranked P D J fun threads _ => P.weight size threads where
  create := by
    intro threads g os t _ hnone
    have hold : size t (P.entry t) = size t ((threads t).getD (P.entry t)) := by
      rw [hnone]
      rfl
    rw [weight_update, hold,
      Function.update_eq_self t fun t => size t ((threads t).getD (P.entry t))]
    exact Nat.le_refl _
  thread := by
    intro threads g os t a w w' g' os' _ hw _ _ hstep
    rw [weight_update]
    apply sum_update_lt
    rw [hw]
    exact hsize hstep

end Program
end ForkJoin
end LinuxEmbedded
