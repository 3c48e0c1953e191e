import LinuxEmbedded.Lib.Machine
import Mathlib.Data.List.Basic
import Mathlib.Logic.Relation

/-
Threads that take mutexes, and a signal handler.

A thread is a program of lock operations; its tests are left to the schedule, so
a loop may end at any turn.  A signal is delivered to a thread at any point: the
handler runs on top of the interrupted code, with the signal masked.  When each
thread takes its mutexes in the order of a rank, and signals are delivered only
to threads whose mutexes rank below those of the handler, no cycle of waiting
threads can form.
-/
namespace LinuxEmbedded
namespace LockOrder

inductive Prog (M Tid : Type) where
  | skip
  | lock (m : M)
  | unlock (m : M)
  /-- The mutex is made new: nobody owns it. -/
  | init (m : M)
  | spawn (t : Tid)
  /-- From here on signals are handled. -/
  | arm
  /-- The end of a handler. -/
  | sigreturn
  /-- The end of the process. -/
  | exit
  | seq (p q : Prog M Tid)
  | alt (p q : Prog M Tid)
  | loop (p : Prog M Tid)

namespace Prog

variable {M Tid : Type}

def block : List (Prog M Tid) → Prog M Tid
  | [] => .skip
  | [p] => p
  | p :: ps => .seq p (block ps)

def optional (p : Prog M Tid) : Prog M Tid := .alt p .skip

/-- A wait on a condition variable: the mutex is released for some time. -/
def wait (m : M) : Prog M Tid := .seq (.unlock m) (.lock m)

/-- The mutex a program begins by taking. -/
def head : Prog M Tid → Option M
  | .lock m => some m
  | .seq p _ => p.head
  | _ => none

end Prog

/-! ## Mutexes taken in order -/

variable {M Tid : Type} [DecidableEq M]

/-- The mutexes a program surely lets go. -/
def drops : Prog M Tid → List M
  | .unlock m => [m]
  | .init m => [m]
  | .seq p q => drops p ++ drops q
  | .alt p q => (drops p).filter fun m => m ∈ drops q
  | _ => []

/-- The mutexes a program may take and keep. -/
def keeps : Prog M Tid → List M
  | .lock m => [m]
  | .seq p q => ((keeps p).filter fun m => m ∉ drops q) ++ keeps q
  | .alt p q => keeps p ++ keeps q
  | .loop p => keeps p
  | _ => []

/-- The mutexes that may be held after a program entered with those of `h`. -/
def after (p : Prog M Tid) (h : List M) : List M :=
  (h.filter fun m => m ∉ drops p) ++ keeps p

/-- Every mutex is taken while only mutexes of lower rank are held. -/
def Ordered (rank : M → Nat) : Prog M Tid → List M → Prop
  | .lock m, h => ∀ m' ∈ h, rank m' < rank m
  | .seq p q, h => Ordered rank p h ∧ Ordered rank q (after p h)
  | .alt p q, h => Ordered rank p h ∧ Ordered rank q h
  | .loop p, h => Ordered rank p (h ++ keeps p)
  | _, _ => True

instance decidableOrdered (rank : M → Nat) :
    (p : Prog M Tid) → (h : List M) → Decidable (Ordered rank p h)
  | .lock m, h => inferInstanceAs (Decidable (∀ m' ∈ h, rank m' < rank m))
  | .seq p q, h =>
    have := decidableOrdered rank p h
    have := decidableOrdered rank q (after p h)
    inferInstanceAs (Decidable (_ ∧ _))
  | .alt p q, h =>
    have := decidableOrdered rank p h
    have := decidableOrdered rank q h
    inferInstanceAs (Decidable (_ ∧ _))
  | .loop p, h => decidableOrdered rank p (h ++ keeps p)
  | .skip, _ | .unlock _, _ | .init _, _ | .spawn _, _ | .arm, _ | .sigreturn, _ | .exit, _ =>
    isTrue trivial

/-- A list of programs run one after another. -/
def OrderedAll (rank : M → Nat) : List (Prog M Tid) → List M → Prop
  | [], _ => True
  | p :: k, h => Ordered rank p h ∧ OrderedAll rank k (after p h)

theorem mem_after {p : Prog M Tid} {h : List M} {m : M} :
    m ∈ after p h ↔ m ∈ h ∧ m ∉ drops p ∨ m ∈ keeps p := by
  rw [after, List.mem_append, List.mem_filter, decide_eq_true_iff]

theorem after_mono {p : Prog M Tid} {h h' : List M} (hsub : h ⊆ h') : after p h ⊆ after p h' := by
  intro m hm
  rw [mem_after] at hm ⊢
  rcases hm with ⟨hm, hkept⟩ | hm
  · exact Or.inl ⟨hsub hm, hkept⟩
  · exact Or.inr hm

/-- Holding less keeps the order. -/
theorem ordered_mono {rank : M → Nat} {p : Prog M Tid} {h h' : List M} (hsub : h ⊆ h')
    (hp : Ordered rank p h') : Ordered rank p h := by
  induction p generalizing h h' with
  | lock m =>
    intro m' hm'
    exact hp m' (hsub hm')
  | seq p q ihp ihq => exact ⟨ihp hsub hp.1, ihq (after_mono hsub) hp.2⟩
  | alt p q ihp ihq => exact ⟨ihp hsub hp.1, ihq hsub hp.2⟩
  | loop p ih => exact ih (List.append_subset.mpr
      ⟨fun m hm => List.mem_append_left _ (hsub hm), List.subset_append_right ..⟩) hp
  | _ => trivial

theorem orderedAll_mono {rank : M → Nat} {k : List (Prog M Tid)} {h h' : List M}
    (hsub : h ⊆ h') (hk : OrderedAll rank k h') : OrderedAll rank k h := by
  induction k generalizing h h' with
  | nil => trivial
  | cons p k ih => exact ⟨ordered_mono hsub hk.1, ih (after_mono hsub) hk.2⟩

/-- A mutex about to be taken ranks above the ones held. -/
theorem ordered_head {rank : M → Nat} {p : Prog M Tid} {h : List M} {m : M}
    (hp : Ordered rank p h) (hhead : p.head = some m) : ∀ m' ∈ h, rank m' < rank m := by
  induction p with
  | lock m₀ =>
    cases hhead
    exact hp
  | seq p q ihp ihq => exact ihp hp.1 hhead
  | _ => cases hhead

variable {rank : M → Nat}

/-- Dropping a mutex, or having it taken away, keeps the rest. -/
theorem mem_after_of_released {p : Prog M Tid} {h : List M} {m m' : M} {t : Tid}
    {owner : M → Option Tid} (howned : ∀ m, owner m = some t → m ∈ h)
    (hdrops : drops p = [m]) (hm' : Function.update owner m none m' = some t) :
    m' ∈ after p h := by
  by_cases he : m' = m
  · rw [he, Function.update_self] at hm'
    cases hm'
  · rw [Function.update_of_ne he] at hm'
    refine mem_after.mpr (Or.inl ⟨howned m' hm', ?_⟩)
    rw [hdrops, List.mem_singleton]
    exact he

/-- A loop may run its body once more, or end. -/
theorem orderedAll_loop {p : Prog M Tid} {k : List (Prog M Tid)} {h : List M}
    (hp : Ordered rank (.loop p) h) (hk : OrderedAll rank k (after (.loop p) h)) :
    OrderedAll rank (p :: .loop p :: k) h ∧ OrderedAll rank k h := by
  have hp : Ordered rank p (h ++ keeps p) := hp
  have hbody : h ⊆ h ++ keeps p := List.subset_append_left ..
  have hagain : after p h ⊆ h ++ keeps p := by
    intro m hm
    rcases mem_after.mp hm with ⟨hm, -⟩ | hm
    · exact List.mem_append_left _ hm
    · exact List.mem_append_right _ hm
  have hend : h ++ keeps p ⊆ after (.loop p) h := by
    intro m hm
    rcases List.mem_append.mp hm with hm | hm
    · exact mem_after.mpr (Or.inl ⟨hm, List.not_mem_nil⟩)
    · exact mem_after.mpr (Or.inr hm)
  refine ⟨⟨ordered_mono hbody hp, ?_, ?_⟩, ?_⟩
  · show Ordered rank p (after p h ++ keeps p)
    exact ordered_mono (List.append_subset.mpr ⟨hagain, List.subset_append_right ..⟩) hp
  · apply orderedAll_mono _ hk
    intro m hm
    rcases mem_after.mp hm with ⟨hm, -⟩ | hm
    · exact hend (hagain hm)
    · exact hend (List.mem_append_right _ hm)
  · exact orderedAll_mono (fun m hm => hend (hbody hm)) hk

/-- Going on with `k` after a command that takes and drops nothing. -/
theorem after_eq_self {p : Prog M Tid} (h : List M) (hdrops : drops p = [])
    (hkeeps : keeps p = []) : after p h = h := by
  rw [after, hdrops, hkeeps, List.append_nil]
  exact List.filter_eq_self.mpr fun m _ => decide_eq_true List.not_mem_nil

/-! ## The machine -/

structure State (M Tid : Type) where
  owner : M → Option Tid
  /-- What each thread has still to run, the innermost part first. -/
  code : Tid → List (Prog M Tid)
  started : Tid → Bool
  /-- The thread is in the handler. -/
  masked : Tid → Bool
  armed : Bool
  halted : Bool

structure System (M Tid : Type) where
  /-- The thread the process starts with. -/
  root : Tid
  program : Tid → Prog M Tid
  handler : Prog M Tid

inductive Act (Tid : Type) where
  /-- The thread takes its next step; `left` decides a choice. -/
  | run (t : Tid) (left : Bool)
  | signal (t : Tid)

variable [DecidableEq Tid]

def System.start (sys : System M Tid) : State M Tid where
  owner _ := none
  code t := [sys.program t]
  started t := t = sys.root
  masked _ := false
  armed := false
  halted := false

namespace State

def goto (s : State M Tid) (t : Tid) (k : List (Prog M Tid)) : State M Tid :=
  { s with code := Function.update s.code t k }

def setOwner (s : State M Tid) (m : M) (o : Option Tid) : State M Tid :=
  { s with owner := Function.update s.owner m o }

/-- Run the first command of a thread, with `k` after it.  A mutex that is owned
blocks. -/
def execute (s : State M Tid) (t : Tid) (k : List (Prog M Tid)) (left : Bool) :
    Prog M Tid → Option (State M Tid)
  | .skip => some (s.goto t k)
  | .lock m => if s.owner m = none then some ((s.setOwner m (some t)).goto t k) else none
  | .unlock m => some ((s.setOwner m none).goto t k)
  | .init m => some ((s.setOwner m none).goto t k)
  | .spawn u => some (({ s with started := Function.update s.started u true }).goto t k)
  | .arm => some (({ s with armed := true }).goto t k)
  | .sigreturn => some (({ s with masked := Function.update s.masked t false }).goto t k)
  | .exit => some (({ s with halted := true }).goto t k)
  | .seq p q => some (s.goto t (p :: q :: k))
  | .alt p q => some (s.goto t ((if left then p else q) :: k))
  | .loop p => some (s.goto t (if left then p :: .loop p :: k else k))

end State

def System.step (sys : System M Tid) (s : State M Tid) :
    Act Tid → Option (State M Tid × List Empty)
  | .run t left =>
    if s.halted = false ∧ s.started t = true then
      match s.code t with
      | [] => none
      | p :: k => (s.execute t k left p).map fun u => (u, [])
    else none
  | .signal t =>
    if s.halted = false ∧ s.started t = true ∧ s.armed = true ∧ s.masked t = false ∧
        (s.code t).isEmpty = false then
      some (({ s with masked := Function.update s.masked t true }).goto t
        (sys.handler :: .sigreturn :: s.code t), [])
    else none

/-- The step of a thread that is at `p`. -/
theorem step_run {sys : System M Tid} {s u : State M Tid} {t : Tid} {left : Bool}
    {p : Prog M Tid} {k : List (Prog M Tid)} (hhalted : s.halted = false)
    (hstarted : s.started t = true) (hcode : s.code t = p :: k)
    (hex : s.execute t k left p = some u) : sys.step s (.run t left) = some (u, []) := by
  rw [System.step, if_pos ⟨hhalted, hstarted⟩, hcode]
  show (s.execute t k left p).map _ = _
  rw [hex]
  rfl

/-! ## Deadlock -/

/-- The mutex a thread is at the point of taking. -/
def State.awaits (s : State M Tid) (t : Tid) : Option M :=
  if s.started t then (s.code t).head?.bind Prog.head else none

/-- A thread waits for the owner of the mutex it needs next. -/
def State.WaitsFor (s : State M Tid) (t u : Tid) : Prop :=
  ∃ m, s.awaits t = some m ∧ s.owner m = some u

/-- Some thread waits for itself, at once or through other threads. -/
def State.Deadlocked (s : State M Tid) : Prop := ∃ t, Relation.TransGen s.WaitsFor t t

/-! ## What one step keeps -/

/-- The mutexes of a thread are among `h`, and its code is ordered from there. -/
def Disciplined (rank : M → Nat) (s : State M Tid) (t : Tid) (h : List M) : Prop :=
  (∀ m, s.owner m = some t → m ∈ h) ∧ OrderedAll rank (s.code t) h

theorem disciplined_goto {s : State M Tid} {t : Tid} {k : List (Prog M Tid)} {h : List M}
    (howned : ∀ m, s.owner m = some t → m ∈ h) (hk : OrderedAll rank k h) :
    Disciplined rank (s.goto t k) t h := by
  refine ⟨howned, ?_⟩
  show OrderedAll rank (Function.update s.code t k t) h
  rw [Function.update_self]
  exact hk

/-- A thread that takes a step stays disciplined. -/
theorem disciplined_execute {s u : State M Tid} {t : Tid} {p : Prog M Tid}
    {k : List (Prog M Tid)} {left : Bool} {h : List M} (hcode : s.code t = p :: k)
    (hd : Disciplined rank s t h) (hex : s.execute t k left p = some u) :
    ∃ h', Disciplined rank u t h' := by
  obtain ⟨howned, hk⟩ := hd
  rw [hcode] at hk
  obtain ⟨hp, hk⟩ := hk
  have hsame : drops p = [] → keeps p = [] → OrderedAll rank k h := by
    intro hdrops hkeeps
    rw [after_eq_self h hdrops hkeeps] at hk
    exact hk
  cases p with
  | lock m =>
    obtain ⟨-, hex⟩ := Option.ite_none_right_eq_some.mp hex
    cases hex
    refine ⟨after (.lock m) h, disciplined_goto ?_ hk⟩
    intro m' hm'
    by_cases he : m' = m
    · rw [he]
      exact mem_after.mpr (Or.inr (List.mem_singleton_self m))
    · have hm' : Function.update s.owner m (some t) m' = some t := hm'
      rw [Function.update_of_ne he] at hm'
      exact mem_after.mpr (Or.inl ⟨howned m' hm', List.not_mem_nil⟩)
  | unlock m =>
    cases hex
    exact ⟨_, disciplined_goto (fun m' hm' => mem_after_of_released howned rfl hm') hk⟩
  | init m =>
    cases hex
    exact ⟨_, disciplined_goto (fun m' hm' => mem_after_of_released howned rfl hm') hk⟩
  | skip =>
    cases hex
    exact ⟨h, disciplined_goto howned (hsame rfl rfl)⟩
  | spawn v =>
    cases hex
    exact ⟨h, disciplined_goto howned (hsame rfl rfl)⟩
  | arm =>
    cases hex
    exact ⟨h, disciplined_goto howned (hsame rfl rfl)⟩
  | sigreturn =>
    cases hex
    exact ⟨h, disciplined_goto howned (hsame rfl rfl)⟩
  | exit =>
    cases hex
    exact ⟨h, disciplined_goto howned (hsame rfl rfl)⟩
  | seq p q =>
    cases hex
    refine ⟨h, disciplined_goto howned ⟨hp.1, hp.2, orderedAll_mono ?_ hk⟩⟩
    intro m hm
    simp only [mem_after, drops, keeps, List.mem_append, List.mem_filter,
      decide_eq_true_iff] at hm ⊢
    tauto
  | alt p q =>
    cases hex
    refine ⟨h, disciplined_goto howned ?_⟩
    cases left with
    | true =>
      refine ⟨hp.1, orderedAll_mono ?_ hk⟩
      intro m hm
      simp only [mem_after, drops, keeps, List.mem_append, List.mem_filter,
        decide_eq_true_iff] at hm ⊢
      tauto
    | false =>
      refine ⟨hp.2, orderedAll_mono ?_ hk⟩
      intro m hm
      simp only [mem_after, drops, keeps, List.mem_append, List.mem_filter,
        decide_eq_true_iff] at hm ⊢
      tauto
  | loop p =>
    cases hex
    obtain ⟨hagain, hend⟩ := orderedAll_loop hp hk
    refine ⟨h, disciplined_goto howned ?_⟩
    cases left with
    | true => exact hagain
    | false => exact hend

/-- A step of one thread takes no mutex for another and leaves its code alone. -/
theorem execute_frame {s u : State M Tid} {t v : Tid} {p : Prog M Tid}
    {k : List (Prog M Tid)} {left : Bool} (hne : v ≠ t)
    (hex : s.execute t k left p = some u) :
    u.code v = s.code v ∧ ∀ m, u.owner m = some v → s.owner m = some v := by
  have hcode : ∀ (s' : State M Tid) (k' : List (Prog M Tid)), s'.code = s.code →
      (s'.goto t k').code v = s.code v := by
    intro s' k' he
    show Function.update s'.code t k' v = s.code v
    rw [Function.update_of_ne hne, he]
  have howner : ∀ (m : M) (o : Option Tid), o ≠ some v → ∀ m',
      Function.update s.owner m o m' = some v → s.owner m' = some v := by
    intro m o ho m' hm'
    by_cases he : m' = m
    · rw [he, Function.update_self] at hm'
      exact absurd hm' ho
    · rwa [Function.update_of_ne he] at hm'
  cases p with
  | lock m =>
    obtain ⟨-, hex⟩ := Option.ite_none_right_eq_some.mp hex
    cases hex
    have hother : some t ≠ some v := fun he => hne (Option.some.inj he).symm
    exact ⟨hcode _ _ rfl, howner m (some t) hother⟩
  | unlock m =>
    cases hex
    exact ⟨hcode _ _ rfl, howner m none nofun⟩
  | init m =>
    cases hex
    exact ⟨hcode _ _ rfl, howner m none nofun⟩
  | _ =>
    cases hex
    exact ⟨hcode _ _ rfl, fun _ hm => hm⟩

/-- Every thread is disciplined. -/
def Inv (rank : M → Nat) (s : State M Tid) : Prop := ∀ t, ∃ h, Disciplined rank s t h

/-- A signal is delivered only to a thread whose mutexes are all in `low`. -/
def SignalsLow (low : List M) (s : State M Tid) : Act Tid → Prop
  | .run _ _ => True
  | .signal t => ∀ m, s.owner m = some t → m ∈ low

/-- The threads of a system take their mutexes in order, and so does the handler
from the mutexes in `low`. -/
structure System.Ordered (sys : System M Tid) (rank : M → Nat) (low : List M) : Prop where
  program : ∀ t, LockOrder.Ordered rank (sys.program t) []
  handler : LockOrder.Ordered rank sys.handler low
  balanced : keeps sys.handler = []

variable {sys : System M Tid} {low : List M}

theorem inv_start (h : sys.Ordered rank low) : Inv rank sys.start := by
  intro t
  refine ⟨[], ?_, h.program t, trivial⟩
  intro m hm
  cases hm

theorem inv_run {s u : State M Tid} {t : Tid} {left : Bool} {os : List Empty} (h : Inv rank s)
    (hstep : sys.step s (.run t left) = some (u, os)) : Inv rank u := by
  obtain ⟨-, hstep⟩ := Option.ite_none_right_eq_some.mp hstep
  cases hcode : s.code t with
  | nil =>
    rw [hcode] at hstep
    cases hstep
  | cons p k =>
    rw [hcode] at hstep
    obtain ⟨w, hex, hw⟩ := Option.map_eq_some_iff.mp hstep
    obtain ⟨rfl, -⟩ := Prod.mk.inj hw
    intro v
    obtain ⟨hv, hdisciplined⟩ := h v
    by_cases he : v = t
    · subst he
      exact disciplined_execute hcode hdisciplined hex
    · obtain ⟨hsame, howner⟩ := execute_frame he hex
      refine ⟨hv, fun m hm => hdisciplined.1 m (howner m hm), ?_⟩
      rw [hsame]
      exact hdisciplined.2

/-- The handler starts from the mutexes the thread really owns, which are all low. -/
theorem inv_signal {s u : State M Tid} {t : Tid} {os : List Empty} (hsys : sys.Ordered rank low)
    (h : Inv rank s) (hlow : ∀ m, s.owner m = some t → m ∈ low)
    (hstep : sys.step s (.signal t) = some (u, os)) : Inv rank u := by
  obtain ⟨-, hstep⟩ := Option.ite_none_right_eq_some.mp hstep
  obtain ⟨rfl, -⟩ := Prod.mk.inj (Option.some.inj hstep)
  intro v
  obtain ⟨hv, howned, hk⟩ := h v
  by_cases he : v = t
  · subst he
    let own := hv.filter fun m => s.owner m = some v
    have hown : ∀ m ∈ own, m ∈ hv ∧ s.owner m = some v := by
      intro m hm
      obtain ⟨hmem, hm⟩ := List.mem_filter.mp hm
      exact ⟨hmem, of_decide_eq_true hm⟩
    have hafter : after sys.handler own ⊆ hv := by
      intro m hm
      rcases mem_after.mp hm with ⟨hm, -⟩ | hm
      · exact (hown m hm).1
      · rw [hsys.balanced] at hm
        cases hm
    refine ⟨own, disciplined_goto ?_ ⟨?_, trivial, ?_⟩⟩
    · intro m hm
      have hm : s.owner m = some v := hm
      exact List.mem_filter.mpr ⟨howned m hm, decide_eq_true hm⟩
    · exact ordered_mono (fun m hm => hlow m (hown m hm).2) hsys.handler
    · rw [after_eq_self _ rfl rfl]
      exact orderedAll_mono hafter hk
  · refine ⟨hv, howned, ?_⟩
    show OrderedAll rank (Function.update s.code t _ v) hv
    rw [Function.update_of_ne he]
    exact hk

/-- In a run whose signals are all low every thread stays disciplined. -/
theorem inv_of_meets {s : State M Tid} {as : List (Act Tid)} {os : List Empty}
    (hsys : sys.Ordered rank low)
    (hmeets : Machine.Meets sys.step (SignalsLow low) sys.start as)
    (hrun : Machine.run sys.step sys.start as = some (s, os)) : Inv rank s := by
  refine Machine.meets_induction (P := fun _ u => Inv rank u) (inv_start hsys) ?_ hmeets hrun
  intro os u a t os' hu hcond hstep
  cases a with
  | run v left => exact inv_run hu hstep
  | signal v => exact inv_signal hsys hu hcond hstep

/-! ## No cycle of waiting threads -/

omit [DecidableEq Tid]

omit [DecidableEq M] in
theorem awaits_head {s : State M Tid} {t : Tid} {m : M} (h : s.awaits t = some m) :
    ∃ p k, s.code t = p :: k ∧ p.head = some m := by
  unfold State.awaits at h
  obtain ⟨-, h⟩ := Option.ite_none_right_eq_some.mp h
  obtain ⟨p, hp, hhead⟩ := Option.bind_eq_some_iff.mp h
  cases hcode : s.code t with
  | nil =>
    rw [hcode] at hp
    cases hp
  | cons q k =>
    rw [hcode] at hp
    cases hp
    exact ⟨_, k, rfl, hhead⟩

/-- The owner of an awaited mutex can itself wait only for a mutex of higher rank. -/
theorem rank_lt_of_waitsFor {s : State M Tid} (h : Inv rank s) {t u : Tid} {m m' : M}
    (hwaits : s.WaitsFor t u) (hm : s.awaits t = some m) (hm' : s.awaits u = some m') :
    rank m < rank m' := by
  obtain ⟨m₀, hm₀, howner⟩ := hwaits
  have he : m₀ = m := Option.some.inj (hm₀.symm.trans hm)
  rw [he] at howner
  obtain ⟨hu, howned, hk⟩ := h u
  obtain ⟨p, k, hcode, hhead⟩ := awaits_head hm'
  rw [hcode] at hk
  exact ordered_head hk.1 hhead m (howned m howner)

theorem rank_lt_of_transGen {s : State M Tid} (h : Inv rank s) {t u : Tid}
    (hpath : Relation.TransGen s.WaitsFor t u) {m m' : M} (hm : s.awaits t = some m)
    (hm' : s.awaits u = some m') : rank m < rank m' := by
  induction hpath generalizing m' with
  | single hwaits => exact rank_lt_of_waitsFor h hwaits hm hm'
  | tail _ hwaits ih =>
    have ⟨m₁, hm₁, _⟩ := hwaits
    exact Nat.lt_trans (ih hm₁) (rank_lt_of_waitsFor h hwaits hm₁ hm')

theorem not_deadlocked_of_inv {s : State M Tid} (h : Inv rank s) : ¬s.Deadlocked := by
  rintro ⟨t, hcycle⟩
  obtain ⟨u, ⟨m, hm, -⟩, -⟩ := Relation.TransGen.head'_iff.mp hcycle
  exact Nat.lt_irrefl _ (rank_lt_of_transGen h hcycle hm hm)

/-- A system that takes its mutexes in order never deadlocks, as long as signals
reach only threads whose mutexes are low. -/
theorem not_deadlocked [DecidableEq Tid] {s : State M Tid} {as : List (Act Tid)} {os : List Empty}
    (hsys : sys.Ordered rank low)
    (hmeets : Machine.Meets sys.step (SignalsLow low) sys.start as)
    (hrun : Machine.run sys.step sys.start as = some (s, os)) : ¬s.Deadlocked :=
  not_deadlocked_of_inv (inv_of_meets hsys hmeets hrun)

end LockOrder
end LinuxEmbedded
