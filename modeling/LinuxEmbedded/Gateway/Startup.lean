import LinuxEmbedded.Lib.Machine
import Mathlib.Logic.Function.Basic

/-
The start of the gateway, from the allocation of the sensor buffer to `run_keep_alive`.

`main` calls `init_threads` and `init_keep_alive`, and frees what it has when a call
fails; the threads are detached and go on until the process exits.
-/
namespace LinuxEmbedded
namespace Gateway
namespace Startup

inductive Thread where
  | connectionManager
  | dataManager
  | storageManager
  deriving DecidableEq

inductive Block where
  /-- The `sbuffer_t`, and the array in it. -/
  | sb
  | buffer
  | args (t : Thread)
  deriving DecidableEq

inductive Memory where
  | null
  | allocated
  | freed
  deriving DecidableEq

/-- Where `main` is. -/
inductive MainPc where
  | mallocSb
  | initSb
  | mallocArgs
  | create (t : Thread)
  | detach (t : Thread)
  | initMutex
  | signal
  | keepAlive
  /-- `run_keep_alive` has returned 0. -/
  | shutdown
  | freeing (rest : List Block)
  | exited
  deriving DecidableEq

inductive ThreadPc where
  /-- Before the first use of `arg`. -/
  | starting
  | looping
  /-- `storage_manager` has no database. -/
  | ended
  deriving DecidableEq

structure State where
  pc : MainPc
  memory : Block → Memory
  threads : Thread → Option ThreadPc

def start : State := ⟨.mallocSb, fun _ => .null, fun _ => none⟩

inductive Act where
  /-- The call `main` is at, and whether it succeeds. -/
  | call (ok : Bool)
  /-- The three calls of `malloc` in `init_threads`. -/
  | malloc (ok : Thread → Bool)
  /-- The next `free`, or `exit`. -/
  | free
  /-- A thread starts or goes through its loop. -/
  | run (t : Thread) (ok : Bool)

inductive Event where
  | freed (b : Block) (memory : Memory)
  | touched (t : Thread) (b : Block) (memory : Memory)
  deriving DecidableEq

/-- What is freed is allocated or `NULL`, and what is touched is allocated. -/
def Event.Ok : Event → Prop
  | .freed _ memory => memory ≠ .freed
  | .touched _ _ memory => memory = .allocated

instance : (e : Event) → Decidable e.Ok
  | .freed _ memory => inferInstanceAs (Decidable (memory ≠ .freed))
  | .touched _ _ memory => inferInstanceAs (Decidable (memory = .allocated))

def allArgs : List Block :=
  [.args .connectionManager, .args .dataManager, .args .storageManager]

/-- What follows the start of a thread in `init_threads`. -/
def afterDetach : Thread → MainPc
  | .connectionManager => .create .dataManager
  | .dataManager => .create .storageManager
  | .storageManager => .initMutex

/-- What `main` frees before it exits when `init_keep_alive` or `run_keep_alive` fails:
`sbuffer_free` and the buffer itself. -/
def bufferAndSb : List Block := [.buffer, .sb]

/-- The call that `main` is at.  What `sbuffer_init` allocates before it fails, it frees. -/
def callStep (s : State) (ok : Bool) : Option State :=
  match s.pc with
  | .mallocSb =>
    some (if ok then
      { s with pc := .initSb, memory := Function.update s.memory .sb .allocated }
    else { s with pc := .exited })
  | .initSb =>
    some (if ok then
      { s with pc := .mallocArgs, memory := Function.update s.memory .buffer .allocated }
    else { s with pc := .freeing [.sb] })
  | .create t =>
    some (if ok then
      { s with pc := .detach t, threads := Function.update s.threads t (some .starting) }
    else { s with pc := .freeing allArgs })
  | .detach t => some { s with pc := if ok then afterDetach t else .freeing allArgs }
  | .initMutex => some { s with pc := if ok then .signal else .freeing bufferAndSb }
  | .signal => some { s with pc := if ok then .keepAlive else .freeing bufferAndSb }
  | .keepAlive => some { s with pc := if ok then .shutdown else .freeing bufferAndSb }
  | .mallocArgs | .shutdown | .freeing _ | .exited => none

/-- The memory after the three calls. -/
def mallocs (memory : Block → Memory) (ok : Thread → Bool) : Block → Memory
  | .args t => if ok t then .allocated else .null
  | .sb => memory .sb
  | .buffer => memory .buffer

def mallocStep (s : State) (ok : Thread → Bool) : Option State :=
  if s.pc = .mallocArgs then
    some { s with
      pc := if ok .connectionManager && ok .dataManager && ok .storageManager then
          .create .connectionManager
        else .freeing allArgs
      memory := mallocs s.memory ok }
  else none

def freeStep (s : State) : Option (State × List Event) :=
  match s.pc with
  | .freeing (b :: rest) =>
    some ({ s with
        pc := .freeing rest
        -- `free(NULL)` does nothing
        memory := if s.memory b = .null then s.memory else Function.update s.memory b .freed },
      [.freed b (s.memory b)])
  | .freeing [] => some ({ s with pc := .exited }, [])
  | _ => none

/-- What a thread uses in its loop; only `connection_manager` keeps its `arg`. -/
def uses : Thread → List Block
  | .connectionManager => [.args .connectionManager, .sb, .buffer]
  | .dataManager | .storageManager => [.sb, .buffer]

def touches (s : State) (t : Thread) (bs : List Block) : List Event :=
  bs.map fun b => .touched t b (s.memory b)

def runStep (s : State) (t : Thread) (ok : Bool) : Option (State × List Event) :=
  if s.pc = .exited then none
  else
    match s.threads t with
    | some .starting =>
      some (
        if ok then { s with threads := Function.update s.threads t (some .looping) }
        else
          match t with
          -- `setup_socket` has failed
          | .connectionManager => { s with pc := .exited }
          | .storageManager => { s with threads := Function.update s.threads t (some .ended) }
          | .dataManager => { s with threads := Function.update s.threads t (some .looping) },
        touches s t [.args t])
    | some .looping => some (s, touches s t (uses t))
    | some .ended | none => none

def step (s : State) : Act → Option (State × List Event)
  | .call ok => (callStep s ok).map fun t => (t, [])
  | .malloc ok => (mallocStep s ok).map fun t => (t, [])
  | .free => freeStep s
  | .run t ok => runStep s t ok

/-- No call of `main` fails after the first thread was created. -/
def Careful (s : State) : Act → Prop
  | .call false => s.threads .connectionManager = none
  | _ => True

instance (s : State) : (a : Act) → Decidable (Careful s a)
  | .call false => inferInstanceAs (Decidable (_ = _))
  | .call true | .malloc _ | .free | .run _ _ => isTrue trivial

/-- From here the threads and `main` can go on, with no further call failing, to a bad `free` or a
use of memory that is not allocated. -/
def Doomed (s : State) : Prop :=
  ∃ as t os, .call false ∉ as ∧ Machine.run step s as = some (t, os) ∧ ∃ e ∈ os, ¬e.Ok

/-! ## Where the threads are -/

/-- `connection_manager` was created. -/
def MainPc.created : MainPc → Option Bool
  | .mallocSb | .initSb | .mallocArgs | .create .connectionManager => some false
  | .create _ | .detach _ | .initMutex | .signal | .keepAlive | .shutdown => some true
  | .freeing _ | .exited => none

/-- `connection_manager` is the first thread, and does not end on its own. -/
structure Inv (s : State) : Prop where
  created : ∀ b, s.pc.created = some b → (s.threads .connectionManager).isSome = b
  first : s.threads .connectionManager = none → ∀ t, s.threads t = none
  live : s.threads .connectionManager ≠ some .ended

theorem inv_start : Inv start where
  created := by
    intro b hb
    exact Option.some.inj hb
  first := fun _ _ => rfl
  live := nofun

variable {s t : State} {os : List Event}

/-- A step of `main` that creates no thread. -/
theorem Inv.moved (h : Inv s) {pc : MainPc} (memory : Block → Memory)
    (hpc : pc.created = s.pc.created ∨ pc.created = none) :
    Inv ⟨pc, memory, s.threads⟩ where
  created := by
    intro b hb
    rcases hpc with hpc | hpc
    · exact h.created b (hpc ▸ hb)
    · rw [hpc] at hb
      cases hb
  first := h.first
  live := h.live

theorem callStep_inv {ok : Bool} (h : Inv s) (hstep : callStep s ok = some t) : Inv t := by
  unfold callStep at hstep
  cases hpc : s.pc with
  | mallocSb | initSb | initMutex | signal | keepAlive =>
    rw [hpc] at hstep
    cases ok <;> obtain rfl := Option.some.inj hstep <;>
      first | exact h.moved _ (Or.inl (by rw [hpc]; rfl)) | exact h.moved _ (Or.inr rfl)
  | detach x =>
    rw [hpc] at hstep
    cases ok with
    | true =>
      obtain rfl := Option.some.inj hstep
      refine h.moved _ (Or.inl ?_)
      rw [hpc]
      cases x <;> rfl
    | false =>
      obtain rfl := Option.some.inj hstep
      exact h.moved _ (Or.inr rfl)
  | create x =>
    rw [hpc] at hstep
    cases ok with
    | false =>
      obtain rfl := Option.some.inj hstep
      exact h.moved _ (Or.inr rfl)
    | true =>
      obtain rfl := Option.some.inj hstep
      have hsome : (Function.update s.threads x (some .starting) .connectionManager).isSome := by
        by_cases hx : x = .connectionManager
        · rw [hx, Function.update_self]
          rfl
        · rw [Function.update_of_ne (Ne.symm hx)]
          refine h.created true ?_
          rw [hpc]
          cases x with
          | connectionManager => exact absurd rfl hx
          | _ => rfl
      refine ⟨?_, ?_, ?_⟩
      · intro b hb
        obtain rfl := Option.some.inj hb
        exact hsome
      · intro hnone
        rw [show Function.update s.threads x (some .starting) .connectionManager = none from
          hnone] at hsome
        cases hsome
      · show Function.update s.threads x (some .starting) .connectionManager ≠ some .ended
        by_cases hx : x = .connectionManager
        · rw [hx, Function.update_self]
          nofun
        · rw [Function.update_of_ne (Ne.symm hx)]
          exact h.live
  | mallocArgs | shutdown | freeing | exited =>
    rw [hpc] at hstep
    cases hstep

/-- What a thread does, which is running. -/
theorem runStep_cases {x : Thread} {ok : Bool} (h : runStep s x ok = some (t, os)) :
    s.pc ≠ .exited ∧ s.threads x ≠ none ∧
      ((∃ bs, os = touches s x bs ∧ ∀ b ∈ bs, b = .args x ∨ b ∈ uses x) ∧
        (t = s ∨ (∃ p, t = { s with threads := Function.update s.threads x (some p) } ∧
            (p = .ended → x = .storageManager)) ∨
          t = { s with pc := .exited })) := by
  unfold runStep at h
  obtain ⟨hpc, h⟩ := Option.ite_none_left_eq_some.mp h
  refine ⟨hpc, ?_⟩
  split at h
  · next hx =>
    obtain ⟨rfl, rfl⟩ := Prod.mk.inj (Option.some.inj h)
    refine ⟨by rw [hx]; nofun, ⟨[.args x], rfl, fun b hb => Or.inl (List.mem_singleton.mp hb)⟩, ?_⟩
    cases ok with
    | true => exact Or.inr (Or.inl ⟨_, rfl, nofun⟩)
    | false =>
      cases x with
      | connectionManager => exact Or.inr (Or.inr rfl)
      | dataManager => exact Or.inr (Or.inl ⟨_, rfl, nofun⟩)
      | storageManager => exact Or.inr (Or.inl ⟨_, rfl, fun _ => rfl⟩)
  · next hx =>
    obtain ⟨rfl, rfl⟩ := Prod.mk.inj (Option.some.inj h)
    exact ⟨by rw [hx]; nofun, ⟨uses x, rfl, fun b hb => Or.inr hb⟩, Or.inl rfl⟩
  · cases h
  · cases h

theorem runStep_inv {x : Thread} {ok : Bool} (h : Inv s) (hstep : runStep s x ok = some (t, os)) :
    Inv t := by
  obtain ⟨_, hx, _, rfl | ⟨p, rfl, hended⟩ | rfl⟩ := runStep_cases hstep
  · exact h
  · have hsome : s.threads .connectionManager ≠ none := fun hnone => hx (h.first hnone x)
    have hkept : Function.update s.threads x (some p) .connectionManager ≠ none := by
      by_cases hcm : x = .connectionManager
      · rw [hcm, Function.update_self]
        nofun
      · rwa [Function.update_of_ne (Ne.symm hcm)]
    refine ⟨?_, fun hnone => absurd hnone hkept, ?_⟩
    · intro b hb
      have hbefore := h.created b hb
      rw [Option.isSome_iff_ne_none.mpr hsome] at hbefore
      exact (Option.isSome_iff_ne_none.mpr hkept).trans hbefore
    · show Function.update s.threads x (some p) .connectionManager ≠ some .ended
      by_cases hcm : x = .connectionManager
      · rw [hcm, Function.update_self]
        intro he
        have hstorage := hended (Option.some.inj he)
        rw [hcm] at hstorage
        cases hstorage
      · rw [Function.update_of_ne (Ne.symm hcm)]
        exact h.live
  · exact h.moved _ (Or.inr rfl)

theorem freeStep_cases (h : freeStep s = some (t, os)) :
    (∃ b rest, s.pc = .freeing (b :: rest) ∧ os = [.freed b (s.memory b)] ∧
      t = { s with
        pc := .freeing rest
        memory := if s.memory b = .null then s.memory else Function.update s.memory b .freed }) ∨
    (s.pc = .freeing [] ∧ os = [] ∧ t = { s with pc := .exited }) := by
  unfold freeStep at h
  split at h
  · next b rest hpc =>
    obtain ⟨rfl, rfl⟩ := Prod.mk.inj (Option.some.inj h)
    exact Or.inl ⟨b, rest, hpc, rfl, rfl⟩
  · next hpc =>
    obtain ⟨rfl, rfl⟩ := Prod.mk.inj (Option.some.inj h)
    exact Or.inr ⟨hpc, rfl, rfl⟩
  · cases h

theorem mallocStep_inv {ok : Thread → Bool} (h : Inv s) (hstep : mallocStep s ok = some t) :
    Inv t := by
  obtain ⟨hpc, hstep⟩ := Option.ite_none_right_eq_some.mp hstep
  obtain rfl := Option.some.inj hstep
  split
  · exact h.moved _ (Or.inl (by rw [hpc]; rfl))
  · exact h.moved _ (Or.inr rfl)

theorem step_inv {a : Act} (h : Inv s) (hstep : step s a = some (t, os)) : Inv t := by
  cases a with
  | call ok =>
    obtain ⟨u, hu, he⟩ := Option.map_eq_some_iff.mp hstep
    obtain ⟨rfl, -⟩ := Prod.mk.inj he
    exact callStep_inv h hu
  | malloc ok =>
    obtain ⟨u, hu, he⟩ := Option.map_eq_some_iff.mp hstep
    obtain ⟨rfl, -⟩ := Prod.mk.inj he
    exact mallocStep_inv h hu
  | free =>
    rcases freeStep_cases hstep with ⟨b, rest, -, -, rfl⟩ | ⟨-, -, rfl⟩
    · exact h.moved _ (Or.inr rfl)
    · exact h.moved _ (Or.inr rfl)
  | run x ok => exact runStep_inv h hstep

/-! ## What is allocated -/

/-- What is allocated at a place if no call has failed since the first thread was created. -/
def Sound (s : State) : Prop :=
  match s.pc with
  | .mallocSb => s.memory = fun _ => .null
  | .initSb => s.memory = Function.update (fun _ => .null) .sb .allocated
  | .mallocArgs => s.memory .sb = .allocated ∧ s.memory .buffer = .allocated
  | .create _ | .detach _ | .initMutex | .signal | .keepAlive | .shutdown =>
    s.memory = fun _ => .allocated
  | .freeing rest =>
    s.threads .connectionManager = none ∧ rest.Nodup ∧ ∀ b ∈ rest, s.memory b ≠ .freed
  | .exited => True

/-- A thread runs only where everything is allocated. -/
theorem Sound.allocated (h : Sound s) (hinv : Inv s) (hpc : s.pc ≠ .exited)
    {x : Thread} (hx : s.threads x ≠ none) : s.memory = fun _ => .allocated := by
  have hsome : s.threads .connectionManager ≠ none := fun hnone => hx (hinv.first hnone x)
  have hcreated : s.pc.created ≠ some false := by
    intro hfalse
    have hnone := hinv.created false hfalse
    exact hsome (Option.isSome_eq_false_iff.mp hnone |> Option.isNone_iff_eq_none.mp)
  unfold Sound at h
  cases hp : s.pc with
  | mallocSb | initSb | mallocArgs => rw [hp] at hcreated; exact absurd rfl hcreated
  | freeing => rw [hp] at h; exact absurd h.1 hsome
  | exited => exact absurd hp hpc
  | create | detach | initMutex | signal | keepAlive | shutdown => rw [hp] at h; exact h

theorem callStep_sound {ok : Bool} (h : Sound s) (hcareful : Careful s (.call ok))
    (hstep : callStep s ok = some t) : Sound t := by
  unfold callStep at hstep
  unfold Sound at h
  have hfreeing : ∀ (rest : List Block), ok = false → rest.Nodup →
      (∀ b ∈ rest, s.memory b ≠ .freed) → Sound { s with pc := .freeing rest } := by
    intro rest hok hnodup hmem
    rw [hok] at hcareful
    exact ⟨hcareful, hnodup, hmem⟩
  cases hpc : s.pc with
  | mallocSb =>
    rw [hpc] at hstep h
    cases ok with
    | true =>
      obtain rfl := Option.some.inj hstep
      show Function.update s.memory .sb .allocated = _
      rw [h]
    | false =>
      obtain rfl := Option.some.inj hstep
      trivial
  | initSb =>
    rw [hpc] at hstep h
    cases ok with
    | true =>
      obtain rfl := Option.some.inj hstep
      show Function.update s.memory .buffer .allocated .sb = _ ∧
        Function.update s.memory .buffer .allocated .buffer = _
      rw [h]
      exact ⟨rfl, rfl⟩
    | false =>
      obtain rfl := Option.some.inj hstep
      refine hfreeing _ rfl (by decide) ?_
      rw [h]
      decide
  | create x | detach x | initMutex | signal | keepAlive =>
    rw [hpc] at hstep h
    cases ok with
    | true =>
      obtain rfl := Option.some.inj hstep
      first | exact h | (cases x <;> exact h)
    | false =>
      obtain rfl := Option.some.inj hstep
      refine hfreeing _ rfl (by decide) ?_
      rw [h]
      exact fun _ _ => nofun
  | mallocArgs | shutdown | freeing | exited =>
    rw [hpc] at hstep
    cases hstep

theorem mallocStep_sound {ok : Thread → Bool} (h : Sound s) (hinv : Inv s)
    (hstep : mallocStep s ok = some t) : Sound t := by
  obtain ⟨hpc, hstep⟩ := Option.ite_none_right_eq_some.mp hstep
  obtain rfl := Option.some.inj hstep
  unfold Sound at h
  rw [hpc] at h
  obtain ⟨hsb, hbuffer⟩ := h
  have hnone : s.threads .connectionManager = none := by
    have hisSome := hinv.created false (by rw [hpc]; rfl)
    exact Option.isNone_iff_eq_none.mp (Option.isSome_eq_false_iff.mp hisSome)
  by_cases hall : (ok .connectionManager && ok .dataManager && ok .storageManager) = true
  · rw [if_pos hall]
    rw [Bool.and_eq_true, Bool.and_eq_true] at hall
    obtain ⟨⟨hconnection, hdata⟩, hstorage⟩ := hall
    show mallocs s.memory ok = _
    funext b
    cases b with
    | sb => exact hsb
    | buffer => exact hbuffer
    | args x => cases x <;> simp [mallocs, hconnection, hdata, hstorage]
  · rw [if_neg hall]
    refine ⟨hnone, by decide, ?_⟩
    intro b hb
    simp only [allArgs, List.mem_cons, List.not_mem_nil, or_false] at hb
    rcases hb with rfl | rfl | rfl <;> (show (if _ then _ else _ : Memory) ≠ _; split <;> nofun)

theorem freeStep_sound (h : Sound s) (hstep : freeStep s = some (t, os)) :
    Sound t ∧ ∀ e ∈ os, e.Ok := by
  unfold Sound at h
  rcases freeStep_cases hstep with ⟨b, rest, hpc, rfl, rfl⟩ | ⟨hpc, rfl, rfl⟩
  · rw [hpc] at h
    obtain ⟨hnone, hnodup, hmem⟩ := h
    obtain ⟨hb, hnodup⟩ := List.nodup_cons.mp hnodup
    refine ⟨⟨hnone, hnodup, ?_⟩, List.forall_mem_singleton.mpr (hmem b List.mem_cons_self)⟩
    intro c hc
    have hne : c ≠ b := fun he => hb (he ▸ hc)
    have hkept := hmem c (List.mem_cons_of_mem _ hc)
    show (if s.memory b = .null then s.memory else Function.update s.memory b .freed) c ≠ .freed
    split
    · exact hkept
    · rwa [Function.update_of_ne hne]
  · exact ⟨trivial, fun e he => absurd he List.not_mem_nil⟩

/-- `main` frees nothing that a thread may use. -/
theorem Sound.not_freeing (h : Sound s) (hinv : Inv s) {x : Thread} (hx : s.threads x ≠ none)
    (rest : List Block) : s.pc ≠ .freeing rest := by
  intro hpc
  unfold Sound at h
  rw [hpc] at h
  exact hx (hinv.first h.1 x)

theorem runStep_sound {x : Thread} {ok : Bool} (h : Sound s) (hinv : Inv s)
    (hstep : runStep s x ok = some (t, os)) : Sound t ∧ ∀ e ∈ os, e.Ok := by
  obtain ⟨hpc, hx, ⟨bs, rfl, -⟩, ht⟩ := runStep_cases hstep
  have hall := h.allocated hinv hpc hx
  refine ⟨?_, ?_⟩
  · rcases ht with rfl | ⟨p, rfl, -⟩ | rfl
    · exact h
    · unfold Sound at h ⊢
      have hfreeing := Sound.not_freeing h hinv hx
      cases hp : s.pc with
      | freeing rest => exact absurd hp (hfreeing rest)
      | _ => rw [hp] at h; exact h
    · trivial
  · intro e he
    obtain ⟨b, -, rfl⟩ := List.mem_map.mp he
    show s.memory b = .allocated
    rw [hall]

theorem step_sound {a : Act} (h : Sound s) (hinv : Inv s) (hcareful : Careful s a)
    (hstep : step s a = some (t, os)) : Sound t ∧ ∀ e ∈ os, e.Ok := by
  have hquiet : ∀ e ∈ ([] : List Event), e.Ok := fun e he => absurd he List.not_mem_nil
  cases a with
  | call ok =>
    obtain ⟨u, hu, he⟩ := Option.map_eq_some_iff.mp hstep
    obtain ⟨rfl, rfl⟩ := Prod.mk.inj he
    exact ⟨callStep_sound h hcareful hu, hquiet⟩
  | malloc ok =>
    obtain ⟨u, hu, he⟩ := Option.map_eq_some_iff.mp hstep
    obtain ⟨rfl, rfl⟩ := Prod.mk.inj he
    exact ⟨mallocStep_sound h hinv hu, hquiet⟩
  | free => exact freeStep_sound h hstep
  | run x ok => exact runStep_sound h hinv hstep

/-! ## Runs -/

theorem careful_of_ne {a : Act} (ha : a ≠ .call false) : Careful s a := by
  cases a with
  | call ok =>
    cases ok with
    | true => trivial
    | false => exact absurd rfl ha
  | _ => trivial

/-- As long as calls succeed only what is allocated is used. -/
theorem not_doomed (h : Sound s) (hinv : Inv s) : ¬Doomed s := by
  rintro ⟨as, t, os, hsucceed, hrun, e, he, hbad⟩
  have hmeets : Machine.Meets step Careful s as :=
    Machine.meets_mono (fun _ _ ha => careful_of_ne ha)
      (Machine.meets_of_forall (D := fun a => a ≠ Act.call false)
        fun a ha hfalse => hsucceed (hfalse ▸ ha))
  have hok := Machine.meets_induction
    (P := fun os u => Sound u ∧ Inv u ∧ ∀ e ∈ os, e.Ok) ⟨h, hinv, fun e he => nomatch he⟩
    (fun os u a t os' ⟨hu, hinvu, hos⟩ ha hstep => by
      obtain ⟨ht, hos'⟩ := step_sound hu hinvu ha hstep
      exact ⟨ht, step_inv hinvu hstep, List.forall_mem_append.mpr ⟨hos, hos'⟩⟩) hmeets hrun
  exact hbad (hok.2.2 e he)

/-- After the failure `main` frees a block that `connection_manager` uses. -/
theorem callStep_fails (hstep : callStep s false = some t)
    (hcreated : s.threads .connectionManager ≠ none) (hinv : Inv s) :
    t.threads = s.threads ∧ ∃ b rest, t.pc = .freeing (b :: rest) ∧
      b ∈ uses .connectionManager := by
  have hearly : s.pc.created ≠ some false := by
    intro hfalse
    have hisSome := hinv.created false hfalse
    exact hcreated (Option.isNone_iff_eq_none.mp (Option.isSome_eq_false_iff.mp hisSome))
  unfold callStep at hstep
  cases hpc : s.pc with
  | mallocSb | initSb => rw [hpc] at hearly; exact absurd rfl hearly
  | create x | detach x | initMutex | signal | keepAlive =>
    rw [hpc] at hstep
    obtain rfl := Option.some.inj hstep
    exact ⟨rfl, _, _, rfl, by decide⟩
  | mallocArgs | shutdown | freeing | exited =>
    rw [hpc] at hstep
    cases hstep

theorem Doomed.before {a : Act} (h : Doomed t) (hstep : step s a = some (t, os))
    (ha : a ≠ .call false) : Doomed s := by
  obtain ⟨as, u, os', hsucceed, hrun, e, he, hbad⟩ := h
  refine ⟨a :: as, u, os ++ os', ?_,
    Machine.run_cons_eq_some.mpr ⟨t, os, os', hstep, hrun, rfl⟩, e, ?_, hbad⟩
  · exact List.not_mem_cons_of_ne_of_not_mem (Ne.symm ha) hsucceed
  · exact List.mem_append_right _ he

/-- `connection_manager` goes through its loop with a block that is gone. -/
theorem doomed_of_looping {b : Block} (hpc : s.pc ≠ .exited) (hb : b ∈ uses .connectionManager)
    (hmem : s.memory b ≠ .allocated) (hx : s.threads .connectionManager = some .looping) :
    Doomed s := by
  have hrun : step s (.run .connectionManager true) =
      some (s, touches s .connectionManager (uses .connectionManager)) := by
    simp only [step, runStep, if_neg hpc, hx]
  have hsucceed : Act.call false ∉ [Act.run .connectionManager true] := by simp
  exact ⟨_, s, _, hsucceed, Machine.run_single hrun, _, List.mem_map_of_mem hb, hmem⟩

theorem doomed_of_freeing {b : Block} {rest : List Block} (hpc : s.pc = .freeing (b :: rest))
    (hb : b ∈ uses .connectionManager) (hlive : s.threads .connectionManager ≠ none)
    (hinv : Inv s) : Doomed s := by
  let memory := if s.memory b = .null then s.memory else Function.update s.memory b .freed
  have hfree : step s .free = some (⟨.freeing rest, memory, s.threads⟩,
      [.freed b (s.memory b)]) := by
    simp only [step, freeStep, hpc]
    rfl
  have hgone : memory b ≠ .allocated := by
    show (if s.memory b = .null then s.memory else Function.update s.memory b .freed) b ≠ _
    split
    · next hnull => rw [hnull]; nofun
    · rw [Function.update_self]; nofun
  refine Doomed.before ?_ hfree nofun
  cases hx : s.threads .connectionManager with
  | none => exact absurd hx hlive
  | some p =>
    cases p with
    | ended => exact absurd hx hinv.live
    | looping => exact doomed_of_looping nofun hb hgone hx
    | starting =>
      -- the thread comes into its loop first
      let u : State := ⟨.freeing rest, memory,
        Function.update s.threads .connectionManager (some .looping)⟩
      have hstart : step ⟨.freeing rest, memory, s.threads⟩ (.run .connectionManager true) =
          some (u, touches ⟨.freeing rest, memory, s.threads⟩ .connectionManager
            [.args .connectionManager]) := by
        simp only [step, runStep, hx]
        rfl
      have hlooping : u.threads .connectionManager = some .looping := rfl
      have hu : Doomed u := doomed_of_looping (fun he => nomatch he) hb hgone hlooping
      exact hu.before hstart nofun

theorem careful_of_not_doomed {a : Act} (hinv : Inv s) (hstep : step s a = some (t, os))
    (h : ¬Doomed t) : Careful s a := by
  by_cases ha : a = .call false
  · subst ha
    by_contra hcreated
    obtain ⟨u, hu, he⟩ := Option.map_eq_some_iff.mp hstep
    obtain ⟨rfl, -⟩ := Prod.mk.inj he
    obtain ⟨hthreads, b, rest, hpc, hb⟩ := callStep_fails hu hcreated hinv
    exact h (doomed_of_freeing hpc hb (by rw [hthreads]; exact hcreated)
      (step_inv hinv hstep))
  · exact careful_of_ne ha

/- Everything is started, and `init_keep_alive` fails. -/
def lateFailure : List Act :=
  .call true :: .call true :: .malloc (fun _ => true) :: List.replicate 6 (.call true) ++
    [.run .connectionManager true, .call false]

end Startup
end Gateway
end LinuxEmbedded
