import LinuxEmbedded.Gateway.Shutdown

/-
No consumer sleeps through the shutdown.

The flag is written under `conn_mutex`, or by the handler, while a consumer tests
it and waits under `sb->mutex`.  `main` broadcasts under `sb->mutex` after it has
written the flag itself: a consumer that tested before the section is past its
wait when the section begins, and one that tests after it sees the flag.
-/
namespace LinuxEmbedded
namespace Gateway
namespace Shutdown

variable {T C : Type} [DecidableEq C]

/-- `sb->mutex` excludes, the flag is written before the broadcast, and after the
broadcast nobody is blocked on `not_empty` or about to be. -/
structure Inv (s : State T C) : Prop where
  of : ∀ t, (s.pc t).Of t
  exclusive : s.undefined = false → s.sbMutex.destroyed = false →
    Mutex.Exclusive (fun t => (s.pc t).inside) s.sbMutex.holder
  late : s.sbMutex.destroyed = true → 5 ≤ s.stage
  flag : 1 ≤ s.stage → s.shutdownFlag = true
  awake : 2 ≤ s.stage → ∀ t, (s.pc t).dozing = false

omit [DecidableEq C] in
theorem inv_start (sb : Sbuffer T) : Inv (start sb : State T C) where
  of := by
    intro t
    cases t <;> trivial
  exclusive := by
    intro _ _ t
    cases t <;> simp [start, startPc, Pc.inside, PthreadMutex.fresh]
  late := by simp [start, PthreadMutex.fresh]
  flag := by simp [State.stage, start, startPc, Pc.stage, MainPc.stage]
  awake := by simp [State.stage, start, startPc, Pc.stage, MainPc.stage]

omit [DecidableEq C] in
/-- A state that differs in nothing these properties look at, but that threads
have been woken. -/
theorem Inv.woken {s u : State T C} (h : Inv s)
    (hpc : ∀ x, u.pc x = s.pc x ∨ u.pc x = (s.pc x).wake)
    (hundefined : u.undefined = false → s.undefined = false)
    (hsb : u.undefined = false → u.sbMutex.holder = s.sbMutex.holder)
    (hdestroyed : u.sbMutex.destroyed = s.sbMutex.destroyed)
    (hflag : s.shutdownFlag = true → u.shutdownFlag = true) : Inv u := by
  have hinside : (fun t => (u.pc t).inside) = fun t => (s.pc t).inside := by
    funext x
    rcases hpc x with he | he <;> simp [he]
  have hstage : u.stage = s.stage := by
    rcases hpc .main with he | he <;> simp [State.stage, he]
  refine ⟨?_, ?_, ?_, ?_, ?_⟩
  · intro x
    rcases hpc x with he | he
    · rw [he]
      exact h.of x
    · rw [he]
      exact (h.of x).wake
  · intro hu hd
    rw [hinside, hsb hu]
    exact h.exclusive (hundefined hu) (hdestroyed ▸ hd)
  · rw [hdestroyed, hstage]
    exact h.late
  · rw [hstage]
    exact fun hle => hflag (h.flag hle)
  · rw [hstage]
    intro hle x
    by_cases hx : (u.pc x).dozing = true
    · rcases hpc x with he | he
      · rw [he]
        exact h.awake hle x
      · rw [he] at hx
        have hdoze := dozing_of_wake hx
        rw [h.awake hle x] at hdoze
        cases hdoze
    · simpa using hx

section Run

variable [Fintype C] {s u : State T C} {t : Thread C} {answer : Answer T C} {e : Effect T C}
  {pc : Pc T}

/-- The holder of `sb->mutex` after a step of a program. -/
theorem Inv.exclusive_run (h : Inv s) (hnext : next s answer (s.pc t) = some (e, pc))
    (happly : apply s t e = some u) (hundefined : u.undefined = false)
    (hdestroyed : u.sbMutex.destroyed = false) :
    Mutex.Exclusive (fun x => ((u.goto t pc).pc x).inside) u.sbMutex.holder := by
  have hdefined := apply_undefined happly hundefined
  obtain ⟨_, hstay, _⟩ := apply_destroyed happly
  have halive : s.sbMutex.destroyed = false := by
    by_cases hd : s.sbMutex.destroyed = true
    · rw [hstay hd] at hdestroyed
      cases hdestroyed
    · simpa using hd
  have hfree : e ≠ .free := by
    intro he
    subst he
    cases happly
    cases hdestroyed
  have hx := h.exclusive hdefined halive
  have hinside : (fun x => ((u.goto t pc).pc x).inside) =
      Function.update (fun x => (s.pc x).inside) t pc.inside := by
    funext x
    show (Function.update u.pc t pc x).inside = _
    by_cases hxt : x = t
    · rw [hxt, Function.update_self, Function.update_self]
    · rw [Function.update_of_ne hxt, Function.update_of_ne hxt]
      rcases apply_pc happly x with he | he <;> simp [he]
  obtain ⟨hlock, hunlock, hkeep⟩ := apply_holder happly hfree hundefined
  rw [hinside]
  rcases next_inside hnext with ⟨he, _, hin⟩ | ⟨he, hin, hout⟩ | ⟨hne, hne', hsame⟩
  · obtain ⟨hnone, hsome⟩ := hlock he
    rw [hnone] at hx
    rw [hsome, hin]
    exact hx.enter t
  · rw [hunlock he, hout]
    exact hx.leave hin
  · rw [hkeep hne hne', hsame]
    exact hx.stay rfl

omit [DecidableEq C] [Fintype C] in
/-- Before its end the broadcast wakes everyone, and nobody is about to wait, as
`main` is inside. -/
theorem Inv.dozing_broadcast (h : Inv s) (hdefined : s.undefined = false)
    (hmain : s.pc .main = .main .broadcasting) (x : Thread C) :
    (s.pc x).wake.dozing = false := by
  have hstage : s.stage = 1 := by
    rw [State.stage, hmain]
    rfl
  have halive : s.sbMutex.destroyed = false := by
    by_cases hd : s.sbMutex.destroyed = true
    · have hle := h.late hd
      omega
    · simpa using hd
  have hx := h.exclusive hdefined halive
  have hmainIn : (s.pc .main).inside = true := by
    rw [hmain]
    rfl
  cases hp : s.pc x with
  | main p => rfl
  | connection p => rfl
  | consumer p =>
    cases p with
    | waiting n =>
      have hin : (s.pc x).inside = true := by
        rw [hp]
        rfl
      have he := hx.unique hin hmainIn
      rw [he, hmain] at hp
      cases hp
    | _ => rfl

omit [DecidableEq C] [Fintype C] in
theorem next_dozing (hflag : s.shutdownFlag = true)
    (hnext : next s answer (s.pc t) = some (e, pc)) (hdoze : pc.dozing = true) :
    (s.pc t).dozing = true := by
  cases hp : s.pc t with
  | main p =>
    rw [hp] at hnext
    obtain ⟨q, _, he⟩ := Option.map_eq_some_iff.mp hnext
    rw [← (Prod.mk.inj he).2] at hdoze
    cases hdoze
  | connection p =>
    rw [hp] at hnext
    obtain ⟨q, _, he⟩ := Option.map_eq_some_iff.mp hnext
    rw [← (Prod.mk.inj he).2] at hdoze
    cases hdoze
  | consumer p =>
    rw [hp] at hnext
    obtain ⟨⟨e', p'⟩, hp', he⟩ := Option.map_eq_some_iff.mp hnext
    obtain ⟨rfl, rfl⟩ := Prod.mk.inj he
    exact consumerNext_dozing hp' hflag hdoze

/-- A step of a program. -/
theorem Inv.run (h : Inv s) (hdefined : s.undefined = false)
    (hnext : next s answer (s.pc t) = some (e, pc)) (happly : apply s t e = some u) :
    Inv (u.goto t pc) := by
  obtain ⟨hle, hsetFlag, hwake, _, _⟩ := run_stage h.of hnext happly
  have hflag : 1 ≤ (u.goto t pc).stage → u.shutdownFlag = true := by
    intro hge
    rw [apply_flag happly]
    by_cases hs : s.stage < 1
    · exact Or.inr (hsetFlag hs hge)
    · exact Or.inl (h.flag (by omega))
  refine ⟨?_, h.exclusive_run hnext happly, ?_, hflag, ?_⟩
  · intro x
    show (Function.update u.pc t pc x).Of x
    by_cases hx : x = t
    · rw [hx, Function.update_self]
      exact next_of (h.of t) hnext
    · rw [Function.update_of_ne hx]
      rcases apply_pc happly x with he | he
      · rw [he]
        exact h.of x
      · rw [he]
        exact (h.of x).wake
  · intro hd
    rcases (apply_destroyed happly).1 hd with hd | hd
    · exact Nat.le_trans (h.late hd) hle
    · have hlast : e.last = true := by
        rcases hd with rfl | rfl <;> rfl
      rcases next_last hnext hlast with ⟨he, _⟩ | ⟨he, _⟩ | hstage
      · rw [he] at hd
        simp at hd
      · rw [he] at hd
        simp at hd
      · have ht := (h.of t).main_of_stage (by omega)
        rw [ht] at hstage
        exact Nat.le_trans hstage hle
  · intro hge x
    show (Function.update u.pc t pc x).dozing = false
    by_cases hs : s.stage < 2
    · -- this is the broadcast
      obtain ⟨rfl, rfl, hmain⟩ := hwake hs hge
      by_cases hx : x = .main
      · rw [hx, Function.update_self]
        exact (next_of (h.of .main) hnext).not_dozing
      · rw [Function.update_of_ne hx, apply_broadcast happly]
        exact h.dozing_broadcast hdefined hmain x
    · have hs : 2 ≤ s.stage := by omega
      by_cases hdoze : (Function.update u.pc t pc x).dozing = true
      · have hbefore : (s.pc x).dozing = true := by
          by_cases hx : x = t
          · subst hx
            rw [Function.update_self] at hdoze
            exact next_dozing (h.flag (by omega)) hnext hdoze
          · rw [Function.update_of_ne hx] at hdoze
            rcases apply_pc happly x with he | he
            · rwa [he] at hdoze
            · rw [he] at hdoze
              exact dozing_of_wake hdoze
        rw [h.awake hs x] at hbefore
        cases hbefore
      · simpa using hdoze

theorem Inv.moves {a : Act T C} {v : State T C} {os : List (Event C)} (h : Inv s)
    (hmove : Moves s a v os) : Inv v := by
  cases hmove with
  | run on _ next apply =>
    have hdefined : s.undefined = false := (Bool.or_eq_false_iff.mp on).1
    exact h.run hdefined next apply
  | sigint _ => exact h.woken (fun _ => Or.inl rfl) id (fun _ => rfl) rfl id
  | @handle t e hpc u next apply =>
    have hnot : e ≠ .destroySb ∧ e ≠ .free ∧ e ≠ .lockSb ∧ e ≠ .unlockSb := by
      cases hh : s.handler t <;> rw [hh] at next <;> cases next <;> simp
    obtain ⟨hdestroy, hfree, hlock, hunlock⟩ := hnot
    obtain ⟨hd, hd', _⟩ := apply_destroyed apply
    refine h.woken (fun x => apply_pc apply x) (fun hu => apply_undefined apply hu)
      (fun hu => (apply_holder apply hfree hu).2.2 hlock hunlock) ?_
      (fun hf => (apply_flag apply).mpr (Or.inl hf))
    rw [Bool.eq_iff_iff]
    exact ⟨fun hu => by simpa [hdestroy, hfree] using hd hu, hd'⟩
  | @wake c =>
    refine h.woken ?_ id (fun _ => rfl) rfl id
    intro x
    by_cases hx : x = .consumer c
    · subst hx
      exact Or.inr (Function.update_self ..)
    · exact Or.inl (Function.update_of_ne hx ..)

/-- `main` never goes back. -/
theorem Inv.stage_le {a : Act T C} {v : State T C} {os : List (Event C)} (h : Inv s)
    (hmove : Moves s a v os) : s.stage ≤ v.stage := by
  cases hmove with
  | run _ _ next apply => exact (run_stage h.of next apply).1
  | sigint _ => exact Nat.le_refl _
  | @handle t e hpc u next apply =>
    have he : u.stage = s.stage := by
      rcases apply_pc apply .main with he | he <;> simp [State.stage, he]
    exact Nat.le_of_eq he.symm
  | wake => exact Nat.le_refl _

end Run

/-- `main` has completed the section in which it broadcasts. -/
def State.WokeConsumers (s : State T C) : Prop := 3 ≤ s.stage

/-- From the end of that section on no consumer is blocked on `not_empty`. -/
theorem no_consumer_left_asleep [Fintype C] {sb : Sbuffer T} {s v : State T C}
    (hreach : Machine.Reachable step (start sb) s) (hwoke : s.WokeConsumers)
    (hlater : Machine.Reachable step s v) (c : C) : (v.pc (.consumer c)).isAsleep = false := by
  have hinv : Inv s :=
    hreach.invariant (fun _ _ _ _ h hstep => h.moves (step_moves hstep)) (inv_start sb)
  obtain ⟨hv, hstage⟩ : Inv v ∧ 3 ≤ v.stage := by
    refine hlater.invariant (I := fun v => Inv v ∧ 3 ≤ v.stage) ?_ ⟨hinv, hwoke⟩
    intro u a w os ⟨hu, hle⟩ hstep
    exact ⟨hu.moves (step_moves hstep), Nat.le_trans hle (hu.stage_le (step_moves hstep))⟩
  have hawake := hv.awake (by omega) (.consumer c)
  revert hawake
  cases v.pc (.consumer c) with
  | consumer p => cases p <;> simp [Pc.dozing, Pc.isAsleep]
  | _ => simp [Pc.isAsleep]

/-- One of two consumers asleep when SIGINT interrupts `main`. -/
theorem no_consumer_left_asleep_one_waits :
    ∃ s v : State Unit (Fin 2), Machine.Reachable step (start ⟨[⟨0, (), 0⟩], 1, 0, 0, 0⟩) s ∧
      s.WokeConsumers ∧ Machine.Reachable step s v ∧
      ∀ c, (v.pc (.consumer c)).isAsleep = false := by
  let sleeps : List (Act Unit (Fin 2)) := [.run (.consumer 0) (.opened true),
    .run (.consumer 0) .none, .run (.consumer 0) .none, .run (.consumer 0) .none,
    .run (.consumer 0) .none, .run (.consumer 0) .none]
  let wakes : List (Act Unit (Fin 2)) := [.sigint .main, .handle .main, .handle .main,
    .handle .main, .handle .main] ++ List.replicate 7 (.run .main .none)
  have hstage : ((Machine.run step (start ⟨[⟨0, (), 0⟩], 1, 0, 0, 0⟩) (sleeps ++ wakes)).map
      fun q => q.1.stage) = some 3 := by decide +kernel
  obtain ⟨⟨s, os⟩, hrun, hs⟩ := Option.map_eq_some_iff.mp hstage
  have hreach : Machine.Reachable step (start ⟨[⟨0, (), 0⟩], 1, 0, 0, 0⟩) s := ⟨_, os, hrun⟩
  have hwoke : s.WokeConsumers := Nat.le_of_eq hs.symm
  have hlater : Machine.Reachable step s s := ⟨[], [], rfl⟩
  exact ⟨s, s, hreach, hwoke, hlater, no_consumer_left_asleep hreach hwoke hlater⟩

end Shutdown
end Gateway
end LinuxEmbedded
