import LinuxEmbedded.Gateway.Shutdown
import LinuxEmbedded.Gateway.StorageLoop

/-
The consumers of the shutdown in the loop of `storage_manager`.

`Shutdown` splits `sbuffer_pop` at its pthread calls and takes the work on a reading as
one step.  Here each of its consumers, in any run with the other threads and the handler,
goes through the places of the loop call by call.
-/
namespace LinuxEmbedded
namespace Gateway
namespace Shutdown

open StorageLoop (step_of_moves)

variable {T C : Type}

/-- The attempt of the pop loop that the consumer is in, inside `sbuffer_pop`. -/
def ConsumerPc.attempt? : ConsumerPc → Option Nat
  | .popLock popRetries | .testing popRetries | .waiting popRetries | .asleep popRetries
  | .woken popRetries | .popUnlock popRetries _ => some popRetries
  | _ => none

/-- The place in the loop call by call. -/
def ConsumerPc.loopPc : ConsumerPc → StorageLoop.Pc
  | .starting | .head => .head
  | .popping popRetries | .popLock popRetries | .testing popRetries | .waiting popRetries
  | .asleep popRetries | .woken popRetries | .popUnlock popRetries _ => .popping popRetries
  | .popFailed popRetries => .popFailed popRetries
  | .working => .preparing 0
  | .cleanup => .cleanup
  | .ended => .stopped

structure LoopAt (p : ConsumerPc) (shutdownFlag : Bool) (v : StorageLoop.State) : Prop where
  /-- A thread that could not open the database ends without its loop. -/
  pc : v.pc = p.loopPc ∨ p = .ended ∧ v.pc = .head
  flag : v.shutdownFlag = shutdownFlag
  stmt : v.stmt = none
  reading : p = .working → ∃ data, v.data = some data
  attempt : ∀ n, p.attempt? = some n → n < maxRetries

theorem attempt_of_none {p : ConsumerPc} (h : p.attempt? = none) :
    ∀ n, p.attempt? = some n → n < maxRetries := by
  intro n hn
  rw [h] at hn
  cases hn

def LoopFollows (s : State T C) (c : C) (v : StorageLoop.State) : Prop :=
  ∃ p, s.pc (.consumer c) = .consumer p ∧ LoopAt p s.shutdownFlag v

theorem loopFollows_start (sb : Sbuffer T) (c : C) :
    LoopFollows (start sb) c (StorageLoop.start false) :=
  ⟨.starting, rfl, Or.inl rfl, rfl, rfl, (fun h => by cases h), attempt_of_none rfl⟩

/-- The loop goes on to a place. -/
def LoopReaches (v : StorageLoop.State) (p : ConsumerPc) (shutdownFlag : Bool) : Prop :=
  ∃ v' ls, Machine.Reaches StorageLoop.step v v' ls ∧ LoopAt p shutdownFlag v'

variable {p p' : ConsumerPc} {flag : Bool} {v : StorageLoop.State}

theorem LoopReaches.stay (h : LoopAt p flag v) : LoopReaches v p flag := ⟨v, [], .refl v, h⟩

/-- The flag is set by somebody. -/
theorem LoopAt.flagged (h : LoopAt p flag v) {flag' : Bool} (hle : flag = true → flag' = true) :
    LoopReaches v p flag' := by
  cases flag' with
  | true =>
    have hgo : StorageLoop.step v .shutdown = some ({ v with shutdownFlag := true }, []) := rfl
    exact ⟨_, [], .single hgo, h.pc, rfl, h.stmt, h.reading, h.attempt⟩
  | false =>
    have hflag : flag = false := Bool.eq_false_iff.mpr fun ht => Bool.false_ne_true (hle ht)
    exact .stay ⟨h.pc, h.flag.trans hflag, h.stmt, h.reading, h.attempt⟩

/-- A place in the same attempt. -/
theorem LoopAt.inPop (h : LoopAt p flag v) (hpc : p'.loopPc = p.loopPc) (hended : p ≠ .ended)
    (hworking : p' ≠ .working) (hattempt : ∀ n, p'.attempt? = some n → n < maxRetries) :
    LoopReaches v p' flag := by
  refine .stay ⟨Or.inl ?_, h.flag, h.stmt, fun hw => absurd hw hworking, hattempt⟩
  rcases h.pc with hv | ⟨he, _⟩
  · rw [hv, hpc]
  · exact absurd he hended

/-- The place, of a thread that has not returned. -/
theorem LoopAt.place (h : LoopAt p flag v) (hended : p ≠ .ended) : v.pc = p.loopPc := by
  rcases h.pc with hv | ⟨he, _⟩
  · exact hv
  · exact absurd he hended

/-- One test or call of the loop that leaves no reading. -/
theorem LoopAt.moved (h : LoopAt p flag v) {a : StorageLoop.Act} {pc : StorageLoop.Pc}
    {data : Option (SensorData ℚ)} {ls : List StorageLoop.Event}
    (hgo : StorageLoop.step v a = some ({ v with pc := pc, data := data }, ls))
    (hpc : p'.loopPc = pc) (hworking : p' ≠ .working) (hattempt : p'.attempt? = none) :
    LoopReaches v p' flag := by
  exact ⟨_, ls, .single hgo, Or.inl hpc.symm, h.flag, h.stmt, fun hw => absurd hw hworking,
    attempt_of_none hattempt⟩

theorem head_loop (h : LoopAt .head flag v) :
    LoopReaches v (if flag then .cleanup else .popping 0) flag := by
  have hv : v.pc = .head := h.place (by simp)
  have hflag := h.flag
  cases flag with
  | true => exact h.moved (step_of_moves (.leave (Or.inl hv) hflag)) rfl (by simp) rfl
  | false =>
    have hgo := step_of_moves (.enter hv hflag)
    have hgo' := step_of_moves (.startPop (s := { v with pc := .entered, data := none }) rfl hflag)
    exact ⟨_, [], .head hgo (.single hgo'), Or.inl rfl, hflag, h.stmt, (by simp),
      attempt_of_none rfl⟩

theorem popping_loop {n : Nat} (h : LoopAt (.popping n) flag v) :
    LoopReaches v (if n < maxRetries then .popLock n else .head) flag := by
  have hv : v.pc = .popping n := h.place (by simp)
  by_cases hn : n < maxRetries
  · rw [if_pos hn]
    refine h.inPop rfl (by simp) (by simp) fun m hm => ?_
    obtain rfl := Option.some.inj hm
    exact hn
  · rw [if_neg hn]
    exact h.moved (step_of_moves (.skipPop hv hn)) rfl (by simp) rfl

/-- `sbuffer_pop` returns. -/
theorem popUnlock_loop {n : Nat} {popped : Bool} (h : LoopAt (.popUnlock n popped) flag v) :
    LoopReaches v (if popped then .working else .popFailed n) flag := by
  have hv : v.pc = .popping n := h.place (by simp)
  have hn : n < maxRetries := h.attempt n rfl
  cases popped with
  | true =>
    have hgo := step_of_moves (.popped ⟨0, 0, 0⟩ hv hn)
    exact ⟨_, _, .single hgo, Or.inl rfl, h.flag, h.stmt, fun _ => ⟨_, rfl⟩,
      attempt_of_none rfl⟩
  | false => exact h.moved (step_of_moves (.popFails none hv hn)) rfl (by simp) rfl

theorem popFailed_loop {n : Nat} (h : LoopAt (.popFailed n) flag v) :
    LoopReaches v (if flag then .cleanup else .popping (n + 1)) flag := by
  have hv : v.pc = .popFailed n := h.place (by simp)
  have hflag := h.flag
  cases flag with
  | true =>
    exact h.moved (step_of_moves (.leave (Or.inr (Or.inr ⟨n, hv⟩)) hflag)) rfl (by simp) rfl
  | false => exact h.moved (step_of_moves (.retryPop hv hflag)) rfl (by simp) rfl

/-- A reading is prepared, bound and inserted at the first attempts. -/
theorem working_loop (h : LoopAt .working flag v) : LoopReaches v .head flag := by
  have hv : v.pc = .preparing 0 := h.place (by simp)
  obtain ⟨data, hdata⟩ := h.reading rfl
  have hfirst : 0 < maxRetries := by decide
  let prepared : StorageLoop.State := { v with
    pc := .binding
    stmt := some ⟨v.prepareCount, .none⟩
    prepareCount := v.prepareCount + 1 }
  let bound : StorageLoop.State := { prepared with
    pc := .stepping 0
    stmt := some ⟨v.prepareCount, .of (measurement data)⟩ }
  have hprepare : StorageLoop.step v (.prepare true) = some (prepared, _) :=
    step_of_moves (.prepared hv hfirst)
  have hreading : prepared.data = some data := hdata
  have hbind : StorageLoop.step prepared (.bind true true true) = some (bound, []) :=
    step_of_moves (.bound rfl rfl hreading)
  have hinsert : StorageLoop.step bound (.step true) =
      some ({ bound with pc := .cleanupStmt }, _) := step_of_moves (.inserted rfl rfl hfirst)
  have hfinalize : StorageLoop.step { bound with pc := .cleanupStmt } .go =
      some ({ bound with pc := .head, stmt := none }, _) := step_of_moves (.cleanupStmt rfl)
  exact ⟨_, _, .head hprepare (.head hbind (.head hinsert (.single hfinalize))), Or.inl rfl,
    h.flag, rfl, (by simp), attempt_of_none rfl⟩

theorem cleanup_loop (h : LoopAt .cleanup flag v) : LoopReaches v .ended flag := by
  have hv : v.pc = .cleanup := h.place (by simp)
  exact h.moved (step_of_moves (.close true hv)) rfl (by simp) rfl

/-- A step of the consumer's own program. -/
theorem consumerNext_loop {s : State T C} {answer : Answer T C} {e : Effect T C}
    (h : LoopAt p s.shutdownFlag v) (hnext : consumerNext s answer p = some (e, p')) :
    LoopReaches v p' s.shutdownFlag := by
  cases p with
  | starting =>
    simp only [consumerNext] at hnext
    split at hnext
    · next ok =>
      obtain ⟨-, rfl⟩ := Prod.mk.inj (Option.some.inj hnext)
      have hv := h.place (by simp)
      cases ok with
      | true => exact h.inPop rfl (by simp) (by simp) (attempt_of_none rfl)
      | false => exact .stay ⟨Or.inr ⟨rfl, hv⟩, h.flag, h.stmt, (by simp), attempt_of_none rfl⟩
    · cases hnext
  | head =>
    obtain ⟨-, rfl⟩ := Prod.mk.inj (Option.some.inj hnext)
    exact head_loop h
  | popping n =>
    obtain ⟨-, rfl⟩ := Prod.mk.inj (Option.some.inj hnext)
    exact popping_loop h
  | popLock n | waiting n | woken n =>
    obtain ⟨-, rfl⟩ := Prod.mk.inj (Option.some.inj hnext)
    exact h.inPop rfl (by simp) (by simp) h.attempt
  | testing n =>
    simp only [consumerNext] at hnext
    split at hnext
    · obtain ⟨-, rfl⟩ := Prod.mk.inj (Option.some.inj hnext)
      exact h.inPop rfl (by simp) (by simp) h.attempt
    · split at hnext
      · obtain ⟨-, rfl⟩ := Prod.mk.inj (Option.some.inj hnext)
        exact h.inPop rfl (by simp) (by simp) h.attempt
      · obtain ⟨-, rfl⟩ := Prod.mk.inj (Option.some.inj hnext)
        exact h.inPop rfl (by simp) (by simp) h.attempt
  | asleep n => cases hnext
  | popUnlock n popped =>
    obtain ⟨-, rfl⟩ := Prod.mk.inj (Option.some.inj hnext)
    exact popUnlock_loop h
  | popFailed n =>
    obtain ⟨-, rfl⟩ := Prod.mk.inj (Option.some.inj hnext)
    exact popFailed_loop h
  | working =>
    obtain ⟨-, rfl⟩ := Prod.mk.inj (Option.some.inj hnext)
    exact working_loop h
  | cleanup =>
    obtain ⟨-, rfl⟩ := Prod.mk.inj (Option.some.inj hnext)
    exact cleanup_loop h
  | ended => cases hnext

/-! ## Runs -/

/-- A wakeup is no place of the loop. -/
theorem LoopAt.wake {n : Nat} (h : LoopAt (.asleep n) flag v) : LoopAt (.woken n) flag v :=
  ⟨Or.inl (h.place (by simp)), h.flag, h.stmt, (by simp), h.attempt⟩

/-- Where another thread moves, or the handler. -/
theorem LoopFollows.others {s t : State T C} {c : C} (h : LoopFollows s c v)
    (hpc : t.pc (.consumer c) = s.pc (.consumer c) ∨
      t.pc (.consumer c) = (s.pc (.consumer c)).wake)
    (hflag : s.shutdownFlag = true → t.shutdownFlag = true) :
    ∃ v' ls, Machine.Reaches StorageLoop.step v v' ls ∧ LoopFollows t c v' := by
  obtain ⟨p, hp, hat⟩ := h
  rw [hp] at hpc
  have hwoken : ∃ q, t.pc (.consumer c) = .consumer q ∧ LoopAt q s.shutdownFlag v := by
    rcases hpc with hpc | hpc
    · exact ⟨p, hpc, hat⟩
    · cases p with
      | asleep n => exact ⟨.woken n, hpc, hat.wake⟩
      | _ => exact ⟨_, hpc, hat⟩
  obtain ⟨q, hq, hat⟩ := hwoken
  obtain ⟨v', ls, hgo, hat'⟩ := hat.flagged hflag
  exact ⟨v', ls, hgo, q, hq, hat'⟩

section Run

variable [DecidableEq C] [Fintype C]

theorem step_loop {s t : State T C} {c : C} {a : Act T C} {os : List (Event C)}
    (h : LoopFollows s c v) (hstep : step s a = some (t, os)) :
    ∃ v' ls, Machine.Reaches StorageLoop.step v v' ls ∧ LoopFollows t c v' := by
  cases step_moves hstep with
  | @run x answer e pc u on idle hnext happly =>
    have hflag : s.shutdownFlag = true → (u.goto x pc).shutdownFlag = true :=
      fun hs => (apply_flag happly).mpr (Or.inl hs)
    by_cases hx : x = .consumer c
    · subst hx
      obtain ⟨p, hp, hat⟩ := h
      rw [hp] at hnext
      obtain ⟨⟨e', p'⟩, hp', he⟩ := Option.map_eq_some_iff.mp hnext
      obtain ⟨rfl, rfl⟩ := Prod.mk.inj he
      obtain ⟨v', ls, hgo, hat'⟩ := consumerNext_loop hat hp'
      obtain ⟨v'', ls', hgo', hat''⟩ := hat'.flagged hflag
      exact ⟨v'', ls ++ ls', hgo.trans hgo', p', goto_pc_self .., hat''⟩
    · refine h.others ?_ hflag
      have hsame : (u.goto x pc).pc (.consumer c) = u.pc (.consumer c) :=
        Function.update_of_ne (Ne.symm hx) ..
      rw [hsame]
      exact apply_pc happly _
  | sigint alive => exact h.others (Or.inl rfl) id
  | @handle x e k u hnext happly =>
    exact h.others (apply_pc happly _) fun hs => (apply_flag happly).mpr (Or.inl hs)
  | @wake c' =>
    refine h.others ?_ id
    by_cases hc : c' = c
    · rw [hc]
      exact Or.inr (goto_pc_self ..)
    · exact Or.inl (Function.update_of_ne (fun he => hc (Thread.consumer.inj he).symm) ..)

end Run

/- A consumer that blocks on `not_empty`, is woken by the broadcast, and leaves. -/
def wokenSchedule : List (Act Unit (Fin 1)) :=
  Act.run (.consumer 0) (.opened true) :: List.replicate 5 (Act.run (.consumer 0) .none) ++
  Act.sigint .main :: List.replicate 4 (Act.handle .main) ++
  List.replicate 7 (Act.run .main .none) ++ List.replicate 5 (Act.run (.consumer 0) .none)

end Shutdown
end Gateway
end LinuxEmbedded
