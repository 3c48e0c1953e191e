import LinuxEmbedded.Exercises.VarCond

/-
How the program of `varCond.c` ends.

Ten wakeups let the consumer go; eleven signals are sent.  One signal may be lost.
-/
namespace LinuxEmbedded
namespace Exercises
namespace VarCond

/-! ## The program -/

theorem Inv.create_producer {c : Option Thread} {g : Globals} {os : List Event}
    (h : Inv none c g os) : Inv (some (.producer (.locking 0))) c g os where
  placed := ⟨Nat.zero_le 10, h.placed.consumer, h.placed.mutexProducer, h.placed.mutexConsumer,
    h.placed.blocked⟩
  rounds := ⟨h.rounds.rounds, h.rounds.woken, h.rounds.data, h.rounds.fresh⟩
  turns := h.turns

theorem Inv.create_consumer {p : Option Thread} {g : Globals} {os : List Event}
    (h : Inv p none g os) : Inv p (some (.consumer .locking)) g os where
  placed := ⟨h.placed.producer, trivial, h.placed.mutexProducer, h.placed.mutexConsumer,
    fun hb => nomatch h.placed.blocked hb⟩
  rounds := ⟨h.rounds.rounds, h.rounds.woken, h.rounds.data,
    fun hw => hw.elim (fun hw => nomatch hw.1) (nomatch ·)⟩
  turns := ⟨h.turns.count, h.turns.bound, fun hw => hw.elim (nomatch ·) (nomatch ·),
    fun hw => hw.elim (nomatch ·) (nomatch ·), h.turns.counters, h.turns.values⟩

def Books (threads : Fin 2 → Option Thread) (g : Globals) (os : List Event) : Prop :=
  Inv (threads prod) (threads cons) g os

theorem eq_prod_or_cons (t : Fin 2) : t = prod ∨ t = cons := by
  revert t
  decide

theorem update_prod (threads : Fin 2 → Option Thread) (w : Thread) :
    Function.update threads prod (some w) prod = some w ∧
      Function.update threads prod (some w) cons = threads cons :=
  ⟨Function.update_self .., Function.update_of_ne (by decide) ..⟩

theorem update_cons (threads : Fin 2 → Option Thread) (w : Thread) :
    Function.update threads cons (some w) prod = threads prod ∧
      Function.update threads cons (some w) cons = some w :=
  ⟨Function.update_of_ne (by decide) .., Function.update_self ..⟩

/-- The first thread is the producer, the second the consumer. -/
theorem Books.thread {threads : Fin 2 → Option Thread} {g : Globals} {os : List Event}
    (h : Books threads g os) {t : Fin 2} {w : Thread} (hw : threads t = some w) :
    t = prod ∧ (∃ pc, w = .producer pc) ∨ t = cons ∧ ∃ pc, w = .consumer pc := by
  rcases eq_prod_or_cons t with rfl | rfl
  · have hat := h.placed.producer
    rw [hw] at hat
    cases w with
    | producer pc => exact Or.inl ⟨rfl, pc, rfl⟩
    | consumer pc => exact hat.elim
  · have hat := h.placed.consumer
    rw [hw] at hat
    cases w with
    | producer pc => exact hat.elim
    | consumer pc => exact Or.inr ⟨rfl, pc, rfl⟩

theorem books_prod {threads : Fin 2 → Option Thread} {g : Globals} {os : List Event} {w : Thread}
    (h : Inv (some w) (threads cons) g os) :
    Books (Function.update threads prod (some w)) g os := by
  obtain ⟨h₀, h₁⟩ := update_prod threads w
  rw [Books, h₀, h₁]
  exact h

theorem books_cons {threads : Fin 2 → Option Thread} {g : Globals} {os : List Event} {w : Thread}
    (h : Inv (threads prod) (some w) g os) :
    Books (Function.update threads cons (some w)) g os := by
  obtain ⟨h₀, h₁⟩ := update_cons threads w
  rw [Books, h₀, h₁]
  exact h

theorem keeps : program.Keeps NotSpurious Books where
  create := by
    intro threads g os t h hnone
    rcases eq_prod_or_cons t with rfl | rfl
    · rw [Books, hnone] at h
      exact books_prod h.create_producer
    · rw [Books, hnone] at h
      exact books_cons h.create_consumer
  thread := by
    intro threads g os t a w w' g' os' h hw _ ha hstep
    rcases h.thread hw with ⟨rfl, pc, rfl⟩ | ⟨rfl, pc, rfl⟩
    · exact books_prod (Inv.producer h hw hstep)
    · exact books_cons (Inv.consumer h hw ha hstep)
  finish := by
    intro threads g os os' h _ hfinish
    obtain rfl := Option.some.inj hfinish
    rw [List.append_nil]
    exact h

/-! ## How long a run can be -/

def producerLeft : Thread → Nat
  | .producer (.locking i) => 4 * (11 - i)
  | .producer (.setting i) => 4 * (11 - i) - 1
  | .producer (.signalling i) => 4 * (11 - i) - 2
  | .producer (.unlocking i) => 4 * (11 - i) - 3
  | _ => 0

def consumerLeft (count : Int) : Thread → Nat
  | .consumer .locking => 4 * (11 - count).toNat + 3
  | .consumer .testing => 4 * (11 - count).toNat + 2
  | .consumer .waiting => 4 * (11 - count).toNat + 1
  | .consumer .printing => 4 * (11 - count).toNat
  | .consumer .unlocking => 1
  | _ => 0

def rank (threads : Fin 2 → Option Thread) (g : Globals) : Nat :=
  producerLeft ((threads prod).getD (.producer (.locking 0))) +
    consumerLeft g.count ((threads cons).getD (.consumer .locking))

theorem producerLeft_lt {c : Option Thread} {g g' : Globals} {os os' : List Event} {a : Choice}
    {pc : Producer} {w' : Thread} (h : Inv (some (.producer pc)) c g os)
    (hstep : producer a pc g = some (w', g', os')) :
    producerLeft w' < producerLeft (.producer pc) ∧ g'.count = g.count := by
  unfold VarCond.producer at hstep
  split at hstep
  · next i =>
    obtain ⟨-, hstep⟩ := Option.ite_none_right_eq_some.mp hstep
    obtain ⟨rfl, rfl, -⟩ : _ ∧ _ ∧ _ := by simpa using Option.some.inj hstep
    have hi : i ≤ 10 := h.placed.producer
    refine ⟨?_, rfl⟩
    by_cases hlt : i < 10
    · rw [if_pos hlt]
      show 4 * (11 - i) - 1 < 4 * (11 - i)
      omega
    · rw [if_neg hlt]
      show 4 * (11 - i) - 2 < 4 * (11 - i)
      omega
  · next value i =>
    obtain ⟨rfl, rfl, -⟩ : _ ∧ _ ∧ _ := by simpa using Option.some.inj hstep
    have hi : i < 10 := h.placed.producer
    refine ⟨?_, rfl⟩
    show 4 * (11 - i) - 2 < 4 * (11 - i) - 1
    omega
  · next i =>
    obtain ⟨rfl, rfl, -⟩ : _ ∧ _ ∧ _ := by simpa using Option.some.inj hstep
    have hi : i ≤ 10 := h.placed.producer
    refine ⟨?_, rfl⟩
    show 4 * (11 - i) - 3 < 4 * (11 - i) - 2
    omega
  · next i =>
    obtain ⟨rfl, rfl, -⟩ : _ ∧ _ ∧ _ := by simpa using Option.some.inj hstep
    have hi : i ≤ 10 := h.placed.producer
    refine ⟨?_, rfl⟩
    by_cases hlt : i < 10
    · rw [if_pos hlt]
      show 4 * (11 - (i + 1)) < 4 * (11 - i) - 3
      omega
    · rw [if_neg hlt]
      show 0 < 4 * (11 - i) - 3
      omega
  · cases hstep

theorem consumerLeft_lt {p : Option Thread} {g g' : Globals} {os os' : List Event} {a : Choice}
    {pc : Consumer} {w' : Thread} (h : Inv p (some (.consumer pc)) g os) (ha : NotSpurious a)
    (hstep : consumer a pc g = some (w', g', os')) :
    consumerLeft g'.count w' < consumerLeft g.count (.consumer pc) := by
  unfold VarCond.consumer at hstep
  split at hstep
  · obtain ⟨-, hstep⟩ := Option.ite_none_right_eq_some.mp hstep
    obtain ⟨rfl, rfl, -⟩ : _ ∧ _ ∧ _ := by simpa using Option.some.inj hstep
    exact Nat.lt_succ_self _
  · by_cases hcount : g.count < 11
    · rw [if_pos hcount] at hstep
      obtain ⟨rfl, rfl, -⟩ : _ ∧ _ ∧ _ := by simpa using Option.some.inj hstep
      exact Nat.lt_succ_self _
    · rw [if_neg hcount] at hstep
      obtain ⟨rfl, rfl, -⟩ : _ ∧ _ ∧ _ := by simpa using Option.some.inj hstep
      show 1 < 4 * (11 - g.count).toNat + 2
      omega
  · obtain ⟨-, hstep⟩ := Option.ite_none_right_eq_some.mp hstep
    obtain ⟨rfl, rfl, -⟩ : _ ∧ _ ∧ _ := by simpa using Option.some.inj hstep
    exact Nat.lt_succ_self _
  · exact absurd rfl ha
  · obtain ⟨rfl, rfl, -⟩ : _ ∧ _ ∧ _ := by simpa using Option.some.inj hstep
    have hmore := h.turns.more (Or.inr rfl)
    show 4 * (11 - (g.count + 1)).toNat + 2 < 4 * (11 - g.count).toNat
    omega
  · obtain ⟨rfl, rfl, -⟩ : _ ∧ _ ∧ _ := by simpa using Option.some.inj hstep
    exact Nat.zero_lt_one
  · cases hstep

theorem ranked : ForkJoin.Program.Ranked program NotSpurious Books rank where
  create := by
    intro threads g os t _ hnone
    rcases eq_prod_or_cons t with rfl | rfl
    · obtain ⟨h₀, h₁⟩ := update_prod threads (.producer (.locking 0))
      show rank (Function.update threads prod (some (.producer (.locking 0)))) g ≤ _
      rw [rank, rank, h₀, h₁, hnone]
      exact Nat.le_refl _
    · obtain ⟨h₀, h₁⟩ := update_cons threads (.consumer .locking)
      show rank (Function.update threads cons (some (.consumer .locking))) g ≤ _
      rw [rank, rank, h₀, h₁, hnone]
      exact Nat.le_refl _
  thread := by
    intro threads g os t a w w' g' os' h hw _ ha hstep
    rcases h.thread hw with ⟨rfl, pc, rfl⟩ | ⟨rfl, pc, rfl⟩
    · obtain ⟨h₀, h₁⟩ := update_prod threads w'
      have h : Inv (threads prod) (threads cons) g os := h
      rw [hw] at h
      obtain ⟨hlt, hcount⟩ := producerLeft_lt h hstep
      rw [rank, rank, h₀, h₁, hw, hcount]
      exact Nat.add_lt_add_right hlt _
    · obtain ⟨h₀, h₁⟩ := update_cons threads w'
      have h : Inv (threads prod) (threads cons) g os := h
      rw [hw] at h
      have hlt := consumerLeft_lt h ha hstep
      rw [rank, rank, h₀, h₁, hw]
      exact Nat.add_lt_add_left hlt _

/-! ## Where a run can end -/

/-- The producer inside the mutex can go on. -/
theorem exists_step_producer (g : Globals) {pc : Producer}
    (h : inside (some (.producer pc)) = true) :
    ∃ a r, NotSpurious a ∧ producer a pc g = some r := by
  cases pc with
  | setting i => exact ⟨.rand 0, _, by decide, rfl⟩
  | signalling i => exact ⟨.go, _, by decide, rfl⟩
  | unlocking i => exact ⟨.go, _, by decide, rfl⟩
  | locking i => cases h
  | returned => cases h

theorem exists_step_consumer (g : Globals) {pc : Consumer}
    (h : inside (some (.consumer pc)) = true) :
    ∃ a r, NotSpurious a ∧ consumer a pc g = some r := by
  cases pc with
  | testing =>
    by_cases hcount : g.count < 11
    · exact ⟨.go, _, by decide, if_pos hcount⟩
    · exact ⟨.go, _, by decide, if_neg hcount⟩
  | printing => exact ⟨.go, _, by decide, rfl⟩
  | unlocking => exact ⟨.go, _, by decide, rfl⟩
  | locking => cases h
  | waiting => cases h
  | returned => cases h

/-- The consumer sleeps, and nobody is left to signal. -/
def Asleep (threads : Fin 2 → Option Thread) (g : Globals) : Prop :=
  threads prod = some (.producer .returned) ∧ threads cons = some (.consumer .waiting) ∧
    g.blocked = true

theorem Books.canGo_of_producer {threads : Fin 2 → Option Thread} {g : Globals} {pc : Producer}
    {a : Choice} {r : Thread × Globals × List Event} (hw : threads prod = some (.producer pc))
    (hlive : pc ≠ .returned) (ha : NotSpurious a) (hstep : producer a pc g = some r) :
    ForkJoin.Program.CanGo program NotSpurious threads g := by
  refine ⟨prod, a, _, r, ha, hw, ?_, hstep⟩
  cases pc with
  | returned => exact absurd rfl hlive
  | _ => rfl

theorem Books.canGo_of_consumer {threads : Fin 2 → Option Thread} {g : Globals} {pc : Consumer}
    {a : Choice} {r : Thread × Globals × List Event} (hw : threads cons = some (.consumer pc))
    (hlive : pc ≠ .returned) (ha : NotSpurious a) (hstep : consumer a pc g = some r) :
    ForkJoin.Program.CanGo program NotSpurious threads g := by
  refine ⟨cons, a, _, r, ha, hw, ?_, hstep⟩
  cases pc with
  | returned => exact absurd rfl hlive
  | _ => rfl

/-- Nobody can go on only if the consumer sleeps for good. -/
theorem Books.canGo_or_asleep {threads : Fin 2 → Option Thread} {g : Globals} {os : List Event}
    (h : Books threads g os) {t : Fin 2} {w : Thread} (hw : threads t = some w)
    (hlive : program.returned w = false) (hcreated : (threads prod).isSome = true) :
    ForkJoin.Program.CanGo program NotSpurious threads g ∨ Asleep threads g := by
  obtain ⟨w₀, hw₀⟩ := Option.isSome_iff_exists.mp hcreated
  obtain ⟨-, pc, rfl⟩ : prod = prod ∧ ∃ pc, w₀ = .producer pc := by
    rcases h.thread hw₀ with h₀ | ⟨h₁, -⟩
    · exact h₀
    · cases h₁
  by_cases hin : inside (some (.producer pc)) = true
  · obtain ⟨a, r, ha, hstep⟩ := exists_step_producer g hin
    refine Or.inl (canGo_of_producer hw₀ ?_ ha hstep)
    rintro rfl
    cases hin
  by_cases hin₁ : inside (threads cons) = true
  · cases hw₁ : threads cons with
    | none =>
      rw [hw₁] at hin₁
      cases hin₁
    | some w₁ =>
      obtain ⟨-, pc₁, rfl⟩ : cons = cons ∧ ∃ pc, w₁ = .consumer pc := by
        rcases h.thread hw₁ with ⟨h₀, -⟩ | h₁
        · cases h₀
        · exact h₁
      rw [hw₁] at hin₁
      obtain ⟨a, r, ha, hstep⟩ := exists_step_consumer g hin₁
      refine Or.inl (canGo_of_consumer hw₁ ?_ ha hstep)
      rintro rfl
      cases hin₁
  -- the mutex is free
  have hfree : g.mutex = none := by
    cases hmutex : g.mutex with
    | none => rfl
    | some t' =>
      rcases eq_prod_or_cons t' with rfl | rfl
      · have hinside := h.placed.mutexProducer.mpr hmutex
        rw [hw₀] at hinside
        exact absurd hinside hin
      · exact absurd (h.placed.mutexConsumer.mpr hmutex) hin₁
  cases pc with
  | locking i => exact Or.inl (canGo_of_producer hw₀ nofun (a := .go) (by decide) (if_pos hfree))
  | setting i => exact absurd rfl hin
  | signalling i => exact absurd rfl hin
  | unlocking i => exact absurd rfl hin
  | returned =>
    rcases h.thread hw with ⟨rfl, -⟩ | ⟨rfl, pc₁, rfl⟩
    · rw [hw₀] at hw
      obtain rfl := Option.some.inj hw
      cases hlive
    rw [hw] at hin₁
    cases pc₁ with
    | locking => exact Or.inl (canGo_of_consumer hw nofun (a := .go) (by decide) (if_pos hfree))
    | waiting =>
      cases hblocked : g.blocked with
      | true => exact Or.inr ⟨hw₀, hw, hblocked⟩
      | false =>
        exact Or.inl (canGo_of_consumer hw nofun (a := .go) (by decide)
          (if_pos ⟨hblocked, hfree⟩))
    | returned => cases hlive
    | testing => exact absurd rfl hin₁
    | printing => exact absurd rfl hin₁
    | unlocking => exact absurd rfl hin₁

/-- The producer is through before the consumer starts. -/
def producerFirst : List (ForkJoin.Act 2 Choice) :=
  .main :: (List.replicate 10 [.go, .rand 3, .go, .go]).flatten.map (.thread prod ·) ++
    [.go, .go, .go].map (.thread prod ·) ++ [.main, .thread cons .go, .thread cons .go, .main]

end VarCond
end Exercises
end LinuxEmbedded
