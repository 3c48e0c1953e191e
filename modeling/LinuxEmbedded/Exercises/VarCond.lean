import LinuxEmbedded.Lib.ForkJoin

/-
The producer and the consumer of `varCond.c`.

The producer sets `data` and signals ten times, and signals once more; the consumer
waits without a test of its own.  A signal that finds nobody waiting is lost.
-/
namespace LinuxEmbedded
namespace Exercises
namespace VarCond

/-- `prod` and `cons` of `main`. -/
abbrev prod : Fin 2 := ⟨0, Nat.zero_lt_two⟩
abbrev cons : Fin 2 := ⟨1, Nat.one_lt_two⟩

structure Globals where
  data : Int
  count : Int
  mutex : Option (Fin 2)
  /-- The consumer is blocked in `pthread_cond_wait`. -/
  blocked : Bool
  deriving DecidableEq

inductive Producer where
  | locking (i : Nat)
  | setting (i : Nat)
  | signalling (i : Nat)
  | unlocking (i : Nat)
  | returned
  deriving DecidableEq

inductive Consumer where
  | locking
  /-- At the test of the loop. -/
  | testing
  /-- In `pthread_cond_wait`, without the mutex. -/
  | waiting
  | printing
  | unlocking
  | returned
  deriving DecidableEq

inductive Thread where
  | producer (pc : Producer)
  | consumer (pc : Consumer)
  deriving DecidableEq

/-- How a thread goes on: `rand` is the value of `rand()`, `spurious` a return of
`pthread_cond_wait` without a signal. -/
inductive Choice where
  | go
  | rand (value : Nat)
  | spurious
  deriving DecidableEq

inductive Event where
  /-- The producer has the mutex; `waiting` says whether the consumer is blocked (ghost). -/
  | producerLocked (waiting : Bool)
  | gotData (data counter : Int)
  deriving DecidableEq

/-- `producer`: ten rounds with data, and one without. -/
def producer : Choice → Producer → Globals → Option (Thread × Globals × List Event)
  | .go, .locking i, g =>
    if g.mutex = none then
      some (.producer (if i < 10 then .setting i else .signalling i), { g with mutex := some prod },
        [.producerLocked g.blocked])
    else none
  | .rand value, .setting i, g =>
    some (.producer (.signalling i), { g with data := 1 + (value % 10 : Nat) }, [])
  | .go, .signalling i, g => some (.producer (.unlocking i), { g with blocked := false }, [])
  | .go, .unlocking i, g =>
    some (.producer (if i < 10 then .locking (i + 1) else .returned), { g with mutex := none }, [])
  | _, _, _ => none

def consumer : Choice → Consumer → Globals → Option (Thread × Globals × List Event)
  | .go, .locking, g =>
    if g.mutex = none then some (.consumer .testing, { g with mutex := some cons }, []) else none
  | .go, .testing, g =>
    if g.count < 11 then
      some (.consumer .waiting, { g with mutex := none, blocked := true }, [])
    else some (.consumer .unlocking, g, [])
  | .go, .waiting, g =>
    if g.blocked = false ∧ g.mutex = none then
      some (.consumer .printing, { g with mutex := some cons }, [])
    else none
  | .spurious, .waiting, g =>
    if g.blocked = true then some (.consumer .waiting, { g with blocked := false }, []) else none
  | .go, .printing, g =>
    some (.consumer .testing, { g with count := g.count + 1 }, [.gotData g.data g.count])
  | .go, .unlocking, g => some (.consumer .returned, { g with mutex := none }, [])
  | _, _, _ => none

def program : ForkJoin.Program 2 Thread Globals Choice Event where
  entry t := if t = prod then .producer (.locking 0) else .consumer .locking
  step _ a w g :=
    match w with
    | .producer pc => producer a pc g
    | .consumer pc => consumer a pc g
  returned w := w = .producer .returned || w = .consumer .returned
  finish _ := some []

def globals : Globals := ⟨0, 1, none, false⟩

/-- No `pthread_cond_wait` returns without a signal. -/
def NotSpurious (a : Choice) : Prop := a ≠ .spurious

instance (a : Choice) : Decidable (NotSpurious a) := inferInstanceAs (Decidable (_ ≠ _))

/-! ## The books of a run -/

/-- The rounds in which the consumer was blocked when the producer came. -/
def met (os : List Event) : Nat := os.countP (· = .producerLocked true)

/-- The rounds whose signal finds nobody. -/
def missed (os : List Event) : Nat := os.countP (· = .producerLocked false)

/-- What the consumer printed. -/
def printed (os : List Event) : List (Int × Int) :=
  os.filterMap fun
    | .gotData data counter => some (data, counter)
    | _ => none

theorem met_append (os os' : List Event) : met (os ++ os') = met os + met os' :=
  List.countP_append

theorem missed_append (os os' : List Event) : missed (os ++ os') = missed os + missed os' :=
  List.countP_append

theorem printed_append (os os' : List Event) : printed (os ++ os') = printed os ++ printed os' :=
  List.filterMap_append

/-- The rounds that the producer has begun. -/
def rounds : Option Thread → Nat
  | some (.producer (.locking i)) => i
  | some (.producer (.setting i)) | some (.producer (.signalling i))
  | some (.producer (.unlocking i)) => i + 1
  | some (.producer .returned) => 11
  | _ => 0

/-- The producer is between its lock and its signal. -/
def owes : Option Thread → Bool
  | some (.producer (.setting _)) | some (.producer (.signalling _)) => true
  | _ => false

/-- A round that met the consumer and has not made it print yet. -/
def pending (producer consumer : Option Thread) (blocked : Bool) : Nat :=
  match consumer with
  | some (.consumer .waiting) => if blocked = true ∧ owes producer = false then 0 else 1
  | some (.consumer .printing) => 1
  | _ => 0

def inside : Option Thread → Bool
  | some (.producer (.setting _)) | some (.producer (.signalling _))
  | some (.producer (.unlocking _)) => true
  | some (.consumer .testing) | some (.consumer .printing) | some (.consumer .unlocking) => true
  | _ => false

/-- `data` was set. -/
def HasData : Option Thread → Prop
  | none | some (.producer (.locking 0)) | some (.producer (.setting 0)) => False
  | _ => True

def ProducerAt : Option Thread → Prop
  | some (.producer (.locking i)) | some (.producer (.signalling i))
  | some (.producer (.unlocking i)) => i ≤ 10
  | some (.producer (.setting i)) => i < 10
  | some (.consumer _) => False
  | _ => True

def ConsumerAt : Option Thread → Prop
  | some (.producer _) => False
  | _ => True

/-- A signal has reached the consumer, and it has not printed yet. -/
def Woken (consumer : Option Thread) (blocked : Bool) : Prop :=
  consumer = some (.consumer .waiting) ∧ blocked = false ∨
    consumer = some (.consumer .printing)

/-- The mutex, and where the threads can be. -/
structure Placed (p c : Option Thread) (g : Globals) : Prop where
  producer : ProducerAt p
  consumer : ConsumerAt c
  mutexProducer : inside p = true ↔ g.mutex = some prod
  mutexConsumer : inside c = true ↔ g.mutex = some cons
  blocked : g.blocked = true → c = some (.consumer .waiting)

/-- The rounds of the producer and the wakeups of the consumer. -/
structure Rounds (p c : Option Thread) (g : Globals) (os : List Event) : Prop where
  rounds : met os + missed os = rounds p
  woken : met os = (printed os).length + pending p c g.blocked
  data : HasData p → 1 ≤ g.data ∧ g.data ≤ 10
  fresh : Woken c g.blocked → HasData p

/-- The turns of the consumer's loop. -/
structure Turns (c : Option Thread) (g : Globals) (os : List Event) : Prop where
  count : g.count = 1 + ((printed os).length : Int)
  bound : g.count ≤ 11
  more : c = some (.consumer .waiting) ∨ c = some (.consumer .printing) → g.count < 11
  through : c = some (.consumer .unlocking) ∨ c = some (.consumer .returned) → g.count = 11
  counters : (printed os).map Prod.snd =
    (List.range (printed os).length).map fun i : Nat => 1 + (i : Int)
  values : ∀ p ∈ printed os, 1 ≤ p.1 ∧ p.1 ≤ 10

structure Inv (p c : Option Thread) (g : Globals) (os : List Event) : Prop where
  placed : Placed p c g
  rounds : Rounds p c g os
  turns : Turns c g os

theorem inv_start : Inv none none globals [] where
  placed := ⟨trivial, trivial, ⟨fun h => (nomatch h), fun h => (nomatch h)⟩,
    ⟨fun h => (nomatch h), fun h => (nomatch h)⟩, fun h => (nomatch h)⟩
  rounds := ⟨rfl, rfl, fun h => h.elim, fun h => h.elim (fun h => nomatch h.1) (nomatch ·)⟩
  turns := ⟨rfl, by decide, fun h => h.elim (nomatch ·) (nomatch ·),
    fun h => h.elim (nomatch ·) (nomatch ·), rfl, fun _ hp => absurd hp List.not_mem_nil⟩

/-- The outputs of the producer print nothing. -/
theorem printed_locked (os : List Event) (waiting : Bool) :
    printed (os ++ [.producerLocked waiting]) = printed os := by
  rw [printed_append]
  exact List.append_nil _

theorem Turns.locked {c : Option Thread} {g g' : Globals} {os : List Event}
    (h : Turns c g os) (hcount : g'.count = g.count) (waiting : Bool) :
    Turns c g' (os ++ [.producerLocked waiting]) := by
  constructor
  · rw [printed_locked, hcount]
    exact h.count
  · rw [hcount]
    exact h.bound
  · rw [hcount]
    exact h.more
  · rw [hcount]
    exact h.through
  · rw [printed_locked]
    exact h.counters
  · rw [printed_locked]
    exact h.values

/-- A round begins: the consumer is there for its signal or not. -/
theorem Inv.producer_locking {c : Option Thread} {g : Globals} {os : List Event} {i : Nat}
    (h : Inv (some (.producer (.locking i))) c g os) (hfree : g.mutex = none) :
    Inv (some (.producer (if i < 10 then .setting i else .signalling i))) c
      { g with mutex := some prod } (os ++ [.producerLocked g.blocked]) := by
  have hi : i ≤ 10 := h.placed.producer
  have hconsumer : inside c = false := by
    rw [Bool.eq_false_iff]
    intro hin
    rw [h.placed.mutexConsumer.mp hin] at hfree
    cases hfree
  have hrounds := h.rounds.rounds
  have hwoken := h.rounds.woken
  have hmet : met (os ++ [.producerLocked g.blocked]) = met os + g.blocked.toNat := by
    rw [met_append]
    cases g.blocked <;> rfl
  have hmissed : missed (os ++ [.producerLocked g.blocked]) =
      missed os + (!g.blocked).toNat := by
    rw [missed_append]
    cases g.blocked <;> rfl
  -- after the lock the producer owes its signal, in either branch
  have hnext : ∀ pc : Producer, pc = .setting i ∧ i < 10 ∨ pc = .signalling i ∧ 10 ≤ i →
      Inv (some (.producer pc)) c { g with mutex := some prod }
        (os ++ [.producerLocked g.blocked]) := by
    intro pc hpc
    have hround : VarCond.rounds (some (.producer pc)) = i + 1 := by
      rcases hpc with ⟨rfl, -⟩ | ⟨rfl, -⟩ <;> rfl
    have howes : owes (some (.producer pc)) = true := by
      rcases hpc with ⟨rfl, -⟩ | ⟨rfl, -⟩ <;> rfl
    have hin : inside (some (.producer pc)) = true := by
      rcases hpc with ⟨rfl, -⟩ | ⟨rfl, -⟩ <;> rfl
    have hat : ProducerAt (some (.producer pc)) := by
      rcases hpc with ⟨rfl, hlt⟩ | ⟨rfl, -⟩
      · exact hlt
      · exact hi
    have hdata : HasData (some (.producer pc)) → HasData (some (.producer (.locking i))) := by
      intro hd
      rcases hpc with ⟨rfl, -⟩ | ⟨rfl, hge⟩
      · cases i with
        | zero => exact hd
        | succ i => trivial
      · cases i with
        | zero => omega
        | succ i => trivial
    have hdata' : HasData (some (.producer (.locking i))) → HasData (some (.producer pc)) := by
      intro hd
      rcases hpc with ⟨rfl, -⟩ | ⟨rfl, -⟩
      · cases i with
        | zero => exact hd
        | succ i => trivial
      · trivial
    refine ⟨⟨hat, h.placed.consumer, iff_of_true hin rfl, ?_, h.placed.blocked⟩,
      ⟨?_, ?_, fun hd => h.rounds.data (hdata hd), fun hw => hdata' (h.rounds.fresh hw)⟩,
      h.turns.locked (by rfl) g.blocked⟩
    · rw [hconsumer]
      exact ⟨fun he => (nomatch he), fun he => (nomatch he)⟩
    · rw [hmet, hmissed, hround]
      have hrounds : met os + missed os = i := hrounds
      cases g.blocked <;> simp <;> omega
    · rw [hmet, printed_locked]
      show met os + g.blocked.toNat = _ + pending (some (.producer pc)) c g.blocked
      cases hblocked : g.blocked with
      | false =>
        rw [hblocked] at hwoken
        have hsame : pending (some (.producer pc)) c false =
            pending (some (.producer (.locking i))) c false := by
          unfold pending
          simp
        rw [hsame]
        exact hwoken
      | true =>
        rw [hblocked, h.placed.blocked hblocked] at hwoken
        rw [h.placed.blocked hblocked]
        have hbefore : met os = (printed os).length + 0 := hwoken
        show met os + 1 = (printed os).length +
          if true = true ∧ owes (some (.producer pc)) = false then 0 else 1
        rw [howes, hbefore]
        simp
  by_cases hlt : i < 10
  · rw [if_pos hlt]
    exact hnext _ (Or.inl ⟨rfl, hlt⟩)
  · rw [if_neg hlt]
    exact hnext _ (Or.inr ⟨rfl, by omega⟩)

theorem Inv.producer_setting {c : Option Thread} {g : Globals} {os : List Event} {i : Nat}
    (h : Inv (some (.producer (.setting i))) c g os) (value : Nat) :
    Inv (some (.producer (.signalling i))) c { g with data := 1 + (value % 10 : Nat) } os := by
  have hi : i < 10 := h.placed.producer
  refine ⟨⟨Nat.le_of_lt hi, h.placed.consumer, h.placed.mutexProducer, h.placed.mutexConsumer,
      h.placed.blocked⟩, ⟨h.rounds.rounds, h.rounds.woken, ?_, fun _ => trivial⟩,
    ⟨h.turns.count, h.turns.bound, h.turns.more, h.turns.through, h.turns.counters,
      h.turns.values⟩⟩
  intro _
  have hlt := Nat.mod_lt value (show 10 > 0 by decide)
  show 1 ≤ 1 + ((value % 10 : Nat) : Int) ∧ 1 + ((value % 10 : Nat) : Int) ≤ 10
  omega

/-- The signal reaches the consumer if it is blocked. -/
theorem Inv.producer_signalling {c : Option Thread} {g : Globals} {os : List Event} {i : Nat}
    (h : Inv (some (.producer (.signalling i))) c g os) :
    Inv (some (.producer (.unlocking i))) c { g with blocked := false } os := by
  refine ⟨⟨h.placed.producer, h.placed.consumer, h.placed.mutexProducer, h.placed.mutexConsumer,
      fun hb => (nomatch hb)⟩, ⟨h.rounds.rounds, ?_, fun _ => h.rounds.data trivial,
      fun _ => trivial⟩,
    ⟨h.turns.count, h.turns.bound, h.turns.more, h.turns.through, h.turns.counters,
      h.turns.values⟩⟩
  rw [h.rounds.woken]
  congr 1
  unfold pending
  simp [owes]

theorem Inv.producer_unlocking {c : Option Thread} {g : Globals} {os : List Event} {i : Nat}
    (h : Inv (some (.producer (.unlocking i))) c g os) :
    Inv (some (.producer (if i < 10 then .locking (i + 1) else .returned))) c
      { g with mutex := none } os := by
  have hi : i ≤ 10 := h.placed.producer
  have hheld : g.mutex = some prod := h.placed.mutexProducer.mp rfl
  have hconsumer : inside c = false := by
    rw [Bool.eq_false_iff]
    intro hin
    rw [h.placed.mutexConsumer.mp hin] at hheld
    cases hheld
  have hnext : ∀ pc : Producer, pc = .locking (i + 1) ∧ i < 10 ∨ pc = .returned ∧ i = 10 →
      Inv (some (.producer pc)) c { g with mutex := none } os := by
    intro pc hpc
    have hround : VarCond.rounds (some (.producer pc)) = i + 1 := by
      rcases hpc with ⟨rfl, -⟩ | ⟨rfl, rfl⟩ <;> rfl
    have howes : owes (some (.producer pc)) = false := by
      rcases hpc with ⟨rfl, -⟩ | ⟨rfl, -⟩ <;> rfl
    have hout : inside (some (.producer pc)) = false := by
      rcases hpc with ⟨rfl, -⟩ | ⟨rfl, -⟩ <;> rfl
    have hat : ProducerAt (some (.producer pc)) := by
      rcases hpc with ⟨rfl, hlt⟩ | ⟨rfl, -⟩
      · exact hlt
      · trivial
    have hdata : HasData (some (.producer pc)) := by
      rcases hpc with ⟨rfl, -⟩ | ⟨rfl, -⟩ <;> trivial
    refine ⟨⟨hat, h.placed.consumer, ?_, ?_, h.placed.blocked⟩,
      ⟨?_, ?_, fun _ => h.rounds.data trivial, fun _ => hdata⟩,
      ⟨h.turns.count, h.turns.bound, h.turns.more, h.turns.through, h.turns.counters,
        h.turns.values⟩⟩
    · rw [hout]
      exact ⟨fun he => (nomatch he), fun he => (nomatch he)⟩
    · rw [hconsumer]
      exact ⟨fun he => (nomatch he), fun he => (nomatch he)⟩
    · rw [hround]
      exact h.rounds.rounds
    · rw [h.rounds.woken]
      congr 1
      unfold pending
      rw [howes]
      rfl
  by_cases hlt : i < 10
  · rw [if_pos hlt]
    exact hnext _ (Or.inl ⟨rfl, hlt⟩)
  · rw [if_neg hlt]
    exact hnext _ (Or.inr ⟨rfl, by omega⟩)

/-- One step of the producer. -/
theorem Inv.producer {c w : Option Thread} {g g' : Globals} {os os' : List Event} {a : Choice}
    {pc : Producer} {w' : Thread} (h : Inv w c g os) (hw : w = some (.producer pc))
    (hstep : producer a pc g = some (w', g', os')) : Inv (some w') c g' (os ++ os') := by
  subst hw
  unfold VarCond.producer at hstep
  split at hstep
  · next i =>
    obtain ⟨hfree, hstep⟩ := Option.ite_none_right_eq_some.mp hstep
    obtain ⟨rfl, rfl, rfl⟩ : _ ∧ _ ∧ _ := by simpa using Option.some.inj hstep
    exact h.producer_locking hfree
  · next value i =>
    obtain ⟨rfl, rfl, rfl⟩ : _ ∧ _ ∧ _ := by simpa using Option.some.inj hstep
    rw [List.append_nil]
    exact h.producer_setting value
  · next i =>
    obtain ⟨rfl, rfl, rfl⟩ : _ ∧ _ ∧ _ := by simpa using Option.some.inj hstep
    rw [List.append_nil]
    exact h.producer_signalling
  · next i =>
    obtain ⟨rfl, rfl, rfl⟩ : _ ∧ _ ∧ _ := by simpa using Option.some.inj hstep
    rw [List.append_nil]
    exact h.producer_unlocking
  · cases hstep

/-- What the mutex says of the producer while the consumer takes or has it. -/
theorem Placed.producer_outside {p c : Option Thread} {g : Globals} (h : Placed p c g)
    (hmutex : g.mutex ≠ some prod) : inside p = false := by
  rw [Bool.eq_false_iff]
  exact fun hin => hmutex (h.mutexProducer.mp hin)

theorem owes_of_outside {p : Option Thread} (h : inside p = false) : owes p = false := by
  unfold owes
  split
  · cases h
  · cases h
  · rfl

theorem Inv.consumer_locking {p : Option Thread} {g : Globals} {os : List Event}
    (h : Inv p (some (.consumer .locking)) g os) (hfree : g.mutex = none) :
    Inv p (some (.consumer .testing)) { g with mutex := some cons } os := by
  have hproducer := h.placed.producer_outside (hfree ▸ nofun)
  refine ⟨⟨h.placed.producer, trivial, ?_, iff_of_true rfl rfl, ?_⟩,
    ⟨h.rounds.rounds, h.rounds.woken, h.rounds.data, ?_⟩,
    ⟨h.turns.count, h.turns.bound, ?_, ?_, h.turns.counters, h.turns.values⟩⟩
  · rw [hproducer]
    exact ⟨fun he => (nomatch he), fun he => (nomatch he)⟩
  · intro hb
    cases h.placed.blocked hb
  · exact fun hw => hw.elim (fun hw => nomatch hw.1) (nomatch ·)
  · exact fun hw => hw.elim (nomatch ·) (nomatch ·)
  · exact fun hw => hw.elim (nomatch ·) (nomatch ·)

/-- The consumer goes to sleep and gives the mutex back. -/
theorem Inv.consumer_waits {p : Option Thread} {g : Globals} {os : List Event}
    (h : Inv p (some (.consumer .testing)) g os) (hcount : g.count < 11) :
    Inv p (some (.consumer .waiting)) { g with mutex := none, blocked := true } os := by
  have hheld : g.mutex = some cons := h.placed.mutexConsumer.mp rfl
  have hproducer := h.placed.producer_outside (hheld ▸ nofun)
  refine ⟨⟨h.placed.producer, trivial, ?_, ?_, fun _ => rfl⟩,
    ⟨h.rounds.rounds, ?_, h.rounds.data, ?_⟩,
    ⟨h.turns.count, h.turns.bound, fun _ => hcount, ?_, h.turns.counters, h.turns.values⟩⟩
  · rw [hproducer]
    exact ⟨fun he => (nomatch he), fun he => (nomatch he)⟩
  · exact ⟨fun he => (nomatch he), fun he => (nomatch he)⟩
  · rw [h.rounds.woken]
    congr 1
    show 0 = if true = true ∧ owes p = false then 0 else 1
    rw [if_pos ⟨rfl, owes_of_outside hproducer⟩]
  · exact fun hw => hw.elim (fun hw => nomatch hw.2) (nomatch ·)
  · exact fun hw => hw.elim (nomatch ·) (nomatch ·)

theorem Inv.consumer_leaves {p : Option Thread} {g : Globals} {os : List Event}
    (h : Inv p (some (.consumer .testing)) g os) (hcount : ¬g.count < 11) :
    Inv p (some (.consumer .unlocking)) g os := by
  have hbound := h.turns.bound
  refine ⟨⟨h.placed.producer, trivial, h.placed.mutexProducer, h.placed.mutexConsumer, ?_⟩,
    ⟨h.rounds.rounds, h.rounds.woken, h.rounds.data, ?_⟩,
    ⟨h.turns.count, h.turns.bound, ?_, fun _ => by omega, h.turns.counters, h.turns.values⟩⟩
  · intro hb
    cases h.placed.blocked hb
  · exact fun hw => hw.elim (fun hw => nomatch hw.1) (nomatch ·)
  · exact fun hw => hw.elim (nomatch ·) (nomatch ·)

theorem Inv.consumer_wakes {p : Option Thread} {g : Globals} {os : List Event}
    (h : Inv p (some (.consumer .waiting)) g os) (hblocked : g.blocked = false)
    (hfree : g.mutex = none) :
    Inv p (some (.consumer .printing)) { g with mutex := some cons } os := by
  have hproducer := h.placed.producer_outside (hfree ▸ nofun)
  refine ⟨⟨h.placed.producer, trivial, ?_, iff_of_true rfl rfl, ?_⟩,
    ⟨h.rounds.rounds, ?_, h.rounds.data, fun _ => h.rounds.fresh (Or.inl ⟨rfl, hblocked⟩)⟩,
    ⟨h.turns.count, h.turns.bound, fun _ => h.turns.more (Or.inl rfl), ?_, h.turns.counters,
      h.turns.values⟩⟩
  · rw [hproducer]
    exact ⟨fun he => (nomatch he), fun he => (nomatch he)⟩
  · intro hb
    have hb : g.blocked = true := hb
    rw [hblocked] at hb
    cases hb
  · have hwoken := h.rounds.woken
    rw [hblocked] at hwoken
    exact hwoken
  · exact fun hw => hw.elim (nomatch ·) (nomatch ·)

/-- One line is printed for one wakeup. -/
theorem Inv.consumer_prints {p : Option Thread} {g : Globals} {os : List Event}
    (h : Inv p (some (.consumer .printing)) g os) :
    Inv p (some (.consumer .testing)) { g with count := g.count + 1 }
      (os ++ [.gotData g.data g.count]) := by
  have hprinted : printed (os ++ [.gotData g.data g.count]) =
      printed os ++ [(g.data, g.count)] := printed_append ..
  have hlength : (printed (os ++ [.gotData g.data g.count])).length =
      (printed os).length + 1 := by
    rw [hprinted, List.length_append]
    rfl
  have hmet : met (os ++ [.gotData g.data g.count]) = met os := met_append ..
  have hmissed : missed (os ++ [.gotData g.data g.count]) = missed os := missed_append ..
  have hmore := h.turns.more (Or.inr rfl)
  have hcount := h.turns.count
  refine ⟨⟨h.placed.producer, trivial, h.placed.mutexProducer, h.placed.mutexConsumer, ?_⟩,
    ⟨?_, ?_, h.rounds.data, ?_⟩, ⟨?_, ?_, ?_, ?_, ?_, ?_⟩⟩
  · intro hb
    cases h.placed.blocked hb
  · rw [hmet, hmissed]
    exact h.rounds.rounds
  · rw [hmet, hlength]
    exact h.rounds.woken
  · exact fun hw => hw.elim (fun hw => nomatch hw.1) (nomatch ·)
  · rw [hlength]
    show g.count + 1 = _
    omega
  · show g.count + 1 ≤ 11
    omega
  · exact fun hw => hw.elim (nomatch ·) (nomatch ·)
  · exact fun hw => hw.elim (nomatch ·) (nomatch ·)
  · rw [hlength, hprinted, List.map_append, h.turns.counters, List.range_succ, List.map_append]
    show _ ++ [g.count] = _ ++ [1 + ((printed os).length : Int)]
    rw [hcount]
  · rw [hprinted]
    intro q hq
    rcases List.mem_append.mp hq with hq | hq
    · exact h.turns.values q hq
    · rw [List.mem_singleton.mp hq]
      exact h.rounds.data (h.rounds.fresh (Or.inr rfl))

theorem Inv.consumer_unlocking {p : Option Thread} {g : Globals} {os : List Event}
    (h : Inv p (some (.consumer .unlocking)) g os) :
    Inv p (some (.consumer .returned)) { g with mutex := none } os := by
  have hheld : g.mutex = some cons := h.placed.mutexConsumer.mp rfl
  have hproducer := h.placed.producer_outside (hheld ▸ nofun)
  refine ⟨⟨h.placed.producer, trivial, ?_, ?_, ?_⟩,
    ⟨h.rounds.rounds, h.rounds.woken, h.rounds.data, ?_⟩,
    ⟨h.turns.count, h.turns.bound, ?_, fun _ => h.turns.through (Or.inl rfl), h.turns.counters,
      h.turns.values⟩⟩
  · rw [hproducer]
    exact ⟨fun he => (nomatch he), fun he => (nomatch he)⟩
  · exact ⟨fun he => (nomatch he), fun he => (nomatch he)⟩
  · intro hb
    cases h.placed.blocked hb
  · exact fun hw => hw.elim (fun hw => nomatch hw.1) (nomatch ·)
  · exact fun hw => hw.elim (nomatch ·) (nomatch ·)

/-- One step of the consumer that is not a spurious wakeup. -/
theorem Inv.consumer {p w : Option Thread} {g g' : Globals} {os os' : List Event} {a : Choice}
    {pc : Consumer} {w' : Thread} (h : Inv p w g os) (hw : w = some (.consumer pc))
    (ha : NotSpurious a) (hstep : consumer a pc g = some (w', g', os')) :
    Inv p (some w') g' (os ++ os') := by
  subst hw
  unfold VarCond.consumer at hstep
  split at hstep
  · obtain ⟨hfree, hstep⟩ := Option.ite_none_right_eq_some.mp hstep
    obtain ⟨rfl, rfl, rfl⟩ : _ ∧ _ ∧ _ := by simpa using Option.some.inj hstep
    rw [List.append_nil]
    exact h.consumer_locking hfree
  · by_cases hcount : g.count < 11
    · rw [if_pos hcount] at hstep
      obtain ⟨rfl, rfl, rfl⟩ : _ ∧ _ ∧ _ := by simpa using Option.some.inj hstep
      rw [List.append_nil]
      exact h.consumer_waits hcount
    · rw [if_neg hcount] at hstep
      obtain ⟨rfl, rfl, rfl⟩ : _ ∧ _ ∧ _ := by simpa using Option.some.inj hstep
      rw [List.append_nil]
      exact h.consumer_leaves hcount
  · obtain ⟨⟨hblocked, hfree⟩, hstep⟩ := Option.ite_none_right_eq_some.mp hstep
    obtain ⟨rfl, rfl, rfl⟩ : _ ∧ _ ∧ _ := by simpa using Option.some.inj hstep
    rw [List.append_nil]
    exact h.consumer_wakes hblocked hfree
  · exact absurd rfl ha
  · obtain ⟨rfl, rfl, rfl⟩ : _ ∧ _ ∧ _ := by simpa using Option.some.inj hstep
    exact h.consumer_prints
  · obtain ⟨rfl, rfl, rfl⟩ : _ ∧ _ ∧ _ := by simpa using Option.some.inj hstep
    rw [List.append_nil]
    exact h.consumer_unlocking
  · cases hstep

end VarCond
end Exercises
end LinuxEmbedded
