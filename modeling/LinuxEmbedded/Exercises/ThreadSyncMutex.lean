import LinuxEmbedded.Lib.LockedCell
import Mathlib.Algebra.BigOperators.Fin

/-
The counter that three threads increment, `threadSyncMutex.c`.

`n` is the number of increments of a thread, 1000000 in the source.  An increment
reads `counter` and writes it later.
-/
namespace LinuxEmbedded
namespace Exercises
namespace ThreadSyncMutex

/-- An addition of `int`; an overflow is undefined. -/
def addInt (a b : Int) : Option Int :=
  if -2147483648 ≤ a + b ∧ a + b < 2147483648 then some (a + b) else none

structure Globals where
  counter : Int
  mutex : Option (Fin 3)
  deriving DecidableEq

/-- Where a thread is in `increment_counter`. -/
inductive IncrementCounter where
  /-- At the test of the loop. -/
  | testing (i : Nat)
  | locking (i : Nat)
  /-- Inside the mutex, before `counter` is read. -/
  | loading (i : Nat)
  | storing (i : Nat) (read : Int)
  | unlocking (i : Nat)
  | returned
  deriving DecidableEq

def incrementCounter (n : Nat) (t : Fin 3) (w : IncrementCounter) (g : Globals) :
    Option (IncrementCounter × Globals) :=
  match w with
  | .testing i => some (if i < n then .locking i else .returned, g)
  | .locking i =>
    if g.mutex = none then some (.loading i, { g with mutex := some t }) else none
  | .loading i => some (.storing i g.counter, g)
  | .storing i read => do
    let counter ← addInt read 1
    some (.unlocking i, { g with counter })
  | .unlocking i => some (.testing (i + 1), { g with mutex := none })
  | .returned => none

/-- The threads, and the line `main` prints with the final value. -/
def program (n : Nat) : ForkJoin.Program 3 IncrementCounter Globals Unit Int where
  entry _ := .testing 0
  step t _ w g := (incrementCounter n t w g).map fun r => (r.1, r.2, [])
  returned w := w = .returned
  finish g := some [g.counter]

def globals : Globals := ⟨0, none⟩

/-! ## What holds in every run -/

variable {n : Nat}

/-- The increments a thread has made. -/
def made (n : Nat) : Option IncrementCounter → Int
  | none => 0
  | some (.testing i) | some (.locking i) | some (.loading i) | some (.storing i _) => i
  | some (.unlocking i) => i + 1
  | some .returned => n

def readCounter : Option IncrementCounter → Option Int
  | some (.storing _ read) => some read
  | _ => none

def inside : Option IncrementCounter → Bool
  | some (.loading _) | some (.storing ..) | some (.unlocking _) => true
  | _ => false

/-- A thread past the test has an increment to make. -/
def Local (n : Nat) (_ : Fin 3) : IncrementCounter → Prop
  | .testing i => i ≤ n
  | .locking i | .loading i | .storing i _ | .unlocking i => i < n
  | .returned => True

def use (n : Nat) : LockedCell.Use 3 IncrementCounter Globals Int where
  added _ := made n
  read := readCounter
  inside := inside
  mutex := Globals.mutex
  cell := Globals.counter

structure Inv (n : Nat) (threads : Fin 3 → Option IncrementCounter) (g : Globals) : Prop where
  books : LockedCell.Books (use n) threads g
  locals : ∀ t w, threads t = some w → Local n t w

theorem Inv.counter_eq {threads : Fin 3 → Option IncrementCounter} {g : Globals}
    (h : Inv n threads g) : g.counter = ∑ t, made n (threads t) :=
  h.books.total

/-- One step of `increment_counter`. -/
theorem incrementCounter_section {g g' : Globals} {t : Fin 3} {w w' : IncrementCounter}
    (h : Local n t w) (hstep : incrementCounter n t w g = some (w', g')) :
    LockedCell.Section (use n) t (some w) (some w') g g' ∧ Local n t w' := by
  cases w with
  | testing i =>
    obtain ⟨rfl, rfl⟩ := Prod.mk.inj (Option.some.inj hstep)
    have hle : i ≤ n := h
    by_cases hi : i < n
    · rw [if_pos hi]
      exact ⟨.aside rfl rfl rfl rfl rfl, hi⟩
    · rw [if_neg hi]
      have hlast : (n : Int) = i := by omega
      exact ⟨.aside hlast rfl rfl rfl rfl, trivial⟩
  | locking i =>
    obtain ⟨hfree, hstep⟩ := Option.ite_none_right_eq_some.mp hstep
    obtain ⟨rfl, rfl⟩ := Prod.mk.inj (Option.some.inj hstep)
    exact ⟨.enter rfl rfl rfl hfree rfl rfl, h⟩
  | loading i =>
    obtain ⟨rfl, rfl⟩ := Prod.mk.inj (Option.some.inj hstep)
    exact ⟨.load rfl rfl rfl rfl rfl rfl, h⟩
  | storing i read =>
    obtain ⟨counter, hadd, hstep⟩ := Option.bind_eq_some_iff.mp hstep
    obtain ⟨rfl, rfl⟩ := Prod.mk.inj (Option.some.inj hstep)
    have hcounter : counter = read + 1 :=
      (Option.some.inj (Option.ite_none_right_eq_some.mp hadd).2).symm
    exact ⟨.store rfl rfl rfl rfl rfl hcounter, h⟩
  | unlocking i =>
    obtain ⟨rfl, rfl⟩ := Prod.mk.inj (Option.some.inj hstep)
    have hi : i < n := h
    have hmade : ((i + 1 : Nat) : Int) = (i : Int) + 1 := Int.natCast_succ i
    exact ⟨.leave hmade rfl rfl rfl rfl rfl rfl, hi⟩
  | returned => cases hstep

theorem inv_start (n : Nat) : Inv n (fun _ => none) globals where
  books := LockedCell.ledger_start
  locals _ _ hw := nomatch hw

theorem keeps (n : Nat) :
    (program n).Keeps (fun _ => True) (fun threads g _ => Inv n threads g) where
  create := by
    intro threads g os t h hnone
    refine ⟨h.books.step ?_, ForkJoin.all_update h.locals (Nat.zero_le n)⟩
    rw [hnone]
    exact .aside rfl rfl rfl rfl rfl
  thread := by
    intro threads g os t a w w' g' os' h hw _ _ hstep
    obtain ⟨⟨w₁, g₁⟩, hincrement, hstep⟩ := Option.map_eq_some_iff.mp hstep
    obtain ⟨rfl, rfl, -⟩ : w₁ = w' ∧ g₁ = g' ∧ [] = os' := by simpa using hstep
    obtain ⟨hsection, hlocal⟩ := incrementCounter_section (h.locals t w hw) hincrement
    rw [← hw] at hsection
    exact ⟨h.books.step hsection, ForkJoin.all_update h.locals hlocal⟩
  finish h _ _ := h

/-! ## Every run gets to the end -/

theorem made_le {threads : Fin 3 → Option IncrementCounter} {g : Globals} (h : Inv n threads g)
    (t : Fin 3) : 0 ≤ made n (threads t) ∧ made n (threads t) ≤ n := by
  cases hw : threads t with
  | none => exact ⟨Int.le_refl 0, Int.natCast_nonneg n⟩
  | some w =>
    have hlocal := h.locals t w hw
    cases w with
    | returned => exact ⟨Int.natCast_nonneg n, Int.le_refl _⟩
    | testing i =>
      have hi : i ≤ n := hlocal
      show 0 ≤ (i : Int) ∧ (i : Int) ≤ n
      omega
    | unlocking i =>
      have hi : i < n := hlocal
      show 0 ≤ (i : Int) + 1 ∧ (i : Int) + 1 ≤ n
      omega
    | locking i | loading i | storing i read =>
      have hi : i < n := hlocal
      show 0 ≤ (i : Int) ∧ (i : Int) ≤ n
      omega

theorem exists_step_of_inside {threads : Fin 3 → Option IncrementCounter} {g : Globals}
    {t : Fin 3} {w : IncrementCounter} (hn : 3 * n + 1 < 2147483648) (h : Inv n threads g)
    (hw : threads t = some w) (hinside : inside (some w) = true) :
    ∃ r, incrementCounter n t w g = some r := by
  cases w with
  | loading i => exact ⟨_, rfl⟩
  | unlocking i => exact ⟨_, rfl⟩
  | storing i read =>
    have hfresh : read = g.counter := (h.books.fresh t read (by rw [hw]; rfl)).2
    have htotal := h.counter_eq
    rw [Fin.sum_univ_three] at htotal
    have h₀ := made_le h 0
    have h₁ := made_le h 1
    have h₂ := made_le h 2
    refine ⟨(.unlocking i, { g with counter := read + 1 }), ?_⟩
    show (addInt read 1).bind _ = _
    rw [addInt, if_pos (by omega)]
    rfl
  | _ => cases hinside

theorem live (hn : 3 * n + 1 < 2147483648) : ForkJoin.Program.Live (program n)
    (fun _ => True) (fun threads g _ => Inv n threads g) where
  thread := by
    intro threads g os t w h hw hlive
    have hgo : ∃ t' w', threads t' = some w' ∧ (program n).returned w' = false ∧
        ∃ r, incrementCounter n t' w' g = some r := by
      refine h.books.exists_go hw rfl ?_ ?_
      · intro t' w' hw' hinside
        refine ⟨?_, exists_step_of_inside hn h hw' hinside⟩
        cases w' with
        | returned => cases hinside
        | _ => rfl
      · intro hmutex
        refine ⟨hlive, ?_⟩
        cases w with
        | testing i => exact ⟨_, rfl⟩
        | locking i => exact ⟨_, if_pos hmutex⟩
        | returned => cases hlive
        | _ => exact exists_step_of_inside hn h hw rfl
    obtain ⟨t', w', hw', hlive', r, hr⟩ := hgo
    refine ⟨t', (), w', (r.1, r.2, []), trivial, hw', hlive', ?_⟩
    show (incrementCounter n t' w' g).map _ = _
    rw [hr]
    rfl
  finish := fun _ _ => rfl

/-- The steps a thread has left: five for each increment, and the last test. -/
def size (n : Nat) (_ : Fin 3) : IncrementCounter → Nat
  | .testing i => 5 * (n - i) + 1
  | .locking i => 5 * (n - i - 1) + 5
  | .loading i => 5 * (n - i - 1) + 4
  | .storing i _ => 5 * (n - i - 1) + 3
  | .unlocking i => 5 * (n - i - 1) + 2
  | .returned => 0

theorem size_lt {t : Fin 3} {a : Unit} {w w' : IncrementCounter} {g g' : Globals}
    {os : List Int} (h : (program n).step t a w g = some (w', g', os)) :
    size n t w' < size n t w := by
  obtain ⟨⟨w₁, g₁⟩, hincrement, h⟩ := Option.map_eq_some_iff.mp h
  obtain ⟨rfl, rfl, rfl⟩ : w₁ = w' ∧ g₁ = g' ∧ [] = os := by simpa using h
  cases w with
  | testing i =>
    obtain ⟨rfl, rfl⟩ := Prod.mk.inj (Option.some.inj hincrement)
    by_cases hi : i < n
    · rw [if_pos hi]
      show 5 * (n - i - 1) + 5 < 5 * (n - i) + 1
      omega
    · rw [if_neg hi]
      exact Nat.succ_pos _
  | locking i =>
    obtain ⟨-, hincrement⟩ := Option.ite_none_right_eq_some.mp hincrement
    obtain ⟨rfl, rfl⟩ := Prod.mk.inj (Option.some.inj hincrement)
    exact Nat.lt_succ_self _
  | loading i =>
    obtain ⟨rfl, rfl⟩ := Prod.mk.inj (Option.some.inj hincrement)
    exact Nat.lt_succ_self _
  | storing i read =>
    obtain ⟨counter, hadd, hincrement⟩ := Option.bind_eq_some_iff.mp hincrement
    obtain ⟨rfl, rfl⟩ := Prod.mk.inj (Option.some.inj hincrement)
    exact Nat.lt_succ_self _
  | unlocking i =>
    obtain ⟨rfl, rfl⟩ := Prod.mk.inj (Option.some.inj hincrement)
    show 5 * (n - (i + 1)) + 1 < 5 * (n - i - 1) + 2
    omega
  | returned => cases hincrement

theorem silent {t : Fin 3} {a : Unit} {w w' : IncrementCounter} {g g' : Globals} {os : List Int}
    (h : (program n).step t a w g = some (w', g', os)) : os = [] := by
  obtain ⟨⟨w₁, g₁⟩, -, h⟩ := Option.map_eq_some_iff.mp h
  obtain ⟨-, -, rfl⟩ : w₁ = w' ∧ g₁ = g' ∧ [] = os := by simpa using h
  rfl

/-- No increment is lost, in whatever order the threads move; and every run can be taken to
the end of the program. -/
theorem no_increment_lost {as : List (ForkJoin.Act 3 Unit)}
    {s : ForkJoin.State 3 IncrementCounter Globals} {os : List Int}
    (hn : 3 * n + 1 < 2147483648)
    (hrun : Machine.run (program n).next (ForkJoin.start globals) as = some (s, os)) :
    (ForkJoin.Program.Done s → os = [3 * (n : Int)]) ∧ as.length ≤ 15 * n + 10 ∧
      ∃ bs u os', Machine.run (program n).next s bs = some (u, os') ∧
        ForkJoin.Program.Done u := by
  have hinv₀ : Inv n (fun _ => none) globals := inv_start n
  have hallowed : ∀ a ∈ as, ForkJoin.Program.Allowed (fun _ => True) a :=
    fun a _ => ForkJoin.Program.allowed_true a
  have hranked := ForkJoin.Program.ranked_weight (P := program n) (D := fun _ => True)
    (J := fun threads g _ => Inv n threads g) size_lt
  obtain ⟨hshaped, hinv⟩ := (keeps n).run hinv₀ hallowed hrun
  refine ⟨?_, ?_, ?_⟩
  · intro hdone
    have hall := hshaped.allReturned (by rw [hdone]; exact Nat.le_succ _)
    have hos : some [s.globals.counter] = some os :=
      (ForkJoin.Program.outputs_of_silent silent hrun).2 hdone
    have hmade : ∀ t, made n (s.threads t) = n := by
      intro t
      obtain ⟨w, hw, hreturned⟩ := hall t
      have hw' : w = .returned := of_decide_eq_true hreturned
      rw [hw, hw']
      rfl
    have hcounter := hinv.counter_eq
    rw [Fin.sum_univ_three, hmade, hmade, hmade] at hcounter
    rw [← Option.some.inj hos, hcounter]
    congr 1
    omega
  · have hle := hranked.length_le (keeps n) hinv₀ hallowed hrun
    have hstart : (program n).weight (size n) (fun _ => none) = 15 * n + 3 := by
      show ∑ t : Fin 3, size n t (.testing 0) = _
      rw [Fin.sum_univ_three]
      show 5 * (n - 0) + 1 + (5 * (n - 0) + 1) + (5 * (n - 0) + 1) = _
      omega
    rw [hstart] at hle
    omega
  · obtain ⟨bs, u, os', -, hrest, hu⟩ :=
      (live hn).finishes (keeps n) hranked s os hshaped hinv
    exact ⟨bs, u, os', hrest, hu⟩

/-- Two increments each; the second thread waits for the first. -/
def inTurn : List (ForkJoin.Act 3 Unit) :=
  List.replicate 3 .main ++
    [0, 1, 0, 0, 0, 0, 1, 1, 1, 1, 0, 0, 2, 0, 0, 0, 2, 2, 2, 2, 1, 2, 1, 1, 1, 1, 2, 2, 2, 2, 0, 1,
      2].map (.thread · ()) ++
    List.replicate 4 .main

theorem no_increment_lost_inTurn :
    ∃ s, Machine.run (program 2).next (ForkJoin.start globals) inTurn = some (s, [6]) ∧
      ForkJoin.Program.Done s := by
  have hmap : (Machine.run (program 2).next (ForkJoin.start globals) inTurn).map
      (fun q => q.1.calls) = some 7 := by
    decide +kernel
  obtain ⟨⟨s, os⟩, hrun, hcalls⟩ := Option.map_eq_some_iff.mp hmap
  have hdone : ForkJoin.Program.Done s := hcalls
  have hos := (no_increment_lost (by decide) hrun).1 hdone
  exact ⟨s, hos ▸ hrun, hdone⟩

end ThreadSyncMutex
end Exercises
end LinuxEmbedded
