import LinuxEmbedded.Lib.ForkJoin
import LinuxEmbedded.Lib.LockedCell
import Mathlib.Algebra.BigOperators.Fin
import Mathlib.Tactic.Linarith

/-
The parallel sum of an array, `sumArrMutex.c`.

Four threads each add up a quarter of the array and then add what they found to
`sum`, inside the mutex.  `n` is `ARR_SIZE_DEVIDED`.
-/
namespace LinuxEmbedded
namespace Exercises
namespace SumArrMutex

/-- An addition of `long long`; an overflow is undefined. -/
def addLongLong (a b : Int) : Option Int :=
  if -9223372036854775808 ≤ a + b ∧ a + b < 9223372036854775808 then some (a + b) else none

/-- A value of `int`. -/
def IsInt (a : Int) : Prop := -2147483648 ≤ a ∧ a < 2147483648

instance (a : Int) : Decidable (IsInt a) := inferInstanceAs (Decidable (_ ∧ _))

/-- `firstIndex` of `main`. -/
def firstIndex (n : Nat) : Nat → Nat
  | 0 => 0
  | i + 1 => firstIndex n i + n

/-- `sum` and the thread that holds the mutex. -/
structure Globals where
  sum : Int
  mutex : Option (Fin 4)
  deriving DecidableEq

/-- Where a thread is in `calc_sum`. -/
inductive CalcSum where
  /-- At the test of the loop. -/
  | adding (i : Nat) (localSum : Int)
  | locking (localSum : Int)
  /-- Inside the mutex, before `sum` is read. -/
  | loading (localSum : Int)
  /-- `sum` was read, and is to be written. -/
  | storing (localSum read : Int)
  | unlocking
  | returned
  deriving DecidableEq

def calcSum (n : Nat) (arr : List Int) (t : Fin 4) (w : CalcSum) (g : Globals) :
    Option (CalcSum × Globals) :=
  match w with
  | .adding i localSum =>
    if i < firstIndex n t + n then do
      let x ← arr[i]?
      let localSum ← addLongLong localSum x
      some (.adding (i + 1) localSum, g)
    else some (.locking localSum, g)
  | .locking localSum =>
    if g.mutex = none then some (.loading localSum, { g with mutex := some t }) else none
  | .loading localSum => some (.storing localSum g.sum, g)
  | .storing localSum read => do
    let sum ← addLongLong read localSum
    some (.unlocking, { g with sum })
  | .unlocking => some (.returned, { g with mutex := none })
  | .returned => none

def checkSumResult (arr : List Int) : Option Int := arr.foldlM addLongLong 0

/-- The two numbers that `main` prints. -/
structure Printed where
  fromThreads : Int
  fromRaw : Int
  deriving DecidableEq

def program (n : Nat) (arr : List Int) : ForkJoin.Program 4 CalcSum Globals Unit Printed where
  entry t := .adding (firstIndex n t) 0
  step t _ w g := (calcSum n arr t w g).map fun r => (r.1, r.2, [])
  returned w := w = .returned
  finish g := (checkSumResult arr).map fun res => [⟨g.sum, res⟩]

def globals : Globals := ⟨0, none⟩

/-! ## The quarters -/

variable {n : Nat} {arr : List Int}

theorem firstIndex_eq (n i : Nat) : firstIndex n i = n * i := by
  induction i with
  | zero => rfl
  | succ i ih =>
    rw [firstIndex, ih]
    rfl

/-- The sum of the elements from `i` up to `j`. -/
def sliceSum (arr : List Int) (i j : Nat) : Int := ((arr.drop i).take (j - i)).sum

def quarter (n : Nat) (arr : List Int) (t : Fin 4) : Int :=
  sliceSum arr (firstIndex n t) (firstIndex n t + n)

theorem sliceSum_self (arr : List Int) (i : Nat) : sliceSum arr i i = 0 := by
  rw [sliceSum, Nat.sub_self]
  rfl

theorem sliceSum_succ {i j : Nat} {x : Int} (hij : i ≤ j) (hx : arr[j]? = some x) :
    sliceSum arr i (j + 1) = sliceSum arr i j + x := by
  have hget : (arr.drop i)[j - i]? = some x := by
    rw [List.getElem?_drop, Nat.add_sub_cancel' hij, hx]
  rw [sliceSum, sliceSum, Nat.succ_sub hij, List.take_add_one, hget, List.sum_append]
  simp

/-- Sums of `int`s stay far from the bounds of `long long`. -/
theorem abs_sum_le {l : List Int} (h : ∀ x ∈ l, IsInt x) :
    -(2147483648 * (l.length : Int)) ≤ l.sum ∧ l.sum ≤ 2147483648 * (l.length : Int) := by
  induction l with
  | nil => exact ⟨Int.le_refl _, Int.le_refl _⟩
  | cons x l ih =>
    obtain ⟨hlow, hhigh⟩ := ih fun y hy => h y (List.mem_cons_of_mem x hy)
    obtain ⟨hx, hx'⟩ := h x (List.mem_cons_self ..)
    rw [List.sum_cons, List.length_cons]
    push_cast
    constructor <;> omega

theorem abs_sliceSum_le (h : ∀ x ∈ arr, IsInt x) (i j : Nat) :
    -(2147483648 * ((j - i : Nat) : Int)) ≤ sliceSum arr i j ∧
      sliceSum arr i j ≤ 2147483648 * ((j - i : Nat) : Int) := by
  have hints : ∀ x ∈ (arr.drop i).take (j - i), IsInt x :=
    fun x hx => h x (List.mem_of_mem_drop (List.mem_of_mem_take hx))
  obtain ⟨hlow, hhigh⟩ := abs_sum_le hints
  have hlength : ((arr.drop i).take (j - i)).length ≤ j - i := List.length_take_le ..
  rw [sliceSum]
  constructor <;> omega

theorem addLongLong_eq {a b : Int} (hlow : -9223372036854775808 ≤ a + b)
    (hhigh : a + b < 9223372036854775808) : addLongLong a b = some (a + b) :=
  if_pos ⟨hlow, hhigh⟩

theorem of_addLongLong {a b c : Int} (h : addLongLong a b = some c) : c = a + b :=
  (Option.some.inj (Option.ite_none_right_eq_some.mp h).2).symm

theorem checkSumResult_eq (h : ∀ x ∈ arr, IsInt x) (hlength : arr.length ≤ 2147483648) :
    checkSumResult arr = some arr.sum := by
  have hfold : ∀ (l : List Int) (a : Int), (∀ x ∈ l, IsInt x) →
      -(2147483648 * (2147483648 - (l.length : Int))) ≤ a →
      a ≤ 2147483648 * (2147483648 - (l.length : Int)) → l.length ≤ 2147483648 →
      l.foldlM addLongLong a = some (a + l.sum) := by
    intro l
    induction l with
    | nil =>
      intro a _ _ _ _
      simp
    | cons x l ih =>
      intro a hints hlow hhigh hle
      obtain ⟨hx, hx'⟩ := hints x (List.mem_cons_self ..)
      rw [List.length_cons] at hlow hhigh hle
      push_cast at hlow hhigh
      rw [List.foldlM_cons, addLongLong_eq (by omega) (by omega)]
      show l.foldlM addLongLong (a + x) = _
      rw [ih (a + x) (fun y hy => hints y (List.mem_cons_of_mem x hy)) (by omega) (by omega)
        (by omega), List.sum_cons, add_assoc]
  rw [checkSumResult, hfold arr 0 h (by omega) (by omega) hlength, zero_add]

/-- The quarters make up the array. -/
theorem sum_quarters (hlength : arr.length = 4 * n) : ∑ t, quarter n arr t = arr.sum := by
  have hsplit : ∀ (l : List Int) (k : Nat), l.sum = (l.take k).sum + (l.drop k).sum := by
    intro l k
    rw [← List.sum_append, List.take_append_drop]
  have hquarter : ∀ t : Fin 4, quarter n arr t = ((arr.drop (n * t)).take n).sum := by
    intro t
    rw [quarter, sliceSum, firstIndex_eq, Nat.add_sub_cancel_left]
  have hlast : arr.drop (n * 4) = [] := List.drop_eq_nil_of_le (by omega)
  rw [Fin.sum_univ_four, hquarter, hquarter, hquarter, hquarter]
  have h₀ := hsplit arr n
  have h₁ := hsplit (arr.drop n) n
  have h₂ := hsplit (arr.drop (n + n)) n
  have h₃ := hsplit (arr.drop (n + n + n)) n
  rw [List.drop_drop] at h₁ h₂ h₃
  have hend : n + n + n + n = n * 4 := by omega
  rw [hend, hlast, List.sum_nil] at h₃
  have e₁ : n * (1 : Fin 4).val = n := Nat.mul_one n
  have e₂ : n * (2 : Fin 4).val = n + n := by
    show n * 2 = n + n
    omega
  have e₃ : n * (3 : Fin 4).val = n + n + n := by
    show n * 3 = n + n + n
    omega
  rw [e₁, e₂, e₃]
  show ((arr.drop (n * 0)).take n).sum + _ + _ + _ = _
  rw [Nat.mul_zero, List.drop_zero]
  omega

/-! ## What holds in every run -/

/-- What a thread has added to `sum`. -/
def added (n : Nat) (arr : List Int) (t : Fin 4) : Option CalcSum → Int
  | some .unlocking | some .returned => quarter n arr t
  | _ => 0

def readSum : Option CalcSum → Option Int
  | some (.storing _ read) => some read
  | _ => none

def inside : Option CalcSum → Bool
  | some (.loading _) | some (.storing ..) | some .unlocking => true
  | _ => false

/-- What a thread has in its `localSum`. -/
def Local (n : Nat) (arr : List Int) (t : Fin 4) : CalcSum → Prop
  | .adding i localSum => firstIndex n t ≤ i ∧ i ≤ firstIndex n t + n ∧
      localSum = sliceSum arr (firstIndex n t) i
  | .locking localSum | .loading localSum | .storing localSum _ => localSum = quarter n arr t
  | .unlocking | .returned => True

def use (n : Nat) (arr : List Int) : LockedCell.Use 4 CalcSum Globals Int where
  added := added n arr
  read := readSum
  inside := inside
  mutex := Globals.mutex
  cell := Globals.sum

structure Inv (n : Nat) (arr : List Int) (threads : Fin 4 → Option CalcSum) (g : Globals) :
    Prop where
  books : LockedCell.Books (use n arr) threads g
  locals : ∀ t w, threads t = some w → Local n arr t w

theorem Inv.sum_eq {threads : Fin 4 → Option CalcSum} {g : Globals}
    (h : Inv n arr threads g) : g.sum = ∑ t, added n arr t (threads t) :=
  h.books.total

/-- One step of `calc_sum`. -/
theorem calcSum_section {g g' : Globals} {t : Fin 4} {w w' : CalcSum} (h : Local n arr t w)
    (hstep : calcSum n arr t w g = some (w', g')) :
    LockedCell.Section (use n arr) t (some w) (some w') g g' ∧ Local n arr t w' := by
  cases w with
  | adding i localSum =>
    obtain ⟨hlow, hhigh, hsum⟩ := h
    rw [calcSum] at hstep
    by_cases hi : i < firstIndex n t + n
    · rw [if_pos hi] at hstep
      obtain ⟨x, hx, hstep⟩ := Option.bind_eq_some_iff.mp hstep
      obtain ⟨sum, hadd, hstep⟩ := Option.bind_eq_some_iff.mp hstep
      obtain ⟨rfl, rfl⟩ := Prod.mk.inj (Option.some.inj hstep)
      refine ⟨.aside rfl rfl rfl rfl rfl, by omega, by omega, ?_⟩
      rw [of_addLongLong hadd, hsum, sliceSum_succ hlow hx]
    · rw [if_neg hi] at hstep
      obtain ⟨rfl, rfl⟩ := Prod.mk.inj (Option.some.inj hstep)
      refine ⟨.aside rfl rfl rfl rfl rfl, ?_⟩
      show localSum = quarter n arr t
      rw [hsum, quarter, Nat.le_antisymm hhigh (Nat.le_of_not_lt hi)]
  | locking localSum =>
    obtain ⟨hfree, hstep⟩ := Option.ite_none_right_eq_some.mp hstep
    obtain ⟨rfl, rfl⟩ := Prod.mk.inj (Option.some.inj hstep)
    exact ⟨.enter rfl rfl rfl hfree rfl rfl, h⟩
  | loading localSum =>
    obtain ⟨rfl, rfl⟩ := Prod.mk.inj (Option.some.inj hstep)
    exact ⟨.load rfl rfl rfl rfl rfl rfl, h⟩
  | storing localSum read =>
    obtain ⟨sum, hadd, hstep⟩ := Option.bind_eq_some_iff.mp hstep
    obtain ⟨rfl, rfl⟩ := Prod.mk.inj (Option.some.inj hstep)
    have hlocal : localSum = quarter n arr t := h
    have hsum : sum = read + quarter n arr t := by rw [of_addLongLong hadd, hlocal]
    exact ⟨.store (Int.zero_add _).symm rfl rfl rfl rfl hsum, trivial⟩
  | unlocking =>
    obtain ⟨rfl, rfl⟩ := Prod.mk.inj (Option.some.inj hstep)
    exact ⟨.leave rfl rfl rfl rfl rfl rfl rfl, trivial⟩
  | returned => cases hstep

theorem inv_start (n : Nat) (arr : List Int) : Inv n arr (fun _ => none) globals where
  books := LockedCell.ledger_start
  locals _ _ hw := nomatch hw

theorem keeps (n : Nat) (arr : List Int) :
    (program n arr).Keeps (fun _ => True) (fun threads g _ => Inv n arr threads g) where
  create := by
    intro threads g os t h hnone
    refine ⟨h.books.step ?_, ForkJoin.all_update h.locals
      ⟨Nat.le_refl _, Nat.le_add_right _ _, (sliceSum_self arr _).symm⟩⟩
    rw [hnone]
    exact .aside rfl rfl rfl rfl rfl
  thread := by
    intro threads g os t a w w' g' os' h hw _ _ hstep
    obtain ⟨⟨w₁, g₁⟩, hcalc, hstep⟩ := Option.map_eq_some_iff.mp hstep
    obtain ⟨rfl, rfl, -⟩ : w₁ = w' ∧ g₁ = g' ∧ [] = os' := by simpa using hstep
    obtain ⟨hsection, hlocal⟩ := calcSum_section (h.locals t w hw) hcalc
    rw [← hw] at hsection
    exact ⟨h.books.step hsection, ForkJoin.all_update h.locals hlocal⟩
  finish h _ _ := h

/-! ## Every run gets to the end -/

theorem abs_added_le (h : ∀ x ∈ arr, IsInt x) (t : Fin 4) (w : Option CalcSum) :
    -(2147483648 * (n : Int)) ≤ added n arr t w ∧ added n arr t w ≤ 2147483648 * (n : Int) := by
  have hquarter := abs_sliceSum_le h (firstIndex n t) (firstIndex n t + n)
  rw [Nat.add_sub_cancel_left] at hquarter
  cases w with
  | none => exact ⟨by show _ ≤ (0 : Int); omega, by show (0 : Int) ≤ _; omega⟩
  | some w =>
    cases w with
    | unlocking => exact hquarter
    | returned => exact hquarter
    | _ => exact ⟨by show _ ≤ (0 : Int); omega, by show (0 : Int) ≤ _; omega⟩

/-- A thread inside the mutex can go on: no sum overflows. -/
theorem exists_step_of_inside {threads : Fin 4 → Option CalcSum} {g : Globals} {t : Fin 4}
    {w : CalcSum} (hints : ∀ x ∈ arr, IsInt x) (hn : 4 * n ≤ 2147483648)
    (h : Inv n arr threads g) (hw : threads t = some w) (hinside : inside (some w) = true) :
    ∃ r, calcSum n arr t w g = some r := by
  cases w with
  | loading localSum => exact ⟨_, rfl⟩
  | unlocking => exact ⟨_, rfl⟩
  | storing localSum read =>
    have hfresh : read = g.sum := (h.books.fresh t read (by rw [hw]; rfl)).2
    have hlocal : localSum = quarter n arr t := h.locals t _ hw
    have htotal := h.sum_eq
    rw [Fin.sum_univ_four] at htotal
    have h₀ := abs_added_le (n := n) hints 0 (threads 0)
    have h₁ := abs_added_le (n := n) hints 1 (threads 1)
    have h₂ := abs_added_le (n := n) hints 2 (threads 2)
    have h₃ := abs_added_le (n := n) hints 3 (threads 3)
    have hq := abs_added_le (n := n) hints t (some .returned)
    have hq : -(2147483648 * (n : Int)) ≤ localSum ∧ localSum ≤ 2147483648 * (n : Int) := by
      rw [hlocal]
      exact hq
    refine ⟨(.unlocking, { g with sum := read + localSum }), ?_⟩
    show (addLongLong read localSum).bind _ = _
    rw [addLongLong_eq (by omega) (by omega)]
    rfl
  | _ => cases hinside

theorem live (hlength : arr.length = 4 * n) (hn : 4 * n ≤ 2147483648)
    (hints : ∀ x ∈ arr, IsInt x) : ForkJoin.Program.Live (program n arr) (fun _ => True)
      (fun threads g _ => Inv n arr threads g) where
  thread := by
    intro threads g os t w h hw hlive
    have hgo : ∃ t' w', threads t' = some w' ∧ (program n arr).returned w' = false ∧
        ∃ r, calcSum n arr t' w' g = some r := by
      refine h.books.exists_go hw rfl ?_ ?_
      · intro t' w' hw' hinside
        refine ⟨?_, exists_step_of_inside hints hn h hw' hinside⟩
        cases w' with
        | returned => cases hinside
        | _ => rfl
      · intro hmutex
        refine ⟨hlive, ?_⟩
        cases w with
        | adding i localSum =>
          by_cases hi : i < firstIndex n t + n
          · obtain ⟨hlow, -, hsum⟩ := h.locals t _ hw
            have hlt : i < arr.length := by
              have htlt := t.isLt
              have hmul : n * t.val ≤ n * 3 := Nat.mul_le_mul_left n (by omega)
              rw [firstIndex_eq] at hi
              omega
            obtain ⟨hx, hx'⟩ := hints arr[i] (List.getElem_mem hlt)
            have hbound := abs_sliceSum_le hints (firstIndex n t) i
            rw [← hsum] at hbound
            refine ⟨(.adding (i + 1) (localSum + arr[i]), g), ?_⟩
            rw [calcSum, if_pos hi, List.getElem?_eq_getElem hlt]
            show (addLongLong localSum arr[i]).bind _ = _
            rw [addLongLong_eq (by omega) (by omega)]
            rfl
          · exact ⟨(.locking localSum, g), if_neg hi⟩
        | locking localSum => exact ⟨_, if_pos hmutex⟩
        | returned => cases hlive
        | _ => exact exists_step_of_inside hints hn h hw rfl
    obtain ⟨t', w', hw', hlive', r, hr⟩ := hgo
    refine ⟨t', (), w', (r.1, r.2, []), trivial, hw', hlive', ?_⟩
    show (calcSum n arr t' w' g).map _ = _
    rw [hr]
    rfl
  finish := by
    intro threads g os _ _
    show ((checkSumResult arr).map _).isSome = true
    rw [checkSumResult_eq hints (by omega)]
    rfl

/-- The steps a thread has left. -/
def size (n : Nat) (t : Fin 4) : CalcSum → Nat
  | .adding i _ => firstIndex n t + n - i + 5
  | .locking _ => 4
  | .loading _ => 3
  | .storing .. => 2
  | .unlocking => 1
  | .returned => 0

theorem size_lt {t : Fin 4} {a : Unit} {w w' : CalcSum} {g g' : Globals} {os : List Printed}
    (h : (program n arr).step t a w g = some (w', g', os)) : size n t w' < size n t w := by
  obtain ⟨⟨w₁, g₁⟩, hcalc, h⟩ := Option.map_eq_some_iff.mp h
  obtain ⟨rfl, rfl, rfl⟩ : w₁ = w' ∧ g₁ = g' ∧ [] = os := by simpa using h
  cases w with
  | adding i localSum =>
    rw [calcSum] at hcalc
    by_cases hi : i < firstIndex n t + n
    · rw [if_pos hi] at hcalc
      obtain ⟨x, hx, hcalc⟩ := Option.bind_eq_some_iff.mp hcalc
      obtain ⟨sum, hadd, hcalc⟩ := Option.bind_eq_some_iff.mp hcalc
      obtain ⟨rfl, rfl⟩ := Prod.mk.inj (Option.some.inj hcalc)
      show firstIndex n t + n - (i + 1) + 5 < firstIndex n t + n - i + 5
      omega
    · rw [if_neg hi] at hcalc
      obtain ⟨rfl, rfl⟩ := Prod.mk.inj (Option.some.inj hcalc)
      show 4 < firstIndex n t + n - i + 5
      omega
  | locking localSum =>
    obtain ⟨-, hcalc⟩ := Option.ite_none_right_eq_some.mp hcalc
    obtain ⟨rfl, rfl⟩ := Prod.mk.inj (Option.some.inj hcalc)
    exact Nat.lt_succ_self 3
  | loading localSum =>
    obtain ⟨rfl, rfl⟩ := Prod.mk.inj (Option.some.inj hcalc)
    exact Nat.lt_succ_self 2
  | storing localSum read =>
    obtain ⟨sum, hadd, hcalc⟩ := Option.bind_eq_some_iff.mp hcalc
    obtain ⟨rfl, rfl⟩ := Prod.mk.inj (Option.some.inj hcalc)
    exact Nat.lt_succ_self 1
  | unlocking =>
    obtain ⟨rfl, rfl⟩ := Prod.mk.inj (Option.some.inj hcalc)
    exact Nat.lt_succ_self 0
  | returned => cases hcalc

theorem silent {t : Fin 4} {a : Unit} {w w' : CalcSum} {g g' : Globals} {os : List Printed}
    (h : (program n arr).step t a w g = some (w', g', os)) : os = [] := by
  obtain ⟨⟨w₁, g₁⟩, -, h⟩ := Option.map_eq_some_iff.mp h
  obtain ⟨-, -, rfl⟩ : w₁ = w' ∧ g₁ = g' ∧ [] = os := by simpa using h
  rfl

/-- The four loops in step, the mutex in turn. -/
def inStep : List (ForkJoin.Act 4 Unit) :=
  List.replicate 4 .main ++ [0, 1, 2, 3, 3, 2, 1, 0].map (.thread · ()) ++
    [2, 2, 2, 2, 0, 0, 0, 0, 3, 3, 3, 3, 1, 1, 1, 1].map (.thread · ()) ++
    List.replicate 5 .main

end SumArrMutex
end Exercises
end LinuxEmbedded
