import LinuxEmbedded.Lib.Decimal
import Mathlib.Data.List.TakeDrop
import Mathlib.Data.List.TakeWhile

/-
`strtol` in base 10, and `atoi`, on a machine with a `long` of 64 and an `int` of 32 bits.
-/
namespace LinuxEmbedded
namespace Strtol

open Framing (Byte)

def plus : Byte := 43

def minus : Byte := 45

/-- `isspace`. -/
def isSpace (b : Byte) : Bool := b.toNat == 32 || (9 ≤ b.toNat && b.toNat ≤ 13)

def longMin : Int := -9223372036854775808

def longMax : Int := 9223372036854775807

/-- Whether there is a minus, and what follows the sign. -/
def sign : List Byte → Bool × List Byte
  | [] => (false, [])
  | b :: rest =>
    if b = minus then (true, rest) else if b = plus then (false, rest) else (false, b :: rest)

structure Result where
  value : Int
  /-- What `endptr` points to. -/
  rest : List Byte
  erange : Bool

def strtol (text : List Byte) : Result :=
  let s := sign (text.dropWhile isSpace)
  let digits := s.2.takeWhile Decimal.isDigit
  if digits = [] then ⟨0, text, false⟩
  else
    let v : Int := if s.1 then -(Decimal.value digits : Int) else Decimal.value digits
    { value := max longMin (min v longMax)
      rest := s.2.dropWhile Decimal.isDigit
      erange := v < longMin || longMax < v }

def atoi (text : List Byte) : Int := (strtol text).value.bmod (2 ^ 32)

/-- Blanks, a sign or none, and digits, which together are `v`. -/
def IsNumeral (text : List Byte) (v : Int) : Prop :=
  ∃ blanks signed digits, text = blanks ++ (signed ++ digits) ∧
    (∀ b ∈ blanks, isSpace b = true) ∧ digits ≠ [] ∧ (∀ b ∈ digits, Decimal.isDigit b = true) ∧
    (signed = [minus] ∧ v = -(Decimal.value digits : Int) ∨
      (signed = [plus] ∨ signed = []) ∧ v = Decimal.value digits)

theorem digit_toNat_bounds {b : Byte} (h : Decimal.isDigit b = true) :
    48 ≤ b.toNat ∧ b.toNat ≤ 57 := by
  simpa only [Decimal.isDigit, decide_eq_true_eq] using h

theorem digit_ne_sign {b : Byte} (h : Decimal.isDigit b = true) : b ≠ minus ∧ b ≠ plus := by
  obtain ⟨hlow, -⟩ := digit_toNat_bounds h
  constructor
  · rintro rfl
    exact absurd hlow (by decide)
  · rintro rfl
    exact absurd hlow (by decide)

theorem digit_not_space {b : Byte} (h : Decimal.isDigit b = true) : isSpace b = false := by
  obtain ⟨hlow, -⟩ := digit_toNat_bounds h
  have h32 : ¬b.toNat = 32 := by omega
  have h13 : ¬b.toNat ≤ 13 := by omega
  simp [isSpace, h32, h13]

theorem sign_digits {digits : List Byte} (hne : digits ≠ [])
    (h : ∀ b ∈ digits, Decimal.isDigit b = true) : sign digits = (false, digits) := by
  cases digits with
  | nil => exact absurd rfl hne
  | cons b rest =>
    obtain ⟨hminus, hplus⟩ := digit_ne_sign (h b List.mem_cons_self)
    rw [sign, if_neg hminus, if_neg hplus]

/-- Blanks in front of something else are skipped. -/
theorem skip_blanks {blanks rest : List Byte} (h : ∀ b ∈ blanks, isSpace b = true)
    (hrest : ∀ b, rest.head? = some b → isSpace b = false) :
    (blanks ++ rest).dropWhile isSpace = rest := by
  rw [List.dropWhile_append_of_pos h]
  cases rest with
  | nil => rfl
  | cons b rest =>
    rw [List.dropWhile_cons_of_neg]
    rw [hrest b rfl]
    exact Bool.false_ne_true

/-- A text that is a numeral is read to its end. -/
theorem strtol_numeral {text : List Byte} {v : Int} (h : IsNumeral text v) :
    strtol text = ⟨max longMin (min v longMax), [], v < longMin || longMax < v⟩ := by
  obtain ⟨blanks, signed, digits, rfl, hblanks, hne, hdigits, hsigned⟩ := h
  have htake : digits.takeWhile Decimal.isDigit = digits :=
    List.takeWhile_eq_self_iff.mpr hdigits
  have hdrop : digits.dropWhile Decimal.isDigit = [] := List.dropWhile_eq_nil_iff.mpr hdigits
  -- what `strtol` finds behind the blanks
  have hsign : ∃ negative, sign ((blanks ++ (signed ++ digits)).dropWhile isSpace) =
      (negative, digits) ∧
        v = if negative then -(Decimal.value digits : Int) else Decimal.value digits := by
    have hminus : isSpace minus = false := by decide
    have hplus : isSpace plus = false := by decide
    rcases hsigned with ⟨rfl, hv⟩ | ⟨rfl | rfl, hv⟩
    · refine ⟨true, ?_, hv⟩
      rw [skip_blanks hblanks fun b hb => by rw [← Option.some.inj hb]; exact hminus]
      rfl
    · refine ⟨false, ?_, hv⟩
      rw [skip_blanks hblanks fun b hb => by rw [← Option.some.inj hb]; exact hplus]
      rfl
    · refine ⟨false, ?_, hv⟩
      rw [List.nil_append,
        skip_blanks hblanks fun b hb => digit_not_space (hdigits b (List.mem_of_mem_head? hb))]
      exact sign_digits hne hdigits
  obtain ⟨negative, hsign, hv⟩ := hsign
  simp only [strtol, hsign, htake, hdrop, if_neg hne, ← hv]

/-- A text that is read to its end is a numeral. -/
theorem isNumeral_of_rest {text : List Byte} (hne : text ≠ []) (h : (strtol text).rest = []) :
    ∃ v, IsNumeral text v := by
  by_cases hdigits : (sign (text.dropWhile isSpace)).2.takeWhile Decimal.isDigit = []
  · simp only [strtol, if_pos hdigits] at h
    exact absurd h hne
  · simp only [strtol, if_neg hdigits] at h
    have hall := List.dropWhile_eq_nil_iff.mp h
    have hsplit : text.takeWhile isSpace ++ text.dropWhile isSpace = text :=
      List.takeWhile_append_dropWhile
    have hblanks : ∀ b ∈ text.takeWhile isSpace, isSpace b = true :=
      fun b hb => List.mem_takeWhile_imp hb
    have hrest : (sign (text.dropWhile isSpace)).2 ≠ [] := by
      intro hnil
      rw [hnil] at hdigits
      exact hdigits rfl
    generalize text.dropWhile isSpace = body at hsplit hall hrest
    cases body with
    | nil => exact absurd rfl hrest
    | cons b rest =>
      rw [sign] at hall hrest
      by_cases hminus : b = minus
      · rw [if_pos hminus] at hall hrest
        rw [hminus] at hsplit
        exact ⟨_, _, [minus], rest, hsplit.symm, hblanks, hrest, hall, Or.inl ⟨rfl, rfl⟩⟩
      · rw [if_neg hminus] at hall hrest
        by_cases hplus : b = plus
        · rw [if_pos hplus] at hall hrest
          rw [hplus] at hsplit
          exact ⟨_, _, [plus], rest, hsplit.symm, hblanks, hrest, hall, Or.inr ⟨Or.inl rfl, rfl⟩⟩
        · rw [if_neg hplus] at hall hrest
          exact ⟨_, _, [], b :: rest, hsplit.symm, hblanks, hrest, hall,
            Or.inr ⟨Or.inr rfl, rfl⟩⟩

/-- A row of digits is a numeral. -/
theorem isNumeral_digits {digits : List Byte} (hne : digits ≠ [])
    (h : ∀ b ∈ digits, Decimal.isDigit b = true) : IsNumeral digits (Decimal.value digits) :=
  ⟨[], [], digits, rfl, fun _ hb => absurd hb List.not_mem_nil, hne, h, Or.inr ⟨Or.inr rfl, rfl⟩⟩

end Strtol
end LinuxEmbedded
