import LinuxEmbedded.Lib.Framing

/-
Decimal numerals as bytes, as `%d` writes and reads them.
-/
namespace LinuxEmbedded
namespace Decimal

open Framing (Byte)

def digit (d : Nat) : Byte := BitVec.ofNat 8 (48 + d)

def isDigit (b : Byte) : Bool := 48 ≤ b.toNat ∧ b.toNat ≤ 57

def textLoop : Nat → Nat → List Byte
  | 0, n => [digit (n % 10)]
  | fuel + 1, n => if n < 10 then [digit n] else textLoop fuel (n / 10) ++ [digit (n % 10)]

/-- The numeral of `n`, without leading zeros. -/
def text (n : Nat) : List Byte := textLoop n n

/-- The value of a row of digits. -/
def value (ds : List Byte) : Nat := ds.foldl (fun v b => 10 * v + (b.toNat - 48)) 0

theorem digit_toNat {d : Nat} (hd : d < 10) : (digit d).toNat = 48 + d := by
  rw [digit, BitVec.toNat_ofNat]
  omega

theorem isDigit_digit {d : Nat} (hd : d < 10) : isDigit (digit d) = true := by
  simp only [isDigit, digit_toNat hd, decide_eq_true_eq]
  omega

theorem value_append_singleton (ds : List Byte) (b : Byte) :
    value (ds ++ [b]) = 10 * value ds + (b.toNat - 48) := by
  simp [value, List.foldl_append]

theorem value_append (ds es : List Byte) :
    value (ds ++ es) = 10 ^ es.length * value ds + value es := by
  induction es using List.reverseRecOn with
  | nil =>
    rw [List.append_nil]
    simp [value]
  | append_singleton es b ih =>
    rw [← List.append_assoc, value_append_singleton, value_append_singleton, ih,
      List.length_append, List.length_singleton, Nat.pow_succ, Nat.mul_add, Nat.add_assoc,
      Nat.mul_left_comm, Nat.mul_assoc]

theorem textLoop_spec {fuel n : Nat} (hfuel : n ≤ fuel) :
    value (textLoop fuel n) = n ∧ (∀ b ∈ textLoop fuel n, isDigit b = true) ∧
      textLoop fuel n ≠ [] ∧ (n < 10 → (textLoop fuel n).length = 1) := by
  induction fuel generalizing n with
  | zero =>
    have hn : n = 0 := by omega
    subst hn
    refine ⟨by decide, ?_, by decide, fun _ => rfl⟩
    intro b hb
    rw [List.mem_singleton.mp hb]
    rfl
  | succ fuel ih =>
    rw [textLoop]
    by_cases hn : n < 10
    · rw [if_pos hn]
      refine ⟨?_, ?_, by simp, fun _ => rfl⟩
      · have hd := digit_toNat hn
        show 10 * 0 + ((digit n).toNat - 48) = n
        omega
      · intro b hb
        rw [List.mem_singleton.mp hb]
        exact isDigit_digit hn
    · rw [if_neg hn]
      obtain ⟨hvalue, hdigits, hne, _⟩ := ih (n := n / 10) (by omega)
      have hlast : n % 10 < 10 := Nat.mod_lt n (by omega)
      refine ⟨?_, ?_, by simp, fun h => absurd h hn⟩
      · rw [value_append_singleton, hvalue, digit_toNat hlast]
        omega
      · intro b hb
        rcases List.mem_append.mp hb with hb | hb
        · exact hdigits b hb
        · rw [List.mem_singleton.mp hb]
          exact isDigit_digit hlast

theorem value_text (n : Nat) : value (text n) = n := (textLoop_spec (Nat.le_refl n)).1

theorem text_digits {n : Nat} {b : Byte} (hb : b ∈ text n) : isDigit b = true :=
  (textLoop_spec (Nat.le_refl n)).2.1 b hb

theorem text_ne_nil (n : Nat) : text n ≠ [] := (textLoop_spec (Nat.le_refl n)).2.2.1

theorem textLoop_length_le {fuel n k : Nat} (hfuel : n ≤ fuel) (hn : n < 10 ^ (k + 1)) :
    (textLoop fuel n).length ≤ k + 1 := by
  induction fuel generalizing n k with
  | zero => simp [textLoop]
  | succ fuel ih =>
    rw [textLoop]
    by_cases hlt : n < 10
    · rw [if_pos hlt]
      simp
    · rw [if_neg hlt, List.length_append, List.length_singleton]
      cases k with
      | zero => omega
      | succ k =>
        have hdiv : n / 10 < 10 ^ (k + 1) := by
          rw [Nat.div_lt_iff_lt_mul (by omega)]
          rw [Nat.pow_succ] at hn
          exact hn
        have hle := ih (n := n / 10) (by omega) hdiv
        omega

theorem text_length_le {n k : Nat} (hn : n < 10 ^ (k + 1)) : (text n).length ≤ k + 1 :=
  textLoop_length_le (Nat.le_refl n) hn

/-- The first digits of a numeral stand for a smaller number. -/
theorem value_lt_of_append {n : Nat} {ds es : List Byte} (h : text n = ds ++ es) (hds : ds ≠ [])
    (hes : es ≠ []) : value ds < n := by
  have hvalue := value_text n
  rw [h, value_append] at hvalue
  have hlen : 0 < es.length := List.length_pos_of_ne_nil hes
  have hten : 10 ≤ 10 ^ es.length := Nat.le_self_pow (by omega) 10
  have hle : 10 * value ds ≤ 10 ^ es.length * value ds := Nat.mul_le_mul_right _ hten
  by_cases hn : n < 10
  · have hone := (textLoop_spec (Nat.le_refl n)).2.2.2 hn
    have htwo : (text n).length = ds.length + es.length := by rw [h, List.length_append]
    have hdslen : 0 < ds.length := List.length_pos_of_ne_nil hds
    have hone : (text n).length = 1 := hone
    omega
  · omega

end Decimal
end LinuxEmbedded
