import LinuxEmbedded.Lib.Strtol

/-
The command lines of the gateway, `main.c`, and of a sensor node, `sensor_node.c`.

The gateway reads its port with `strtol` and looks at all that is reported back.  A node
only lets digits through, and takes what `atoi` makes of them.
-/
namespace LinuxEmbedded
namespace Gateway
namespace CommandLine

open Framing (Byte)
open Strtol (strtol atoi IsNumeral)

/-- The port the gateway starts on, from `argv[1]`. -/
def gatewayPort (arg : List Byte) : Option Int :=
  let parsed := strtol arg
  if parsed.erange = true ∨ parsed.rest ≠ [] ∨ parsed.value < 1 ∨ 65535 < parsed.value then none
  else some parsed.value

/-- The port a node connects to, from `argv[1]`. -/
def nodePort (arg : List Byte) : Option Int :=
  if arg.all Decimal.isDigit then
    let portNum := atoi arg
    if portNum < 1024 ∨ 65535 < portNum then none else some portNum
  else none

/-- The arguments of `sensor_node_simulate`. -/
structure Simulation where
  port : Int
  sensorId : Int
  sendCount : Int
  deriving DecidableEq, Repr

inductive NodeMain where
  | failure
  /-- `atoi` of a null pointer. -/
  | undefined
  | simulates (s : Simulation)
  deriving DecidableEq, Repr

/-- `main` of a node, up to `sensor_node_simulate`; `args` are `argv[1]` to `argv[argc - 1]`. -/
def nodeMain (args : List (List Byte)) : NodeMain :=
  match args with
  | portArg :: idArg :: more =>
    match nodePort portArg with
    | none => .failure
    | some port =>
      let sensorId := atoi idArg
      if sensorId < 0 then .failure
      else
        match more with
        | [] => .undefined
        | countArg :: _ =>
          let sendCount := atoi countArg
          if sendCount < -1 then .failure else .simulates ⟨port, sensorId, sendCount⟩
  | _ => .failure

/-! ## Numbers in the range of a port -/

theorem strtol_of_isNumeral {text : List Byte} {v : Int} (h : IsNumeral text v)
    (hlow : Strtol.longMin ≤ v) (hhigh : v ≤ Strtol.longMax) : strtol text = ⟨v, [], false⟩ := by
  have hclamp : max Strtol.longMin (min v Strtol.longMax) = v := by omega
  have hrange : (decide (v < Strtol.longMin) || decide (Strtol.longMax < v)) = false := by
    rw [decide_eq_false (Int.not_lt.mpr hlow), decide_eq_false (Int.not_lt.mpr hhigh)]
    rfl
  rw [Strtol.strtol_numeral h, hclamp, hrange]

/-- The gateway starts on a port exactly when its argument is a numeral for it. -/
theorem gatewayPort_iff {text : List Byte} {p : Int} :
    gatewayPort text = some p ↔ IsNumeral text p ∧ 1 ≤ p ∧ p ≤ 65535 := by
  have hmin : Strtol.longMin = -9223372036854775808 := rfl
  have hmax : Strtol.longMax = 9223372036854775807 := rfl
  constructor
  · intro h
    obtain ⟨hgood, hvalue⟩ := Option.ite_none_left_eq_some.mp h
    have hvalue : (strtol text).value = p := Option.some.inj hvalue
    have hrest : (strtol text).rest = [] := by
      by_cases hrest : (strtol text).rest = []
      · exact hrest
      · exact absurd (Or.inr (Or.inl hrest)) hgood
    have hlow : ¬(strtol text).value < 1 := fun hlt => hgood (Or.inr (Or.inr (Or.inl hlt)))
    have hhigh : ¬65535 < (strtol text).value := fun hlt => hgood (Or.inr (Or.inr (Or.inr hlt)))
    have hne : text ≠ [] := by
      rintro rfl
      exact hlow (by decide)
    obtain ⟨v, hv⟩ := Strtol.isNumeral_of_rest hne hrest
    have hclamp : max Strtol.longMin (min v Strtol.longMax) = p := by
      rw [← hvalue, Strtol.strtol_numeral hv]
    rw [hvalue] at hlow hhigh
    have hvp : v = p := by omega
    rw [hvp] at hv
    exact ⟨hv, by omega, by omega⟩
  · rintro ⟨hnumeral, hlow, hhigh⟩
    have hparsed := strtol_of_isNumeral hnumeral (by omega) (by omega)
    rw [gatewayPort, hparsed]
    refine if_neg ?_
    rintro (h | h | h | h)
    · cases h
    · exact h rfl
    · exact absurd h (Int.not_lt.mpr hlow)
    · exact absurd h (Int.not_lt.mpr hhigh)

/-- What a node makes of a row of digits. -/
theorem atoi_digits {digits : List Byte} (hne : digits ≠ [])
    (h : ∀ b ∈ digits, Decimal.isDigit b = true) :
    atoi digits = (min (Decimal.value digits : Int) Strtol.longMax).bmod (2 ^ 32) := by
  have hmin : Strtol.longMin = -9223372036854775808 := rfl
  have hmax : Strtol.longMax = 9223372036854775807 := rfl
  have hclamp : max Strtol.longMin (min (Decimal.value digits : Int) Strtol.longMax) =
      min (Decimal.value digits : Int) Strtol.longMax := by omega
  rw [atoi, Strtol.strtol_numeral (Strtol.isNumeral_digits hne h), hclamp]

theorem nodePort_spec {text : List Byte} {q : Int} (h : nodePort text = some q) :
    text ≠ [] ∧ (∀ b ∈ text, Decimal.isDigit b = true) ∧ atoi text = q ∧ 1024 ≤ q ∧
      q ≤ 65535 := by
  obtain ⟨hall, h⟩ := Option.ite_none_right_eq_some.mp h
  obtain ⟨hrange, h⟩ := Option.ite_none_left_eq_some.mp h
  have hq : atoi text = q := Option.some.inj h
  rw [hq] at hrange
  refine ⟨?_, List.all_eq_true.mp hall, hq, by omega, by omega⟩
  rintro rfl
  have hzero : atoi [] = 0 := rfl
  omega

/-- One text on both command lines.  The gateway takes a numeral for a port from 1 to 65535, with
blanks and a plus in front or not; where a node takes the text as well, both mean the same port,
or the number is 2 ^ 32 or more, and then the gateway refuses what the node cuts down. -/
theorem ports_of_one_text (text : List Byte) :
    (∀ p, gatewayPort text = some p ↔ IsNumeral text p ∧ 1 ≤ p ∧ p ≤ 65535) ∧
      ∀ q, nodePort text = some q →
        gatewayPort text = if Decimal.value text < 2 ^ 32 then some q else none := by
  refine ⟨fun p => gatewayPort_iff, ?_⟩
  intro q hq
  obtain ⟨hne, hdigits, hatoi, hlow, hhigh⟩ := nodePort_spec hq
  have hmax : Strtol.longMax = 9223372036854775807 := rfl
  have hnumeral := Strtol.isNumeral_digits hne hdigits
  have hvalue := atoi_digits hne hdigits
  rw [hatoi] at hvalue
  by_cases hsmall : Decimal.value text < 2 ^ 32
  · rw [if_pos hsmall]
    have hmin : min (Decimal.value text : Int) Strtol.longMax = Decimal.value text := by omega
    have hsame : (Decimal.value text : Int) = q := by
      rw [hmin] at hvalue
      rw [Int.bmod_def] at hvalue
      split at hvalue <;> omega
    rw [gatewayPort_iff, ← hsame]
    exact ⟨hnumeral, by omega, by omega⟩
  · rw [if_neg hsmall, Option.eq_none_iff_forall_ne_some]
    intro p hp
    obtain ⟨hp, hfirst, hlast⟩ := gatewayPort_iff.mp hp
    have hmin : Strtol.longMin = -9223372036854775808 := rfl
    have hparsed := strtol_of_isNumeral hp (by omega) (by omega)
    rw [Strtol.strtol_numeral hnumeral] at hparsed
    have heq := congrArg Strtol.Result.value hparsed
    dsimp only at heq
    omega

end CommandLine
end Gateway
end LinuxEmbedded
