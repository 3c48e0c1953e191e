import LinuxEmbedded.Drivers.Led
import LinuxEmbedded.Lib.LineBuffer

/-
The two LED drivers under a process that writes a text.

`led_write` of `led-subsystem.c` refuses what does not fit its buffer and what is no
command.  `m_write` of `led.c` takes the first nine bytes and says so, and a process
that goes on with the rest has each portion taken for a command.
-/
namespace LinuxEmbedded
namespace Drivers

open Framing (Byte)

/-! ## `led-subsystem.c` -/

/-- `-EINVAL`. -/
def einval : Int := -22

/-- `led_write`: what it returns, and the level of the pin after it.  `command` is zeroed, and
what `copy_from_user` leaves out is zero as well. -/
def ledWrite (level : Bool) (len : Nat) (user : List Byte) : Int × Bool :=
  if bufferSize - 1 < len then (einval, level)
  else
    let copy := CharDev.copyFromUser (fun _ => 0) 0 len user
    if copy.2 ≠ 0 then (efault, level)
    else
      let buffer := Memory.fill copy.1 len 1 0
      if strncmpEq buffer 0 onText 2 then (len, true)
      else if strncmpEq buffer 0 offText 3 then (len, false)
      else (einval, level)

/-- A text that fits is taken when it is a command, and refused otherwise. -/
theorem ledWrite_text (level : Bool) (text : List Byte) :
    ledWrite level text.length text =
      if bufferSize - 1 < text.length then (einval, level)
      else ((command text).elim einval fun _ => (text.length : Int),
        (command text).getD level) := by
  rw [ledWrite]
  by_cases hlong : bufferSize - 1 < text.length
  · rw [if_pos hlong, if_pos hlong]
  · rw [if_neg hlong, if_neg hlong]
    have hcopied : ¬(CharDev.copyFromUser (fun _ => 0) 0 text.length text).2 ≠ 0 := by
      show ¬text.length - text.length ≠ 0
      omega
    have hbuffer : (CharDev.copyFromUser (fun _ => 0) 0 text.length text).1 =
        Memory.store (Memory.fill (fun _ => 0) 0 text.length 0) 0 text := by
      rw [CharDev.copyFromUser, List.take_length]
    dsimp only
    rw [if_neg hcopied, hbuffer]
    have hon := strncmpEq_copied (Memory.fill (fun _ => 0) 0 text.length 0) text
      (show ∀ c ∈ onText, c ≠ 0 by decide)
    have hoff := strncmpEq_copied (Memory.fill (fun _ => 0) 0 text.length 0) text
      (show ∀ c ∈ offText, c ≠ 0 by decide)
    generalize Memory.fill (Memory.store (Memory.fill (fun _ => 0) 0 text.length 0) 0 text)
      text.length 1 0 = buffer at hon hoff ⊢
    have hon : strncmpEq buffer 0 onText 2 = true ↔ onText <+: text := hon
    have hoff : strncmpEq buffer 0 offText 3 = true ↔ offText <+: text := hoff
    rw [command]
    by_cases honText : onText <+: text
    · rw [if_pos (hon.mpr honText), if_pos honText]
      rfl
    · rw [if_neg (fun he => honText (hon.mp he)), if_neg honText]
      by_cases hoffText : offText <+: text
      · rw [if_pos (hoff.mpr hoffText), if_pos hoffText]
        rfl
      · rw [if_neg (fun he => hoffText (hoff.mp he)), if_neg hoffText]
        rfl

/-! ## A process that writes a text -/

/-- Write until nothing is left or a call fails.  The first argument bounds the number of
calls; every call that does not fail takes something. -/
def writeAll {S : Type} (write : S → List Byte → Int × S) : Nat → S → List Byte → S
  | 0, s, _ => s
  | fuel + 1, s, text =>
    if text = [] then s
    else
      let result := write s text
      if result.1 < 0 then result.2
      else writeAll write fuel result.2 (text.drop result.1.toNat)

/-- The process on the device of `led.c`. -/
def writeLed (led : Led) (text : List Byte) : Led :=
  writeAll (fun led text => ((mWrite led text.length text).ret, (mWrite led text.length text).led))
    text.length led text

/-- The process on the device of `led-subsystem.c`. -/
def writeSubsystem (level : Bool) (text : List Byte) : Bool :=
  writeAll (fun level text => ledWrite level text.length text) text.length level text

theorem lastCommand_cons (text : List Byte) (texts : List (List Byte)) :
    lastCommand (text :: texts) = (lastCommand texts).or (command text) := by
  induction texts using List.reverseRecOn with
  | nil => rw [show [text] = [] ++ [text] from rfl, lastCommand_snoc, lastCommand_nil,
      Option.or_none, Option.none_or]
  | append_singleton texts last ih =>
    rw [← List.cons_append, lastCommand_snoc, lastCommand_snoc, ih, Option.or_assoc]

/-- A call on the whole text takes its first nine bytes. -/
theorem mWrite_text (led : Led) (text : List Byte) :
    (mWrite led text.length text).ret = (min text.length (bufferSize - 1) : Nat) ∧
      (mWrite led text.length text).led.gpio =
        led.gpio.apply (command (text.take (bufferSize - 1))) := by
  have hreceived : received text.length text = some (text.take (bufferSize - 1)) := by
    rw [received, if_pos (Nat.min_le_left ..)]
    congr 1
    by_cases hle : text.length ≤ bufferSize - 1
    · rw [Nat.min_eq_left hle, List.take_length, List.take_of_length_le hle]
    · rw [Nat.min_eq_right (by omega)]
  obtain ⟨hret, hgpio⟩ := @mWrite_received led _ _ _ hreceived
  refine ⟨?_, hgpio⟩
  rw [hret, List.length_take, Nat.min_comm]

/-- On `led.c` each portion of nine bytes is a command of its own. -/
theorem writeLed_lit (led : Led) (text : List Byte) :
    (writeLed led text).gpio.lit =
      (lastCommand (LineBuffer.blocks (bufferSize - 1) text)).getD led.gpio.lit := by
  have hall : ∀ fuel led (text : List Byte), text.length ≤ fuel →
      (writeAll (fun led text =>
        ((mWrite led text.length text).ret, (mWrite led text.length text).led)) fuel led
          text).gpio.lit =
        (lastCommand (LineBuffer.blocks (bufferSize - 1) text)).getD led.gpio.lit := by
    have hsize : bufferSize - 1 = 9 := rfl
    have hsplit : 0 < bufferSize - 1 := by omega
    intro fuel
    induction fuel with
    | zero =>
      intro led text hlength
      rw [List.eq_nil_of_length_eq_zero (Nat.le_zero.mp hlength)]
      rfl
    | succ fuel ih =>
      intro led text hlength
      rw [writeAll]
      by_cases hnil : text = []
      · rw [if_pos hnil, hnil]
        rfl
      · have hpos : 0 < text.length := List.length_pos_of_ne_nil hnil
        obtain ⟨hret, hgpio⟩ := mWrite_text led text
        have htaken : ¬(mWrite led text.length text).ret < 0 := by omega
        have hrest : (text.drop (mWrite led text.length text).ret.toNat).length ≤ fuel := by
          rw [List.length_drop, hret, Int.toNat_natCast]
          omega
        rw [if_neg hnil]
        dsimp only
        rw [if_neg htaken, ih _ _ hrest, hgpio, Gpio.apply_lit, hret, Int.toNat_natCast,
          ← getD_or]
        congr 1
        by_cases hshort : text.length < bufferSize - 1
        · rw [Nat.min_eq_left (by omega), List.drop_length, LineBuffer.blocks_short hshort,
            List.take_of_length_le (by omega)]
          exact (lastCommand_cons text []).symm
        · rw [Nat.min_eq_right (by omega), LineBuffer.blocks_long hsplit (Nat.le_of_not_lt hshort),
            lastCommand_cons]
  exact hall text.length led text (Nat.le_refl _)

/-- The first call settles it. -/
theorem writeSubsystem_first (fuel : Nat) (level : Bool) (text : List Byte) :
    writeAll (fun level text => ledWrite level text.length text) (fuel + 1) level text =
      if text.length ≤ bufferSize - 1 then (command text).getD level else level := by
  rw [writeAll]
  by_cases hnil : text = []
  · rw [if_pos hnil, hnil]
    rfl
  · rw [if_neg hnil, ledWrite_text]
    have hrefused : einval < 0 := by decide
    by_cases hlong : bufferSize - 1 < text.length
    · rw [if_pos hlong, if_neg (Nat.not_le_of_lt hlong)]
      exact if_pos hrefused
    · rw [if_neg hlong, if_pos (Nat.le_of_not_lt hlong)]
      cases command text with
      | none => exact if_pos hrefused
      | some asked =>
        have hret : ¬(text.length : Int) < 0 := by omega
        refine (if_neg hret).trans ?_
        show writeAll _ fuel asked (text.drop (text.length : Int).toNat) = asked
        rw [Int.toNat_natCast, List.drop_length]
        cases fuel <;> rfl

/-- On `led-subsystem.c` a text counts as a whole, or not at all. -/
theorem writeSubsystem_eq (level : Bool) (text : List Byte) :
    writeSubsystem level text =
      if text.length ≤ bufferSize - 1 then (command text).getD level else level := by
  by_cases hnil : text = []
  · rw [hnil]
    rfl
  · obtain ⟨fuel, hfuel⟩ := Nat.exists_eq_succ_of_ne_zero fun hzero =>
      hnil (List.eq_nil_of_length_eq_zero hzero)
    rw [← writeSubsystem_first fuel, writeSubsystem, hfuel]

/-- A text that both drivers understand alike while the LED is at this level. -/
def Alike (level : Bool) (text : List Byte) : Prop :=
  text.length ≤ bufferSize - 1 ∨
    (lastCommand (LineBuffer.blocks (bufferSize - 1) text)).getD level = level

instance (level : Bool) (text : List Byte) : Decidable (Alike level text) :=
  inferInstanceAs (Decidable (_ ∨ _))

theorem lastCommand_blocks_of_le {text : List Byte} (h : text.length ≤ bufferSize - 1) :
    lastCommand (LineBuffer.blocks (bufferSize - 1) text) = command text := by
  have hsize : bufferSize - 1 = 9 := rfl
  by_cases hshort : text.length < bufferSize - 1
  · rw [LineBuffer.blocks_short hshort]
    exact (lastCommand_cons text []).trans (Option.none_or ..)
  · rw [LineBuffer.blocks_long (by omega) (by omega), List.take_of_length_le h,
      List.drop_of_length_le h, lastCommand_cons]
    exact Option.none_or ..

theorem agree_iff {led : Led} {level : Bool} (h : led.gpio.lit = level) (text : List Byte) :
    (writeLed led text).gpio.lit = writeSubsystem level text ↔ Alike level text := by
  rw [writeLed_lit, writeSubsystem_eq, h, Alike]
  by_cases hle : text.length ≤ bufferSize - 1
  · rw [if_pos hle, lastCommand_blocks_of_le hle]
    exact iff_of_true rfl (Or.inl hle)
  · rw [if_neg hle]
    exact ⟨Or.inr, fun h => h.resolve_left hle⟩

/-- The same texts on both devices, one process after the other. -/
def bothStep (s : Led × Bool) (text : List Byte) : Option ((Led × Bool) × List Empty) :=
  some ((writeLed s.1 text, writeSubsystem s.2 text), [])

/-- Two LEDs at one level stay alike under the same texts exactly when each text fits the
buffer of nine bytes, or ends, cut in portions of nine, with the level that is there. -/
theorem drivers_agree_iff {led : Led} {level : Bool} {texts : List (List Byte)}
    {s : Led × Bool} {os : List Empty} (h : led.gpio.lit = level)
    (hrun : Machine.run bothStep (led, level) texts = some (s, os)) :
    Machine.Meets bothStep (fun s text => Alike s.2 text) (led, level) texts ↔
      Machine.Always bothStep (fun _ s => s.1.gpio.lit = s.2) (led, level) texts := by
  refine Machine.meets_iff_always h ?_ hrun
  intro os u text t os' hu hstep
  obtain ⟨rfl, -⟩ := Prod.mk.inj (Option.some.inj hstep)
  exact (agree_iff hu text).symm

/-- "off", and "turn it on": nothing for the one driver, and "on" for the other, whose second
portion begins with it. -/
theorem drivers_agree_iff_glued :
    ¬Machine.Always bothStep (fun _ s => s.1.gpio.lit = s.2)
      (ledInit ⟨0, 0⟩ fun _ => 0, true)
      [[0x6f, 0x66, 0x66], [0x74, 0x75, 0x72, 0x6e, 0x20, 0x69, 0x74, 0x3a, 0x20, 0x6f, 0x6e]] := by
  have hlit : (ledInit ⟨0, 0⟩ fun _ => 0).gpio.lit = true := gpioSet_lit _
  rw [← drivers_agree_iff hlit rfl]
  intro hmeets
  have halike := (hmeets.2 _ _ rfl).1
  revert halike
  rw [show (writeSubsystem true [0x6f, 0x66, 0x66]) = false from rfl]
  decide

end Drivers
end LinuxEmbedded
