import LinuxEmbedded.CharDev.Device

/-
The LED on pin 27, by the registers of the chip.

`led.c` maps the GPIO registers and writes them itself.  `GPSET0` and `GPCLR0` raise
and lower the pins whose bit is written as 1; `GPFSEL2` holds the functions of pins
20 to 29, three bits each.
-/
namespace LinuxEmbedded
namespace Drivers

open Framing (Byte)
open CharDev (Span copyFromUser)

/-! ## The registers -/

def gpfsel2 : Nat := 0x08
def gpset0 : Nat := 0x1C
def gpclr0 : Nat := 0x28
def gpio27 : Nat := 27
def fsel27Shift : Nat := 21
def output : BitVec 32 := 0x1

/-- The part of the chip the drivers use: one register, and the levels of pins 0 to 31. -/
structure Gpio where
  gpfsel2 : BitVec 32
  level : BitVec 32
  deriving DecidableEq, Repr

def readl (g : Gpio) (offset : Nat) : BitVec 32 := if offset = gpfsel2 then g.gpfsel2 else 0

def writel (g : Gpio) (val : BitVec 32) (offset : Nat) : Gpio :=
  if offset = gpfsel2 then { g with gpfsel2 := val }
  else if offset = gpset0 then { g with level := g.level ||| val }
  else if offset = gpclr0 then { g with level := g.level &&& ~~~val }
  else g

def gpioSetOutput (g : Gpio) : Gpio :=
  let val := readl g gpfsel2
  let val := val &&& ~~~((7 : BitVec 32) <<< fsel27Shift)
  let val := val ||| (output <<< fsel27Shift)
  writel g val gpfsel2

def gpioSet (g : Gpio) : Gpio := writel g ((1 : BitVec 32) <<< gpio27) gpset0

def gpioClear (g : Gpio) : Gpio := writel g ((1 : BitVec 32) <<< gpio27) gpclr0

/-- The level of the pin of the LED. -/
def Gpio.lit (g : Gpio) : Bool := g.level.getLsbD gpio27

/-- Only the LED has changed: the other pins keep their levels and their functions. -/
def Gpio.SameButLed (g h : Gpio) : Prop :=
  (∀ i, i ≠ gpio27 → h.level.getLsbD i = g.level.getLsbD i) ∧
    ∀ i, (i < fsel27Shift ∨ fsel27Shift + 3 ≤ i) → h.gpfsel2.getLsbD i = g.gpfsel2.getLsbD i

/-- Pin 27 is an output. -/
def Gpio.Drives (g : Gpio) : Prop :=
  g.gpfsel2.getLsbD 21 = true ∧ g.gpfsel2.getLsbD 22 = false ∧ g.gpfsel2.getLsbD 23 = false

theorem getLsbD_one_shiftLeft (i : Nat) :
    ((1 : BitVec 32) <<< gpio27).getLsbD i = decide (i = gpio27) := by
  by_cases hi : i < 32
  · have hall : ∀ j : Fin 32, ((1 : BitVec 32) <<< gpio27).getLsbD j = decide (j.val = gpio27) := by
      decide
    exact hall ⟨i, hi⟩
  · rw [BitVec.getLsbD_of_ge _ _ (by omega)]
    have hne : i ≠ gpio27 := by
      show i ≠ 27
      omega
    rw [decide_eq_false hne]

theorem gpioSet_level (g : Gpio) (i : Nat) :
    (gpioSet g).level.getLsbD i = (g.level.getLsbD i || decide (i = gpio27)) := by
  show (g.level ||| (1 : BitVec 32) <<< gpio27).getLsbD i = _
  rw [BitVec.getLsbD_or, getLsbD_one_shiftLeft]

theorem gpioClear_level (g : Gpio) (i : Nat) :
    (gpioClear g).level.getLsbD i = (g.level.getLsbD i && decide (i ≠ gpio27)) := by
  show (g.level &&& ~~~((1 : BitVec 32) <<< gpio27)).getLsbD i = _
  rw [BitVec.getLsbD_and, BitVec.getLsbD_not, getLsbD_one_shiftLeft]
  by_cases hi : i < 32
  · rw [decide_eq_true hi, Bool.true_and, decide_not]
  · rw [BitVec.getLsbD_of_ge _ _ (by omega), Bool.false_and, Bool.false_and]

theorem gpioSet_lit (g : Gpio) : (gpioSet g).lit = true := by
  rw [Gpio.lit, gpioSet_level, decide_eq_true rfl, Bool.or_true]

theorem gpioClear_lit (g : Gpio) : (gpioClear g).lit = false := by
  rw [Gpio.lit, gpioClear_level, decide_eq_false (fun h => h rfl), Bool.and_false]

theorem Gpio.SameButLed.refl (g : Gpio) : g.SameButLed g := ⟨fun _ _ => rfl, fun _ _ => rfl⟩

theorem Gpio.SameButLed.trans {g h k : Gpio} (hgh : g.SameButLed h) (hhk : h.SameButLed k) :
    g.SameButLed k :=
  ⟨fun i hi => (hhk.1 i hi).trans (hgh.1 i hi), fun i hi => (hhk.2 i hi).trans (hgh.2 i hi)⟩

theorem sameButLed_gpioSet (g : Gpio) : g.SameButLed (gpioSet g) := by
  refine ⟨?_, fun _ _ => rfl⟩
  intro i hi
  rw [gpioSet_level, decide_eq_false hi, Bool.or_false]

theorem sameButLed_gpioClear (g : Gpio) : g.SameButLed (gpioClear g) := by
  refine ⟨?_, fun _ _ => rfl⟩
  intro i hi
  rw [gpioClear_level, decide_eq_true hi, Bool.and_true]

theorem gpioSetOutput_gpfsel2 (g : Gpio) (i : Nat) (hi : i < 32) :
    (gpioSetOutput g).gpfsel2.getLsbD i =
      if fsel27Shift ≤ i ∧ i < fsel27Shift + 3 then decide (i = fsel27Shift)
      else g.gpfsel2.getLsbD i := by
  have hmask : ∀ j : Fin 32, (~~~((7 : BitVec 32) <<< fsel27Shift)).getLsbD j =
      !decide (fsel27Shift ≤ j.val ∧ j.val < fsel27Shift + 3) := by
    decide
  have hout : ∀ j : Fin 32, (output <<< fsel27Shift).getLsbD j = decide (j.val = fsel27Shift) := by
    decide
  show (g.gpfsel2 &&& ~~~((7 : BitVec 32) <<< fsel27Shift) ||| output <<< fsel27Shift).getLsbD i = _
  rw [BitVec.getLsbD_or, BitVec.getLsbD_and, hmask ⟨i, hi⟩, hout ⟨i, hi⟩]
  by_cases hin : fsel27Shift ≤ i ∧ i < fsel27Shift + 3
  · rw [if_pos hin, decide_eq_true hin, Bool.not_true, Bool.and_false, Bool.false_or]
  · have hne : i ≠ fsel27Shift := by omega
    rw [if_neg hin, decide_eq_false hin, Bool.not_false, Bool.and_true, decide_eq_false hne,
      Bool.or_false]

theorem sameButLed_gpioSetOutput (g : Gpio) : g.SameButLed (gpioSetOutput g) := by
  refine ⟨fun _ _ => rfl, ?_⟩
  intro i hi
  by_cases hlt : i < 32
  · rw [gpioSetOutput_gpfsel2 g i hlt, if_neg (by omega)]
  · rw [BitVec.getLsbD_of_ge _ _ (by omega), BitVec.getLsbD_of_ge _ _ (by omega)]

theorem gpioSetOutput_drives (g : Gpio) : (gpioSetOutput g).Drives := by
  refine ⟨?_, ?_, ?_⟩
  · rw [gpioSetOutput_gpfsel2 g 21 (by decide)]
    rfl
  · rw [gpioSetOutput_gpfsel2 g 22 (by decide)]
    rfl
  · rw [gpioSetOutput_gpfsel2 g 23 (by decide)]
    rfl

/-! ## Commands -/

/-- Whether `strncmp` of the string at address `a` with a literal returns 0. -/
def strncmpEq (m : Nat → Byte) (a : Nat) : List Byte → Nat → Bool
  | _, 0 => true
  | [], _ + 1 => m a = 0
  | c :: cs, n + 1 => if m a = c then c = 0 || strncmpEq m (a + 1) cs n else false

/-- `"on"`. -/
def onText : List Byte := [0x6f, 0x6e]

/-- `"off"`. -/
def offText : List Byte := [0x6f, 0x66, 0x66]

/-- What a text asks for: the level of the LED, if it begins with a command. -/
def command (text : List Byte) : Option Bool :=
  if onText <+: text then some true else if offText <+: text then some false else none

/-- The last command of some texts. -/
def lastCommand (texts : List (List Byte)) : Option Bool :=
  texts.foldl (fun last text => (command text).or last) none

/-- The literal has no zero byte, and the string ends with one. -/
theorem strncmpEq_iff {m : Nat → Byte} {literal text : List Byte} (a : Nat)
    (hliteral : ∀ c ∈ literal, c ≠ 0)
    (htext : ∀ i < text.length, m (a + i) = text.getD i 0) (hend : m (a + text.length) = 0) :
    strncmpEq m a literal literal.length = true ↔ literal <+: text := by
  induction literal generalizing a text with
  | nil => exact iff_of_true rfl List.nil_prefix
  | cons c cs ih =>
    obtain ⟨hc, hcs⟩ := List.forall_mem_cons.mp hliteral
    rw [List.length_cons, strncmpEq]
    cases text with
    | nil =>
      have hne : m a ≠ c := by
        rw [show m a = 0 from hend]
        exact hc.symm
      rw [if_neg hne]
      exact iff_of_false Bool.false_ne_true (by simp)
    | cons d ds =>
      have hd : m a = d := htext 0 (Nat.succ_pos _)
      rw [hd, List.cons_prefix_cons]
      by_cases he : d = c
      · rw [if_pos he, decide_eq_false hc, Bool.false_or, ih (a + 1) hcs]
        · exact ⟨fun h => ⟨he.symm, h⟩, fun h => h.2⟩
        · intro i hi
          have hnext := htext (i + 1) (Nat.succ_lt_succ hi)
          rw [show a + 1 + i = a + (i + 1) by omega, hnext]
          rfl
        · rw [show a + 1 + ds.length = a + (d :: ds).length by rw [List.length_cons]; omega]
          exact hend
      · rw [if_neg he]
        exact iff_of_false Bool.false_ne_true fun h => he h.1.symm

theorem lastCommand_nil : lastCommand [] = none := rfl

theorem lastCommand_snoc (texts : List (List Byte)) (text : List Byte) :
    lastCommand (texts ++ [text]) = (command text).or (lastCommand texts) := by
  rw [lastCommand, List.foldl_append]
  rfl

/-! ## `led.c` -/

def bufferSize : Nat := 10

/-- `-EFAULT`. -/
def efault : Int := -14

/-- `struct m_led_dev`, as far as the file operations use it, with the registers behind
`gpio_base`. -/
structure Led where
  gpio : Gpio
  buffer : Nat → Byte

/-- What a call of `m_write` returns, and the bytes of the buffer it wrote to. -/
structure WriteResult where
  ret : Int
  led : Led
  stores : List Span

/-- `m_write`; `user` are the readable bytes of the user buffer. -/
def mWrite (led : Led) (size : Nat) (user : List Byte) : WriteResult :=
  let toWrite := min size (bufferSize - 1)
  let cleared := Memory.fill led.buffer 0 bufferSize 0
  let copy := copyFromUser cleared 0 toWrite user
  if copy.2 ≠ 0 then
    { ret := efault, led := { led with buffer := copy.1 },
      stores := [⟨0, bufferSize⟩, ⟨0, toWrite⟩] }
  else
    let buffer := Memory.fill copy.1 toWrite 1 0
    let gpio :=
      if strncmpEq buffer 0 onText 2 then gpioSet led.gpio
      else if strncmpEq buffer 0 offText 3 then gpioClear led.gpio
      else led.gpio
    { ret := toWrite, led := { gpio, buffer },
      stores := [⟨0, bufferSize⟩, ⟨0, toWrite⟩, ⟨toWrite, 1⟩] }

/-- The part of `led_init` after `ioremap`. -/
def ledInit (gpio : Gpio) (buffer : Nat → Byte) : Led :=
  { gpio := gpioSet (gpioSetOutput gpio), buffer }

/-- The part of `led_exit` before `iounmap`. -/
def ledExit (led : Led) : Led := { led with gpio := gpioClear led.gpio }

/-- The text of a call, if it could be copied. -/
def received (size : Nat) (user : List Byte) : Option (List Byte) :=
  if min size (bufferSize - 1) ≤ user.length then some (user.take (min size (bufferSize - 1)))
  else none

/-- The LED after a call with this text. -/
def Gpio.apply (g : Gpio) : Option Bool → Gpio
  | some true => gpioSet g
  | some false => gpioClear g
  | none => g

/-- The string in the buffer after a text was copied. -/
theorem strncmpEq_copied (m : Nat → Byte) (text : List Byte) {literal : List Byte}
    (hliteral : ∀ c ∈ literal, c ≠ 0) :
    strncmpEq (Memory.fill (Memory.store m 0 text) text.length 1 0) 0 literal literal.length =
      true ↔ literal <+: text := by
  apply strncmpEq_iff 0 hliteral
  · intro i hi
    rw [Nat.zero_add, Memory.fill, if_neg (by omega), Memory.store, if_pos (Nat.zero_le i),
      Nat.sub_zero, List.getElem?_eq_getElem hi, List.getD_eq_getElem?_getD,
      List.getElem?_eq_getElem hi]
    rfl
  · rw [Nat.zero_add, Memory.fill, if_pos ⟨Nat.le_refl _, Nat.lt_succ_self _⟩]

/-- A call that can copy its text does what the text asks for. -/
theorem mWrite_received {led : Led} {size : Nat} {user text : List Byte}
    (h : received size user = some text) :
    (mWrite led size user).ret = text.length ∧
      (mWrite led size user).led.gpio = led.gpio.apply (command text) := by
  obtain ⟨hle, htext⟩ := Option.ite_none_right_eq_some.mp h
  have htext : user.take (min size (bufferSize - 1)) = text := Option.some.inj htext
  have hlength : text.length = min size (bufferSize - 1) := by
    rw [← htext]
    exact List.length_take_of_le hle
  have hcopied : ¬min size (bufferSize - 1) - user.length ≠ 0 := by omega
  refine ⟨(congrArg WriteResult.ret (if_neg hcopied)).trans (congrArg Int.ofNat hlength.symm), ?_⟩
  refine (congrArg (fun r : WriteResult => r.led.gpio) (if_neg hcopied)).trans ?_
  have hbuffer : (copyFromUser (Memory.fill led.buffer 0 bufferSize 0) 0
      (min size (bufferSize - 1)) user).1 =
      Memory.store (Memory.fill (Memory.fill led.buffer 0 bufferSize 0) 0 text.length 0) 0
        text := by
    rw [copyFromUser, htext, hlength]
  rw [hbuffer, ← hlength]
  have hon := strncmpEq_copied (Memory.fill (Memory.fill led.buffer 0 bufferSize 0) 0 text.length
    0) text (show ∀ c ∈ onText, c ≠ 0 by decide)
  have hoff := strncmpEq_copied (Memory.fill (Memory.fill led.buffer 0 bufferSize 0) 0 text.length
    0) text (show ∀ c ∈ offText, c ≠ 0 by decide)
  generalize Memory.fill (Memory.store (Memory.fill (Memory.fill led.buffer 0 bufferSize 0) 0
    text.length 0) 0 text) text.length 1 0 = buffer at hon hoff ⊢
  have hon : strncmpEq buffer 0 onText 2 = true ↔ onText <+: text := hon
  have hoff : strncmpEq buffer 0 offText 3 = true ↔ offText <+: text := hoff
  show (if strncmpEq buffer 0 onText 2 = true then gpioSet led.gpio
    else if strncmpEq buffer 0 offText 3 = true then gpioClear led.gpio else led.gpio) = _
  rw [command]
  by_cases honText : onText <+: text
  · rw [if_pos (hon.mpr honText), if_pos honText]
    rfl
  · rw [if_neg (fun he => honText (hon.mp he)), if_neg honText]
    by_cases hoffText : offText <+: text
    · rw [if_pos (hoff.mpr hoffText), if_pos hoffText]
      rfl
    · rw [if_neg (fun he => hoffText (hoff.mp he)), if_neg hoffText]
      rfl

theorem mWrite_fault {led : Led} {size : Nat} {user : List Byte}
    (h : received size user = none) :
    (mWrite led size user).ret = efault ∧ (mWrite led size user).led.gpio = led.gpio := by
  have hlt : ¬min size (bufferSize - 1) ≤ user.length := by
    intro hle
    rw [received, if_pos hle] at h
    cases h
  have hcopied : min size (bufferSize - 1) - user.length ≠ 0 := by omega
  exact ⟨congrArg WriteResult.ret (if_pos hcopied),
    congrArg (fun r : WriteResult => r.led.gpio) (if_pos hcopied)⟩

theorem mWrite_stores (led : Led) (size : Nat) (user : List Byte) :
    ∀ r ∈ (mWrite led size user).stores, r.start + r.count ≤ bufferSize := by
  have hmin : min size (bufferSize - 1) ≤ bufferSize - 1 := Nat.min_le_right ..
  have hsize : bufferSize = 10 := rfl
  unfold mWrite
  dsimp only
  split
  · intro r hr
    simp only [List.mem_cons, List.not_mem_nil, or_false] at hr
    rcases hr with rfl | rfl <;> dsimp only <;> omega
  · intro r hr
    simp only [List.mem_cons, List.not_mem_nil, or_false] at hr
    rcases hr with rfl | rfl | rfl <;> dsimp only <;> omega

/-! ## Runs -/

/-- A call of `write` by any process. -/
structure LedCall where
  size : Nat
  user : List Byte
  deriving DecidableEq, Repr

structure LedEvent where
  ret : Int
  stores : List Span
  deriving DecidableEq, Repr

def ledStep (led : Led) (call : LedCall) : Option (Led × List LedEvent) :=
  let result := mWrite led call.size call.user
  some (result.led, [⟨result.ret, result.stores⟩])

/-- The texts that reached the buffer. -/
def texts (calls : List LedCall) : List (List Byte) :=
  calls.filterMap fun call => received call.size call.user

theorem texts_snoc (calls : List LedCall) (call : LedCall) :
    texts (calls ++ [call]) = texts calls ++ (received call.size call.user).toList := by
  rw [texts, List.filterMap_append]
  cases h : received call.size call.user with
  | none => simp [texts, h]
  | some text => simp [texts, h]

theorem Gpio.apply_lit (g : Gpio) (asked : Option Bool) :
    (g.apply asked).lit = asked.getD g.lit := by
  cases asked with
  | none => rfl
  | some level =>
    cases level with
    | true => exact gpioSet_lit g
    | false => exact gpioClear_lit g

theorem Gpio.sameButLed_apply (g : Gpio) (asked : Option Bool) :
    g.SameButLed (g.apply asked) ∧ (g.apply asked).gpfsel2 = g.gpfsel2 := by
  cases asked with
  | none => exact ⟨.refl g, rfl⟩
  | some level =>
    cases level with
    | true => exact ⟨sameButLed_gpioSet g, rfl⟩
    | false => exact ⟨sameButLed_gpioClear g, rfl⟩

/-- What a call does to the registers. -/
theorem mWrite_gpio (led : Led) (size : Nat) (user : List Byte) :
    (mWrite led size user).led.gpio =
      led.gpio.apply ((received size user).bind command) := by
  cases h : received size user with
  | none => exact (mWrite_fault h).2
  | some text => exact (mWrite_received h).2

theorem getD_or (a b : Option Bool) (c : Bool) : (a.or b).getD c = a.getD (b.getD c) := by
  cases a <;> rfl

/-- What holds after every run of calls. -/
structure FollowsCommands (g : Gpio) (calls : List LedCall) (led : Led) : Prop where
  lit : led.gpio.lit = (lastCommand (texts calls)).getD true
  same : g.SameButLed led.gpio
  drives : led.gpio.Drives

theorem followsCommands_start (g : Gpio) (buffer : Nat → Byte) :
    FollowsCommands g [] (ledInit g buffer) := by
  constructor
  · show (gpioSet (gpioSetOutput g)).lit = true
    exact gpioSet_lit (gpioSetOutput g)
  · show g.SameButLed (gpioSet (gpioSetOutput g))
    exact (sameButLed_gpioSetOutput g).trans (sameButLed_gpioSet (gpioSetOutput g))
  · show (gpioSetOutput g).Drives
    exact gpioSetOutput_drives g

theorem followsCommands_step {g : Gpio} {calls : List LedCall} {led : Led}
    (h : FollowsCommands g calls led) (call : LedCall) :
    FollowsCommands g (calls ++ [call]) (mWrite led call.size call.user).led := by
  have hgpio := mWrite_gpio led call.size call.user
  obtain ⟨hsame, hfsel⟩ :=
    led.gpio.sameButLed_apply ((received call.size call.user).bind command)
  constructor
  · rw [hgpio, Gpio.apply_lit, h.lit, texts_snoc]
    cases hr : received call.size call.user with
    | none =>
      rw [Option.toList_none, List.append_nil]
      rfl
    | some text =>
      rw [Option.toList_some, lastCommand_snoc, getD_or]
      rfl
  · rw [hgpio]
    exact h.same.trans hsame
  · rw [hgpio, Gpio.Drives, hfsel]
    exact h.drives

end Drivers
end LinuxEmbedded
