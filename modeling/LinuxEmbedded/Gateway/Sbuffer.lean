import LinuxEmbedded.Gateway.Common
import LinuxEmbedded.Lib.Ring

/-
The ring buffer of the gateway, `sbuffer.c`.

The functions below are the bodies between `pthread_mutex_lock` and
`pthread_mutex_unlock`, with the outcome of every pthread call an argument.
`none` is undefined behaviour.
-/
namespace LinuxEmbedded
namespace Gateway

variable {T : Type}

/-- `sbuffer_t`.  The mutex and the conditions belong to the threads that use
them and are not part of the record. -/
structure Sbuffer (T : Type) where
  buffer : List (SensorData T)
  size : Nat
  head : Nat
  tail : Nat
  count : Nat
  deriving DecidableEq, Repr

structure InitCalls where
  mutexInit : Bool
  notFullInit : Bool
  notEmptyInit : Bool

def InitCalls.ok : InitCalls := ⟨true, true, true⟩

/-- `sbuffer_init`, where `block` is what `malloc` returned: an array of the
requested length with any contents, or `NULL`.  `none` is the return value -1. -/
def sbufferInit (calls : InitCalls) (size : Int) (block : Option (List (SensorData T))) :
    Option (Sbuffer T) :=
  if size ≤ 0 then none
  else
    match block with
    | none => none
    | some buffer =>
      if calls.mutexInit && calls.notFullInit && calls.notEmptyInit then
        some { buffer, size := size.toNat, head := 0, tail := 0, count := 0 }
      else none

/-- What `malloc` returned, when it is an array. -/
theorem length_of_allocated {buffer : List (SensorData T)} {N : Nat} (h : buffer.length = N) :
    ∀ b, some buffer = some b → b.length = N := by
  intro b hb
  cases hb
  exact h

/-- The overwrite branch of `sbuffer_push`.  The message names the sensor of the
record at the advanced tail. -/
def sbufferOverwrite (sb : Sbuffer T) : Option (Sbuffer T × List (Message T)) := do
  let tail ← cMod (sb.tail + 1) sb.size
  let sb := { sb with tail, count := sb.count - 1 }
  let record ← sb.buffer[sb.tail]?
  some (sb, [logEvent "Dropped oldest data from sensor %d due to buffer full"
    [.int record.sensorId.toInt]])

/-- The store at the head in `sbuffer_push`. -/
def sbufferStore (sb : Sbuffer T) (data : SensorData T) : Option (Sbuffer T) := do
  let buffer ← cStore sb.buffer sb.head data
  let head ← cMod (sb.head + 1) sb.size
  some { sb with buffer, head, count := sb.count + 1 }

/-- The part of `sbuffer_push` between the lock and the signal. -/
def sbufferPushBody (sb : Sbuffer T) (data : SensorData T) :
    Option (Sbuffer T × List (Message T)) := do
  let (sb, dropped) ← if sb.count = sb.size then sbufferOverwrite sb else some (sb, [])
  let sb ← sbufferStore sb data
  some (sb, dropped ++ [logEvent "Data pushed to buffer" []])

structure PushCalls where
  lock : Bool
  signal : Bool
  unlock : Bool

def PushCalls.ok : PushCalls := ⟨true, true, true⟩

/-- `sbuffer_push`: the return value, the buffer and the messages logged. -/
def sbufferPush (calls : PushCalls) (sb : Sbuffer T) (data : SensorData T) :
    Option (Int × Sbuffer T × List (Message T)) :=
  if !calls.lock then some (-1, sb, [])
  else do
    let (sb, logs) ← sbufferPushBody sb data
    if !calls.signal then some (-1, sb, logs)
    else if !calls.unlock then some (-1, sb, logs)
    else some (0, sb, logs)

/-- The removal at the tail in `sbuffer_pop`. -/
def sbufferTake (sb : Sbuffer T) : Option (SensorData T × Sbuffer T) := do
  let data ← sb.buffer[sb.tail]?
  let tail ← cMod (sb.tail + 1) sb.size
  some (data, { sb with tail, count := sb.count - 1 })

structure PopCalls where
  lock : Bool
  wait : Bool
  signal : Bool
  unlock : Bool

def PopCalls.ok : PopCalls := ⟨true, true, true, true⟩

/-- How a thread inside `sbuffer_pop` leaves the mutex: asleep in
`pthread_cond_wait`, or returning with the value written to `*data`, if any. -/
inductive PopOutcome (T : Type) where
  | waits
  | returns (ret : Int) (data : Option (SensorData T))
  deriving DecidableEq, Repr

/-- `sbuffer_pop` from the test of its loop, with the mutex held, to the next
release of the mutex. -/
def sbufferPopSection (calls : PopCalls) (shutdownFlag : Bool) (sb : Sbuffer T) :
    Option (PopOutcome T × Sbuffer T × List (Message T)) :=
  if sb.count = 0 ∧ shutdownFlag = false then
    if !calls.wait then some (.returns (-1) none, sb, [])
    else some (.waits, sb, [])
  else if sb.count = 0 then some (.returns (-1) none, sb, [])
  else do
    let (data, sb) ← sbufferTake sb
    let logs := [logEvent "Data popped from buffer" []]
    if !calls.signal then some (.returns (-1) (some data), sb, logs)
    else if !calls.unlock then some (.returns (-1) (some data), sb, logs)
    else some (.returns 0 (some data), sb, logs)

/-- `sbuffer_pop` up to its first release of the mutex. -/
def sbufferPop (calls : PopCalls) (shutdownFlag : Bool) (sb : Sbuffer T) :
    Option (PopOutcome T × Sbuffer T × List (Message T)) :=
  if !calls.lock then some (.returns (-1) none, sb, [])
  else sbufferPopSection calls shutdownFlag sb

structure CountCalls where
  lock : Bool
  unlock : Bool

def CountCalls.ok : CountCalls := ⟨true, true⟩

/-- `sbuffer_count`: the return value and the value written to `*bufferCount`. -/
def sbufferCount (calls : CountCalls) (sb : Sbuffer T) : Int × Option Nat :=
  if !calls.lock then (-1, none)
  else if !calls.unlock then (-1, some sb.count)
  else (0, some sb.count)

/-! ## The stored queue -/

namespace Sbuffer

/-- The stored records in the order they will be popped. -/
def queue (sb : Sbuffer T) : List (SensorData T) := Ring.window sb.buffer sb.tail sb.count

/-- The three cursors agree and stay inside the array. -/
structure Inv (sb : Sbuffer T) : Prop where
  size_pos : 0 < sb.size
  length_eq : sb.buffer.length = sb.size
  head_lt : sb.head < sb.size
  tail_lt : sb.tail < sb.size
  count_le : sb.count ≤ sb.size
  head_eq : sb.head = (sb.tail + sb.count) % sb.size

theorem Inv.length_pos {sb : Sbuffer T} (h : sb.Inv) : 0 < sb.buffer.length :=
  h.length_eq ▸ h.size_pos

theorem queue_length {sb : Sbuffer T} (h : sb.Inv) : sb.queue.length = sb.count :=
  Ring.window_length h.length_pos

end Sbuffer

namespace Sbuffer

/-! ## The cursors after each operation -/

/-- The record after a push that found room. -/
def pushRoom (sb : Sbuffer T) (data : SensorData T) : Sbuffer T :=
  { sb with
    buffer := sb.buffer.set sb.head data
    head := (sb.head + 1) % sb.size
    count := sb.count + 1 }

/-- The record after a push that overwrote the oldest record. -/
def pushFull (sb : Sbuffer T) (data : SensorData T) : Sbuffer T :=
  { sb with
    buffer := sb.buffer.set sb.head data
    head := (sb.head + 1) % sb.size
    tail := (sb.tail + 1) % sb.size }

def takeTail (sb : Sbuffer T) : Sbuffer T :=
  { sb with tail := (sb.tail + 1) % sb.size, count := sb.count - 1 }

theorem sbufferPushBody_of_room {sb : Sbuffer T} (h : sb.Inv) (hc : sb.count < sb.size)
    (data : SensorData T) :
    sbufferPushBody sb data =
      some (sb.pushRoom data, [logEvent "Data pushed to buffer" []]) := by
  have hhead : sb.head < sb.buffer.length := h.length_eq ▸ h.head_lt
  have hne : sb.count ≠ sb.size := Nat.ne_of_lt hc
  simp [sbufferPushBody, sbufferStore, hne, cStore_of_lt hhead, cMod_of_pos h.size_pos,
    pushRoom]

theorem sbufferPushBody_of_full {sb : Sbuffer T} (h : sb.Inv) (hc : sb.count = sb.size)
    (data : SensorData T) :
    ∃ record, sb.buffer[(sb.tail + 1) % sb.size]? = some record ∧
      sbufferPushBody sb data =
        some (sb.pushFull data,
          [logEvent "Dropped oldest data from sensor %d due to buffer full"
            [.int record.sensorId.toInt], logEvent "Data pushed to buffer" []]) := by
  have hhead : sb.head < sb.buffer.length := h.length_eq ▸ h.head_lt
  have htail : (sb.tail + 1) % sb.size < sb.buffer.length := by
    rw [h.length_eq]
    exact Nat.mod_lt _ h.size_pos
  have hpos := h.size_pos
  refine ⟨sb.buffer[(sb.tail + 1) % sb.size], List.getElem?_eq_getElem htail, ?_⟩
  have hcount : sb.size - 1 + 1 = sb.size := by omega
  simp [sbufferPushBody, sbufferOverwrite, sbufferStore, hc, cStore_of_lt hhead,
    cMod_of_pos h.size_pos, List.getElem?_eq_getElem htail, pushFull, hcount]

theorem sbufferTake_of_pos {sb : Sbuffer T} (h : sb.Inv) :
    ∃ data, sb.buffer[sb.tail]? = some data ∧ sbufferTake sb = some (data, sb.takeTail) := by
  have htail : sb.tail < sb.buffer.length := h.length_eq ▸ h.tail_lt
  refine ⟨sb.buffer[sb.tail], List.getElem?_eq_getElem htail, ?_⟩
  simp [sbufferTake, List.getElem?_eq_getElem htail, cMod_of_pos h.size_pos, takeTail]

theorem Inv.pushRoom {sb : Sbuffer T} (h : sb.Inv) (hc : sb.count < sb.size)
    (data : SensorData T) : (sb.pushRoom data).Inv where
  size_pos := h.size_pos
  length_eq := by simp [Sbuffer.pushRoom, h.length_eq]
  head_lt := Nat.mod_lt _ h.size_pos
  tail_lt := h.tail_lt
  count_le := hc
  head_eq := by
    show (sb.head + 1) % sb.size = (sb.tail + (sb.count + 1)) % sb.size
    rw [h.head_eq, Nat.mod_add_mod, Nat.add_assoc]

theorem Inv.pushFull {sb : Sbuffer T} (h : sb.Inv) (data : SensorData T) :
    (sb.pushFull data).Inv where
  size_pos := h.size_pos
  length_eq := by simp [Sbuffer.pushFull, h.length_eq]
  head_lt := Nat.mod_lt _ h.size_pos
  tail_lt := Nat.mod_lt _ h.size_pos
  count_le := h.count_le
  head_eq := by
    show (sb.head + 1) % sb.size = ((sb.tail + 1) % sb.size + sb.count) % sb.size
    rw [h.head_eq, Nat.mod_add_mod, Nat.mod_add_mod]
    congr 1
    omega

theorem Inv.takeTail {sb : Sbuffer T} (h : sb.Inv) (hc : sb.count ≠ 0) : sb.takeTail.Inv where
  size_pos := h.size_pos
  length_eq := h.length_eq
  head_lt := h.head_lt
  tail_lt := Nat.mod_lt _ h.size_pos
  count_le := Nat.le_trans (Nat.sub_le _ _) h.count_le
  head_eq := by
    show sb.head = ((sb.tail + 1) % sb.size + (sb.count - 1)) % sb.size
    rw [h.head_eq, Nat.mod_add_mod]
    congr 1
    omega

/-- A pop on a consistent buffer. -/
theorem sbufferPop_cases {sb : Sbuffer T} (h : sb.Inv) (shutdownFlag : Bool) :
    (sb.count = 0 ∧ shutdownFlag = false ∧
      sbufferPop .ok shutdownFlag sb = some (.waits, sb, [])) ∨
    (sb.count = 0 ∧ shutdownFlag = true ∧
      sbufferPop .ok shutdownFlag sb = some (.returns (-1) none, sb, [])) ∨
    (sb.count ≠ 0 ∧ ∃ data, sb.buffer[sb.tail]? = some data ∧
      sbufferPop .ok shutdownFlag sb =
        some (.returns 0 (some data), sb.takeTail, [logEvent "Data popped from buffer" []])) := by
  by_cases hc : sb.count = 0
  · cases shutdownFlag
    · left
      simp [sbufferPop, sbufferPopSection, PopCalls.ok, hc]
    · right; left
      simp [sbufferPop, sbufferPopSection, PopCalls.ok, hc]
  · right; right
    obtain ⟨data, hdata, htake⟩ := sbufferTake_of_pos h
    refine ⟨hc, data, hdata, ?_⟩
    simp [sbufferPop, sbufferPopSection, PopCalls.ok, hc, htake]

theorem sbufferInit_inv {N : Nat} {sb : Sbuffer T} (hN : 1 ≤ N)
    {block : Option (List (SensorData T))} (hblock : ∀ b, block = some b → b.length = N)
    (hinit : sbufferInit .ok (N : Int) block = some sb) :
    sb.Inv ∧ sb.size = N ∧ sb.count = 0 := by
  have hpos : ¬((N : Int) ≤ 0) := by omega
  unfold sbufferInit at hinit
  rw [if_neg hpos] at hinit
  cases block with
  | none => cases hinit
  | some buffer =>
    have hlen := hblock buffer rfl
    rw [← Option.some.inj hinit]
    refine ⟨⟨?_, ?_, ?_, ?_, ?_, ?_⟩, Int.toNat_natCast N, rfl⟩
    · show 0 < (N : Int).toNat
      omega
    · show buffer.length = (N : Int).toNat
      omega
    · show 0 < (N : Int).toNat
      omega
    · show 0 < (N : Int).toNat
      omega
    · exact Nat.zero_le _
    · exact (Nat.zero_mod _).symm

/-! ## Arrays written together with the buffer

A list as long as the buffer and written at the same index shows the same window
moves.  The buffer itself is one such list, and a ghost array of push numbers is
another. -/

variable {α : Type} {sb : Sbuffer T} {cells : List α}

theorem Inv.window_pushRoom (h : sb.Inv) (hc : sb.count < sb.size)
    (hlen : cells.length = sb.size) (x : α) :
    Ring.window (cells.set sb.head x) sb.tail (sb.count + 1) =
      Ring.window cells sb.tail sb.count ++ [x] := by
  rw [h.head_eq, ← hlen]
  exact Ring.window_set_next x (hlen ▸ hc)

theorem Inv.window_take (h : sb.Inv) (hc : sb.count ≠ 0) (hlen : cells.length = sb.size)
    {x : α} (hx : cells[sb.tail]? = some x) :
    Ring.window cells sb.tail sb.count =
      x :: Ring.window cells ((sb.tail + 1) % sb.size) (sb.count - 1) := by
  have hmod : sb.tail % cells.length = sb.tail := by
    rw [hlen, Nat.mod_eq_of_lt h.tail_lt]
  obtain ⟨n, hn⟩ := Nat.exists_eq_succ_of_ne_zero hc
  rw [hn, Ring.window_succ (by rw [hmod]; exact hx), hlen]
  rfl

theorem Inv.window_pushFull (h : sb.Inv) (hc : sb.count = sb.size)
    (hlen : cells.length = sb.size) (x : α) :
    Ring.window (cells.set sb.head x) ((sb.tail + 1) % sb.size) sb.count =
      Ring.window cells ((sb.tail + 1) % sb.size) (sb.count - 1) ++ [x] := by
  have hpos := h.size_pos
  have hhead : sb.head = ((sb.tail + 1) % sb.size + (sb.count - 1)) % cells.length := by
    rw [hlen, h.head_eq, Nat.mod_add_mod]
    congr 1
    omega
  have hcount : sb.count = sb.count - 1 + 1 := by omega
  rw [hhead]
  conv_lhs => rw [hcount]
  exact Ring.window_set_next x (by omega)

end Sbuffer

end Gateway
end LinuxEmbedded
