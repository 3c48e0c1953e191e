import LinuxEmbedded.Lib.Framing
import LinuxEmbedded.Lib.Machine
import LinuxEmbedded.Lib.Memory

/-
The character device `m_cdev`.

`size_t`, `loff_t` and `ssize_t` are 64 bits wide and `mdev.size` is 32; a
conversion is the one C makes, and a comparison with a `size_t` on either side
is unsigned.  An address of kernel memory is counted from `mdev.kmalloc_ptr`.
-/
namespace LinuxEmbedded
namespace CharDev

open Framing (Byte)

def nPages : Nat := 1

/-- `PAGE_SIZE`.  The bytes of the buffer have to fit the `int32_t` counting them. -/
structure PageSize where
  bytes : Nat
  pos : 0 < bytes
  fits : nPages * bytes < 2 ^ 31

/-- `NPAGES * PAGE_SIZE`. -/
def PageSize.buffer (P : PageSize) : Nat := nPages * P.bytes

theorem PageSize.buffer_lt (P : PageSize) : P.buffer < 2 ^ 31 := P.fits

abbrev SizeT := BitVec 64

abbrev Loff := BitVec 64

abbrev Ssize := BitVec 64

/-- `MAX_RW_COUNT`, the largest size the VFS passes on. -/
def maxRwCount : Nat := 0x7ffff000

/-- `-EFAULT`. -/
def efault : Ssize := -14

/-- `struct m_foo_dev`, as far as the file operations use it. -/
structure Mdev where
  size : BitVec 32
  kmallocPtr : Nat → Byte

/-! ## The copies

The user buffer is given by what of it can be accessed.  Both functions return
the bytes that could not be copied. -/

/-- `copy_to_user`, `reach` bytes of the user buffer being writable: the bytes
that arrive there, and the bytes left. -/
def copyToUser (memory : Nat → Byte) (src n reach : Nat) : List Byte × Nat :=
  (Memory.load memory src (min n reach), n - reach)

/-- `copy_from_user`, `user` being the readable bytes of the user buffer.  What
cannot be copied is padded with zero bytes. -/
def copyFromUser (memory : Nat → Byte) (dst n : Nat) (user : List Byte) :
    (Nat → Byte) × Nat :=
  (Memory.store (Memory.fill memory dst n 0) dst (user.take n), n - user.length)

/-! ## The file operations -/

def toRead (mdev : Mdev) (size : SizeT) (offset : Loff) : SizeT :=
  if mdev.size.signExtend 64 - offset < size then mdev.size.signExtend 64 - offset else size

def toWrite (P : PageSize) (size : SizeT) (offset : Loff) : SizeT :=
  if BitVec.ofNat 64 P.buffer < size + offset then BitVec.ofNat 64 P.buffer - offset else size

/-- A call of `m_read`: its result, the file's offset after it, and the bytes it
copied, which lie at `start` and after. -/
structure ReadCall where
  ret : Ssize
  offset : Loff
  start : Nat
  data : List Byte

def mRead (mdev : Mdev) (size : SizeT) (offset : Loff) (reach : Nat) : ReadCall :=
  let n := toRead mdev size offset
  let copy := copyToUser mdev.kmallocPtr offset.toNat n.toNat reach
  if copy.2 ≠ 0 then { ret := efault, offset, start := offset.toNat, data := copy.1 }
  else { ret := n, offset := offset + n, start := offset.toNat, data := copy.1 }

/-- The bytes from `start` on, `count` of them. -/
structure Span where
  start : Nat
  count : Nat
  deriving DecidableEq, Repr

/-- A call of `m_write`: its result, the device and the file's offset after it,
the bytes of the kernel buffer it wrote to and what the user's part of them is. -/
structure WriteCall where
  ret : Ssize
  mdev : Mdev
  offset : Loff
  stores : List Span
  data : List Byte

def mWrite (P : PageSize) (mdev : Mdev) (size : SizeT) (offset : Loff) (user : List Byte) :
    WriteCall :=
  let n := toWrite P size offset
  let cleared := Memory.fill mdev.kmallocPtr 0 P.buffer 0
  let copy := copyFromUser cleared offset.toNat n.toNat user
  let stores := [⟨0, P.buffer⟩, ⟨offset.toNat, n.toNat⟩]
  let data := user.take n.toNat
  if copy.2 ≠ 0 then
    { ret := efault, mdev := { mdev with kmallocPtr := copy.1 }, offset, stores, data }
  else
    { ret := n, mdev := { size := (offset + n).setWidth 32, kmallocPtr := copy.1 },
      offset := offset + n, stores, data }

/-! ## What the file operations compute -/

theorem toNat_signExtend {size : BitVec 32} (h : size.toNat < 2 ^ 31) :
    (size.signExtend 64).toNat = size.toNat := by
  have hmsb : size.msb = false := by
    rw [BitVec.msb_eq_decide, decide_eq_false_iff_not]
    omega
  rw [BitVec.signExtend_eq_setWidth_of_msb_false hmsb, BitVec.toNat_setWidth]
  omega

/-- At or before the end of the data, the request is clamped to what is left. -/
theorem toNat_toRead {mdev : Mdev} (size : SizeT) {offset : Loff}
    (hsize : mdev.size.toNat < 2 ^ 31) (h : offset.toNat ≤ mdev.size.toNat) :
    (toRead mdev size offset).toNat = min size.toNat (mdev.size.toNat - offset.toNat) := by
  have hleft : (mdev.size.signExtend 64 - offset).toNat = mdev.size.toNat - offset.toNat := by
    rw [BitVec.toNat_sub_of_le (by rw [BitVec.le_def, toNat_signExtend hsize]; exact h),
      toNat_signExtend hsize]
  unfold toRead
  by_cases hlt : mdev.size.signExtend 64 - offset < size
  · rw [if_pos hlt, hleft]
    rw [BitVec.lt_def, hleft] at hlt
    omega
  · rw [if_neg hlt]
    rw [BitVec.lt_def, hleft] at hlt
    omega

/-- Past the end of the data, the remainder wraps and nothing is clamped. -/
theorem toRead_past {mdev : Mdev} {size : SizeT} {offset : Loff}
    (hsize : mdev.size.toNat < 2 ^ 31) (hpast : mdev.size.toNat < offset.toNat)
    (hoffset : offset.toNat < 2 ^ 63) (hcount : size.toNat ≤ maxRwCount) :
    toRead mdev size offset = size := by
  have hleft : (mdev.size.signExtend 64 - offset).toNat =
      2 ^ 64 - (offset.toNat - mdev.size.toNat) := by
    rw [BitVec.toNat_sub, toNat_signExtend hsize]
    omega
  refine if_neg ?_
  rw [BitVec.lt_def, hleft]
  have hmax : maxRwCount < 2 ^ 31 := by decide
  omega

theorem toNat_toWrite {P : PageSize} {size : SizeT} {offset : Loff}
    (hoffset : offset.toNat ≤ P.buffer) (hcount : size.toNat ≤ maxRwCount) :
    (toWrite P size offset).toNat = min size.toNat (P.buffer - offset.toNat) := by
  have hbuffer := P.buffer_lt
  have hmax : maxRwCount < 2 ^ 31 := by decide
  have hroom : (BitVec.ofNat 64 P.buffer).toNat = P.buffer := by
    rw [BitVec.toNat_ofNat]
    omega
  have hsum : (size + offset).toNat = size.toNat + offset.toNat := by
    rw [BitVec.toNat_add]
    omega
  unfold toWrite
  by_cases hlt : BitVec.ofNat 64 P.buffer < size + offset
  · rw [if_pos hlt, BitVec.toNat_sub_of_le (by rw [BitVec.le_def, hroom]; exact hoffset), hroom]
    rw [BitVec.lt_def, hroom, hsum] at hlt
    omega
  · rw [if_neg hlt]
    rw [BitVec.lt_def, hroom, hsum] at hlt
    omega

section Calls

variable (mdev : Mdev) (size : SizeT) (offset : Loff)

@[simp] theorem mRead_start (reach : Nat) :
    (mRead mdev size offset reach).start = offset.toNat := by
  dsimp only [mRead]
  split <;> rfl

@[simp] theorem mRead_data (reach : Nat) : (mRead mdev size offset reach).data =
    Memory.load mdev.kmallocPtr offset.toNat (min (toRead mdev size offset).toNat reach) := by
  dsimp only [mRead]
  split <;> rfl

theorem mRead_succeeds {reach : Nat} (h : (toRead mdev size offset).toNat ≤ reach) :
    (mRead mdev size offset reach).ret = toRead mdev size offset ∧
      (mRead mdev size offset reach).offset = offset + toRead mdev size offset := by
  have hleft : ¬ (toRead mdev size offset).toNat - reach ≠ 0 := by omega
  exact ⟨congrArg ReadCall.ret (if_neg hleft), congrArg ReadCall.offset (if_neg hleft)⟩

theorem mRead_faults {reach : Nat} (h : reach < (toRead mdev size offset).toNat) :
    (mRead mdev size offset reach).ret = efault ∧
      (mRead mdev size offset reach).offset = offset := by
  have hleft : (toRead mdev size offset).toNat - reach ≠ 0 := by omega
  exact ⟨congrArg ReadCall.ret (if_pos hleft), congrArg ReadCall.offset (if_pos hleft)⟩

variable (P : PageSize) (user : List Byte)

@[simp] theorem mWrite_stores : (mWrite P mdev size offset user).stores =
    [⟨0, P.buffer⟩, ⟨offset.toNat, (toWrite P size offset).toNat⟩] := by
  dsimp only [mWrite]
  split <;> rfl

@[simp] theorem mWrite_data : (mWrite P mdev size offset user).data =
    user.take (toWrite P size offset).toNat := by
  dsimp only [mWrite]
  split <;> rfl

@[simp] theorem mWrite_kmallocPtr : (mWrite P mdev size offset user).mdev.kmallocPtr =
    Memory.store (Memory.fill (Memory.fill mdev.kmallocPtr 0 P.buffer 0) offset.toNat
      (toWrite P size offset).toNat 0) offset.toNat
      (user.take (toWrite P size offset).toNat) := by
  dsimp only [mWrite]
  split <;> rfl

variable {user}

theorem mWrite_succeeds (h : (toWrite P size offset).toNat ≤ user.length) :
    (mWrite P mdev size offset user).ret = toWrite P size offset ∧
      (mWrite P mdev size offset user).offset = offset + toWrite P size offset ∧
      (mWrite P mdev size offset user).mdev.size =
        (offset + toWrite P size offset).setWidth 32 := by
  have hleft : ¬ (toWrite P size offset).toNat - user.length ≠ 0 := by omega
  exact ⟨congrArg WriteCall.ret (if_neg hleft), congrArg WriteCall.offset (if_neg hleft),
    congrArg (fun call : WriteCall => call.mdev.size) (if_neg hleft)⟩

theorem mWrite_faults (h : user.length < (toWrite P size offset).toNat) :
    (mWrite P mdev size offset user).ret = efault ∧
      (mWrite P mdev size offset user).offset = offset ∧
      (mWrite P mdev size offset user).mdev.size = mdev.size := by
  have hleft : (toWrite P size offset).toNat - user.length ≠ 0 := by omega
  exact ⟨congrArg WriteCall.ret (if_pos hleft), congrArg WriteCall.offset (if_pos hleft),
    congrArg (fun call : WriteCall => call.mdev.size) (if_pos hleft)⟩

end Calls

/-! ## The open files -/

/-- The calls the VFS passes on. -/
def VfsPasses (offset : Loff) (size : SizeT) : Prop :=
  0 ≤ offset.toInt ∧ size.toNat ≤ maxRwCount

instance (offset : Loff) (size : SizeT) : Decidable (VfsPasses offset size) :=
  inferInstanceAs (Decidable (_ ∧ _))

/-- The device and the offset of each file opened on it. -/
structure State where
  mdev : Mdev
  files : List Loff

/-- After `chdev_init`; `kmalloc` leaves the buffer as it finds it. -/
def initial (memory : Nat → Byte) : State :=
  { mdev := { size := 0, kmallocPtr := memory }, files := [] }

inductive Act where
  | open
  | read (file : Nat) (size : SizeT) (reach : Nat)
  | write (file : Nat) (size : SizeT) (user : List Byte)
  deriving DecidableEq, Repr

inductive Event where
  | read (file : Nat) (ret : Ssize) (start : Nat) (data : List Byte)
  | wrote (file : Nat) (ret : Ssize) (stores : List Span) (data : List Byte)
  deriving DecidableEq, Repr

def step (P : PageSize) (s : State) : Act → Option (State × List Event)
  | .open => some ({ s with files := s.files ++ [0] }, [])
  | .read file size reach =>
    (s.files[file]?).bind fun offset =>
      if VfsPasses offset size then
        let call := mRead s.mdev size offset reach
        some ({ s with files := s.files.set file call.offset },
          [.read file call.ret call.start call.data])
      else none
  | .write file size user =>
    (s.files[file]?).bind fun offset =>
      if VfsPasses offset size then
        let call := mWrite P s.mdev size offset user
        some ({ mdev := call.mdev, files := s.files.set file call.offset },
          [.wrote file call.ret call.stores call.data])
      else none

/-- What a step does. -/
theorem step_cases {P : PageSize} {s t : State} {a : Act} {os : List Event}
    (h : step P s a = some (t, os)) :
    (a = .open ∧ t = { s with files := s.files ++ [0] } ∧ os = []) ∨
    (∃ file size reach offset, a = .read file size reach ∧ s.files[file]? = some offset ∧
      VfsPasses offset size ∧
      t = { s with files := s.files.set file (mRead s.mdev size offset reach).offset } ∧
      os = [.read file (mRead s.mdev size offset reach).ret
        (mRead s.mdev size offset reach).start (mRead s.mdev size offset reach).data]) ∨
    (∃ file size user offset, a = .write file size user ∧ s.files[file]? = some offset ∧
      VfsPasses offset size ∧
      t = { mdev := (mWrite P s.mdev size offset user).mdev,
            files := s.files.set file (mWrite P s.mdev size offset user).offset } ∧
      os = [.wrote file (mWrite P s.mdev size offset user).ret
        (mWrite P s.mdev size offset user).stores (mWrite P s.mdev size offset user).data]) := by
  cases a with
  | «open» =>
    obtain ⟨rfl, rfl⟩ := Prod.mk.inj (Option.some.inj h)
    exact Or.inl ⟨rfl, rfl, rfl⟩
  | read file size reach =>
    obtain ⟨offset, hfile, h⟩ := Option.bind_eq_some_iff.mp h
    by_cases hvfs : VfsPasses offset size
    · rw [if_pos hvfs] at h
      obtain ⟨rfl, rfl⟩ := Prod.mk.inj (Option.some.inj h)
      exact Or.inr (Or.inl ⟨file, size, reach, offset, rfl, hfile, hvfs, rfl, rfl⟩)
    · rw [if_neg hvfs] at h
      cases h
  | write file size user =>
    obtain ⟨offset, hfile, h⟩ := Option.bind_eq_some_iff.mp h
    by_cases hvfs : VfsPasses offset size
    · rw [if_pos hvfs] at h
      obtain ⟨rfl, rfl⟩ := Prod.mk.inj (Option.some.inj h)
      exact Or.inr (Or.inr ⟨file, size, user, offset, rfl, hfile, hvfs, rfl, rfl⟩)
    · rw [if_neg hvfs] at h
      cases h

end CharDev
end LinuxEmbedded
