import Mathlib.Algebra.Group.Nat.Defs
import Mathlib.Data.List.Basic
import Mathlib.Data.List.Infix

/-
Records of one size on a byte stream.

A record is written as a block of bytes of constant length.  The stream is cut
into segments by somebody else.  Decoding each segment on its own gives back the
records exactly when no segment is short.
-/
namespace LinuxEmbedded
namespace Framing

abbrev Byte := BitVec 8

/-! ## Little-endian numbers -/

/-- The `width` low bytes of a number, least significant first. -/
def toBytes : Nat → Nat → List Byte
  | 0, _ => []
  | width + 1, n => BitVec.ofNat 8 n :: toBytes width (n / 256)

def ofBytes : List Byte → Nat
  | [] => 0
  | b :: bs => b.toNat + 256 * ofBytes bs

theorem toBytes_length (width n : Nat) : (toBytes width n).length = width := by
  induction width generalizing n with
  | zero => rfl
  | succ width ih =>
    show (toBytes width (n / 256)).length + 1 = width + 1
    rw [ih]

theorem ofBytes_toBytes (width n : Nat) : ofBytes (toBytes width n) = n % 256 ^ width := by
  induction width generalizing n with
  | zero =>
    show 0 = n % 1
    omega
  | succ width ih =>
    show (BitVec.ofNat 8 n).toNat + 256 * ofBytes (toBytes width (n / 256)) = _
    rw [ih, BitVec.toNat_ofNat]
    show n % 256 + 256 * (n / 256 % 256 ^ width) = n % 256 ^ (width + 1)
    rw [Nat.pow_succ', Nat.mod_mul]

/-- The memory image of a word. -/
theorem ofNat_ofBytes_toBytes (width : Nat) (w : BitVec (8 * width)) :
    BitVec.ofNat (8 * width) (ofBytes (toBytes width w.toNat)) = w := by
  have hlt := w.isLt
  have hpow : 256 ^ width = 2 ^ (8 * width) := by
    rw [Nat.pow_mul]
  rw [ofBytes_toBytes, hpow, Nat.mod_eq_of_lt hlt, BitVec.ofNat_toNat, BitVec.setWidth_eq]

/-! ## Segments -/

/-- A code of constant length. -/
structure Codec (α : Type) where
  size : Nat
  encode : α → List Byte
  decode : List Byte → α
  size_pos : 0 < size
  encode_length : ∀ a, (encode a).length = size
  decode_encode : ∀ a, decode (encode a) = a

namespace Codec

variable {α : Type} (c : Codec α)

/-- The bytes written for a list of records. -/
def stream (records : List α) : List Byte := (records.map c.encode).flatten

/-- The records whose bytes are all among the first `n` of the stream. -/
def arrived (records : List α) (n : Nat) : List α := records.take (n / c.size)

/-- With all segments full, their number is the number of records that arrived. -/
theorem flatten_length_of_full {segments : List (List Byte)}
    (h : ∀ s ∈ segments, s.length = c.size) :
    segments.flatten.length = c.size * segments.length := by
  induction segments with
  | nil => rfl
  | cons s segments ih =>
    have hs := h s (List.mem_cons_self ..)
    have ih := ih fun s' hs' => h s' (List.mem_cons_of_mem s hs')
    rw [List.flatten_cons, List.length_append, List.length_cons, Nat.mul_succ, ih, hs]
    omega

theorem stream_length (records : List α) :
    (c.stream records).length = c.size * records.length := by
  have hfull : ∀ s ∈ records.map c.encode, s.length = c.size := by
    intro s hs
    obtain ⟨a, _, ha⟩ := List.mem_map.mp hs
    rw [← ha]
    exact c.encode_length a
  rw [stream, c.flatten_length_of_full hfull, List.length_map]

/-- Full segments are decoded one record each. -/
theorem decode_of_full {segments : List (List Byte)} {records : List α}
    (hfull : ∀ s ∈ segments, s.length = c.size)
    (hstream : segments.flatten <+: c.stream records) :
    segments.map c.decode = records.take segments.length := by
  induction segments generalizing records with
  | nil => rfl
  | cons s segments ih =>
    have hs := hfull s (List.mem_cons_self ..)
    have hpos := c.size_pos
    cases records with
    | nil =>
      -- nothing was written, so nothing can have been read
      have hle := hstream.length_le
      rw [List.flatten_cons, List.length_append, hs] at hle
      have hzero : (c.stream []).length = 0 := rfl
      omega
    | cons a records =>
      obtain ⟨rest, hrest⟩ := hstream
      have hsplit : s ++ (segments.flatten ++ rest) = c.encode a ++ c.stream records := by
        rw [← List.append_assoc]
        exact hrest
      obtain ⟨hhead, htail⟩ := List.append_inj hsplit (hs.trans (c.encode_length a).symm)
      have ih := ih (fun s' hs' => hfull s' (List.mem_cons_of_mem s hs')) ⟨rest, htail⟩
      rw [List.map_cons, List.length_cons, List.take_succ_cons, ih, hhead, c.decode_encode]

/-- Full segments do not reach into an incomplete record at the end. -/
theorem prefix_of_full {segments : List (List Byte)} {records : List α} {tail : List Byte}
    (hfull : ∀ s ∈ segments, s.length = c.size)
    (hstream : segments.flatten <+: c.stream records ++ tail) (htail : tail.length < c.size) :
    segments.flatten <+: c.stream records := by
  refine List.prefix_of_prefix_length_le hstream (List.prefix_append ..) ?_
  have hle := hstream.length_le
  rw [List.length_append, c.flatten_length_of_full hfull, c.stream_length] at hle
  rw [c.flatten_length_of_full hfull, c.stream_length]
  have hlt : segments.length < records.length + 1 := by
    apply Nat.lt_of_mul_lt_mul_left (a := c.size)
    rw [Nat.mul_succ]
    omega
  exact Nat.mul_le_mul_left _ (Nat.le_of_lt_succ hlt)

/-- A short segment is decoded too early: there are more segments than records that
have arrived. -/
theorem flatten_length_lt_of_short {segments : List (List Byte)}
    (hle : ∀ s ∈ segments, s.length ≤ c.size) (hshort : ¬∀ s ∈ segments, s.length = c.size) :
    segments.flatten.length < c.size * segments.length := by
  induction segments with
  | nil => exact absurd (fun s hs => absurd hs List.not_mem_nil) hshort
  | cons s segments ih =>
    have hs := hle s (List.mem_cons_self ..)
    have hrest : ∀ s' ∈ segments, s'.length ≤ c.size :=
      fun s' hs' => hle s' (List.mem_cons_of_mem s hs')
    rw [List.flatten_cons, List.length_append, List.length_cons, Nat.mul_succ]
    by_cases hfull : ∀ s' ∈ segments, s'.length = c.size
    · have hne : s.length ≠ c.size := by
        intro he
        apply hshort
        intro s' hs'
        rcases List.mem_cons.mp hs' with hs' | hs'
        · rw [hs', he]
        · exact hfull s' hs'
      have hflat := c.flatten_length_of_full hfull
      omega
    · have ih := ih hrest hfull
      omega

/-- Decoding segment by segment is right exactly when every segment is full. -/
theorem decode_eq_arrived_iff {segments : List (List Byte)} {records : List α}
    (decoded : List α) (hdecoded : decoded.length = segments.length)
    (hfulldec : (∀ s ∈ segments, s.length = c.size) → decoded = segments.map c.decode)
    (hle : ∀ s ∈ segments, s.length ≤ c.size)
    (hstream : segments.flatten <+: c.stream records) :
    decoded = c.arrived records segments.flatten.length ↔
      ∀ s ∈ segments, s.length = c.size := by
  have hpos := c.size_pos
  constructor
  · intro heq
    by_cases hfull : ∀ s ∈ segments, s.length = c.size
    · exact hfull
    · have hlt := c.flatten_length_lt_of_short hle hfull
      have hcount : decoded.length ≤ segments.flatten.length / c.size := by
        rw [heq, arrived, List.length_take]
        exact Nat.min_le_left _ _
      have hdiv : segments.flatten.length / c.size < segments.length :=
        Nat.div_lt_of_lt_mul hlt
      omega
  · intro hfull
    rw [hfulldec hfull, c.decode_of_full hfull hstream, arrived,
      c.flatten_length_of_full hfull, Nat.mul_div_cancel_left _ hpos]

end Codec

end Framing
end LinuxEmbedded
