import LinuxEmbedded.CharDev.Device

/-
Which bytes of kernel memory the file operations touch.

A read may start past the end of the data: another file may have stored less
meanwhile.  The remainder is then negative, is converted to an unsigned number
above every request, and the request is not clamped.  As long as no read does
so, no offset ever leaves the buffer.
-/
namespace LinuxEmbedded
namespace CharDev

open Machine Framing

/-- Every byte of the span lies below `bound`. -/
def Span.Below (r : Span) (bound : Int) : Prop :=
  ∀ i, r.start ≤ i → i < r.start + r.count → (i : Int) < bound

theorem Span.below_iff {r : Span} {bound : Nat} :
    r.Below bound ↔ r.count = 0 ∨ r.start + r.count ≤ bound := by
  constructor
  · intro h
    by_cases hcount : r.count = 0
    · exact Or.inl hcount
    · have hlast := h (r.start + r.count - 1) (by omega) (by omega)
      omega
  · intro h i hlow hhigh
    omega

/-- A read copies from the data, which ends at `size`; a write stays in the buffer. -/
def Event.Touches (P : PageSize) (size : BitVec 32) : Event → Prop
  | .read _ _ start data => Span.Below ⟨start, data.length⟩ size.toInt
  | .wrote _ _ stores _ => ∀ r ∈ stores, Span.Below r P.buffer

/-- The call touches the bytes it may touch and leaves `mdev.size` within the buffer. -/
def InBounds (P : PageSize) (s : State) (a : Act) : Prop :=
  ∀ t os, step P s a = some (t, os) →
    (∀ e ∈ os, e.Touches P s.mdev.size) ∧ 0 ≤ t.mdev.size.toInt ∧ t.mdev.size.toInt ≤ P.buffer

/-- A read starts at most at the end of the data, unless it asks for nothing or can
copy nothing. -/
def ReadsData (s : State) : Act → Prop
  | .read file size reach => ∀ offset, s.files[file]? = some offset →
      offset.toInt ≤ s.mdev.size.toInt ∨ size = 0 ∨ reach = 0
  | _ => True

/-- The data and every offset lie within the buffer. -/
structure WithinBuffer (P : PageSize) (s : State) : Prop where
  size : s.mdev.size.toNat ≤ P.buffer
  files : ∀ offset ∈ s.files, offset.toNat ≤ P.buffer

theorem withinBuffer_initial (P : PageSize) (memory : Nat → Byte) :
    WithinBuffer P (initial memory) :=
  ⟨Nat.zero_le _, fun _ h => nomatch h⟩

section Within

variable {P : PageSize} {s : State} (hwithin : WithinBuffer P s)
include hwithin

theorem WithinBuffer.toInt_size : s.mdev.size.toInt = s.mdev.size.toNat := by
  have hsize := hwithin.size
  have hbuffer := P.buffer_lt
  exact BitVec.toInt_eq_toNat_of_lt (by omega)

theorem WithinBuffer.toInt_offset {file : Nat} {offset : Loff}
    (hfile : s.files[file]? = some offset) : offset.toInt = offset.toNat := by
  have hoffset := hwithin.files offset (List.mem_of_getElem? hfile)
  have hbuffer := P.buffer_lt
  exact BitVec.toInt_eq_toNat_of_lt (by omega)

/-- An offset that moves within the buffer. -/
theorem WithinBuffer.set {mdev : Mdev} {file : Nat} {offset : Loff}
    (hsize : mdev.size.toNat ≤ P.buffer) (hoffset : offset.toNat ≤ P.buffer) :
    WithinBuffer P { mdev, files := s.files.set file offset } := by
  refine ⟨hsize, fun o ho => ?_⟩
  rcases List.mem_or_eq_of_mem_set ho with ho | rfl
  · exact hwithin.files o ho
  · exact hoffset

theorem WithinBuffer.opened : WithinBuffer P { s with files := s.files ++ [0] } := by
  refine ⟨hwithin.size, fun o ho => ?_⟩
  rcases List.mem_append.mp ho with ho | ho
  · exact hwithin.files o ho
  · rw [List.mem_singleton.mp ho]
    exact Nat.zero_le _

variable {file : Nat} {offset : Loff} {size : SizeT}

/-- A write ends within the buffer. -/
theorem WithinBuffer.write_end (hfile : s.files[file]? = some offset)
    (hvfs : VfsPasses offset size) :
    (offset + toWrite P size offset).toNat = offset.toNat + (toWrite P size offset).toNat ∧
      offset.toNat + (toWrite P size offset).toNat ≤ P.buffer := by
  have hoffset := hwithin.files offset (List.mem_of_getElem? hfile)
  have hcount := toNat_toWrite hoffset hvfs.2
  have hbuffer := P.buffer_lt
  refine ⟨?_, by omega⟩
  rw [BitVec.toNat_add]
  omega

theorem WithinBuffer.write (hfile : s.files[file]? = some offset)
    (hvfs : VfsPasses offset size) (user : List Byte) :
    (mWrite P s.mdev size offset user).mdev.size.toNat ≤ P.buffer ∧
      (mWrite P s.mdev size offset user).offset.toNat ≤ P.buffer := by
  obtain ⟨hsum, hend⟩ := hwithin.write_end hfile hvfs
  have hbuffer := P.buffer_lt
  by_cases hall : (toWrite P size offset).toNat ≤ user.length
  · obtain ⟨_, hoffset, hsize⟩ := mWrite_succeeds s.mdev size offset P hall
    rw [hoffset, hsize, BitVec.toNat_setWidth]
    omega
  · obtain ⟨_, hoffset, hsize⟩ := mWrite_faults s.mdev size offset P (Nat.lt_of_not_le hall)
    rw [hoffset, hsize]
    exact ⟨hwithin.size, hwithin.files offset (List.mem_of_getElem? hfile)⟩

/-- What a read copies lies in the data exactly when it is a read of the data. -/
theorem WithinBuffer.read_below_iff (hfile : s.files[file]? = some offset)
    (hvfs : VfsPasses offset size) (reach : Nat) :
    Span.Below ⟨offset.toNat, (mRead s.mdev size offset reach).data.length⟩ s.mdev.size.toInt ↔
      offset.toInt ≤ s.mdev.size.toInt ∨ size = 0 ∨ reach = 0 := by
  have hbuffer := P.buffer_lt
  have hsize := hwithin.size
  have hoffset := hwithin.files offset (List.mem_of_getElem? hfile)
  have hzero : size = 0 ↔ size.toNat = 0 := BitVec.toNat_inj.symm
  rw [hwithin.toInt_size, hwithin.toInt_offset hfile, Span.below_iff, mRead_data,
    Memory.length_load, hzero]
  dsimp only
  by_cases hle : offset.toNat ≤ s.mdev.size.toNat
  · rw [toNat_toRead size (by omega) hle]
    omega
  · rw [toRead_past (by omega) (by omega) (by omega) hvfs.2]
    omega

theorem WithinBuffer.read {reach : Nat} (hfile : s.files[file]? = some offset)
    (hvfs : VfsPasses offset size)
    (hdata : offset.toInt ≤ s.mdev.size.toInt ∨ size = 0 ∨ reach = 0) :
    (mRead s.mdev size offset reach).offset.toNat ≤ P.buffer := by
  have hbuffer := P.buffer_lt
  have hsize := hwithin.size
  have hoffset := hwithin.files offset (List.mem_of_getElem? hfile)
  by_cases hall : (toRead s.mdev size offset).toNat ≤ reach
  · rw [(mRead_succeeds s.mdev size offset hall).2, BitVec.toNat_add]
    rw [hwithin.toInt_size, hwithin.toInt_offset hfile] at hdata
    by_cases hle : offset.toNat ≤ s.mdev.size.toNat
    · have hcount := toNat_toRead size (by omega) hle
      omega
    · have hcount : toRead s.mdev size offset = size :=
        toRead_past (by omega) (by omega) (by omega) hvfs.2
      rw [hcount] at hall ⊢
      have hzero : size.toNat = 0 := by
        rcases hdata with hdata | rfl | rfl
        · omega
        · rfl
        · omega
      omega
  · rw [(mRead_faults s.mdev size offset (Nat.lt_of_not_le hall)).2]
    exact hoffset

end Within

variable {P : PageSize} {s t : State} {a : Act} {os : List Event}

/-- A step from within the buffer is in bounds exactly when a read is of the data. -/
theorem inBounds_iff (hwithin : WithinBuffer P s) (h : step P s a = some (t, os)) :
    InBounds P s a ↔ ReadsData s a := by
  have hstep : ∀ t' os', step P s a = some (t', os') → t' = t ∧ os' = os := by
    intro t' os' h'
    exact Prod.mk.inj (Option.some.inj (h'.symm.trans h))
  -- `mdev.size` stays within the buffer whatever is called
  have hbounds : t.mdev.size.toNat ≤ P.buffer →
      (InBounds P s a ↔ ∀ e ∈ os, e.Touches P s.mdev.size) := by
    intro hsize
    have hbuffer := P.buffer_lt
    have hint : t.mdev.size.toInt = t.mdev.size.toNat :=
      BitVec.toInt_eq_toNat_of_lt (by omega)
    constructor
    · intro hin
      exact (hin t os h).1
    · intro htouches t' os' h'
      obtain ⟨rfl, rfl⟩ := hstep t' os' h'
      exact ⟨htouches, by omega, by omega⟩
  rcases step_cases h with ⟨rfl, rfl, rfl⟩ |
    ⟨file, size, reach, offset, rfl, hfile, hvfs, rfl, rfl⟩ |
    ⟨file, size, user, offset, rfl, hfile, hvfs, rfl, rfl⟩
  · rw [hbounds hwithin.size]
    exact iff_of_true (fun _ he => nomatch he) trivial
  · rw [hbounds hwithin.size, List.forall_mem_singleton]
    show Span.Below _ _ ↔ ∀ o, s.files[file]? = some o → _
    rw [mRead_start, hwithin.read_below_iff hfile hvfs reach, hfile]
    simp
  · rw [hbounds (hwithin.write hfile hvfs user).1, List.forall_mem_singleton]
    refine iff_of_true ?_ trivial
    show ∀ r ∈ (mWrite P s.mdev size offset user).stores, Span.Below r P.buffer
    have hend := (hwithin.write_end hfile hvfs).2
    rw [mWrite_stores]
    intro r hr
    rw [Span.below_iff]
    rcases List.mem_pair.mp hr with rfl | rfl
    · exact Or.inr (Nat.zero_add _).le
    · exact Or.inr hend

theorem WithinBuffer.step (hwithin : WithinBuffer P s) (hdata : ReadsData s a)
    (h : step P s a = some (t, os)) : WithinBuffer P t := by
  rcases step_cases h with ⟨rfl, rfl, rfl⟩ |
    ⟨file, size, reach, offset, rfl, hfile, hvfs, rfl, rfl⟩ |
    ⟨file, size, user, offset, rfl, hfile, hvfs, rfl, rfl⟩
  · exact hwithin.opened
  · exact hwithin.set hwithin.size (hwithin.read hfile hvfs (hdata offset hfile))
  · obtain ⟨hsize, hoffset⟩ := hwithin.write hfile hvfs user
    exact hwithin.set hsize hoffset

/-- Every call of a run stays in bounds exactly when every read of it is of the data. -/
theorem run_inBounds_iff (P : PageSize) (memory : Nat → Byte) {as : List Act} {t : State}
    {os : List Event} (h : run (step P) (initial memory) as = some (t, os)) :
    Meets (step P) (InBounds P) (initial memory) as ↔
      Meets (step P) ReadsData (initial memory) as := by
  refine meets_congr (I := WithinBuffer P) ?_ ?_ (withinBuffer_initial P memory) h
  · intro u a t os hwithin hstep
    exact inBounds_iff hwithin hstep
  · intro u a t os hwithin hin hstep
    exact hwithin.step ((inBounds_iff hwithin hstep).mp hin) hstep

/-! ## Less data than the offset -/

/-- Pages of 4 KiB. -/
def page4K : PageSize := ⟨4096, by decide, by decide⟩

/-- One file stores ten bytes, a second one stores one, and the first is read. -/
def shrunk : List Act :=
  [.open, .write 0 10 (List.replicate 10 65), .open, .write 1 1 [66], .read 0 5 5]

theorem shrunk_out_of_bounds :
    (run (step page4K) (initial fun _ => 0) shrunk).isSome ∧
      ¬ Meets (step page4K) (InBounds page4K) (initial fun _ => 0) shrunk := by
  refine ⟨by decide, fun hmeets => ?_⟩
  obtain ⟨_, h⟩ := hmeets
  obtain ⟨_, h⟩ := h _ _ rfl
  obtain ⟨_, h⟩ := h _ _ rfl
  obtain ⟨_, h⟩ := h _ _ rfl
  obtain ⟨h, _⟩ := h _ _ rfl
  -- `mdev.size` is 1 and the bytes from 10 on are copied
  have htouches := (h _ _ rfl).1 _ (List.mem_singleton.mpr rfl)
  exact absurd (htouches 10 (by decide) (by decide)) (by decide)

theorem run_inBounds_iff_stored :
    Meets (step page4K) (InBounds page4K) (initial fun _ => 0)
        [.open, .write 0 10 (List.replicate 10 65), .open, .read 1 20 20] ↔
      Meets (step page4K) ReadsData (initial fun _ => 0)
        [.open, .write 0 10 (List.replicate 10 65), .open, .read 1 20 20] :=
  run_inBounds_iff page4K (fun _ => 0) rfl

end CharDev
end LinuxEmbedded
