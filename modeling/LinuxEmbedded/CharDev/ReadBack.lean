import LinuxEmbedded.CharDev.Safety

/-
What a reader of the device sees after a run of writes.

Every write clears the page, and then copies at the offset of its file.
-/
namespace LinuxEmbedded
namespace CharDev

open Machine Framing

/-! ## A reader -/

/-- Read with requests of these sizes until `m_read` returns 0, into a buffer that can take
each of them; `none` when the sizes run out before that. -/
def readUntilZero (mdev : Mdev) (offset : Loff) : List SizeT → Option (List Byte)
  | [] => none
  | size :: sizes =>
    let call := mRead mdev size offset size.toNat
    if call.ret = 0 then some []
    else (readUntilZero mdev call.offset sizes).map (call.data ++ ·)

/-- A request of at least one byte that the VFS passes on. -/
def Request (size : SizeT) : Prop := 0 < size.toNat ∧ size.toNat ≤ maxRwCount

/-- A file opened now and read until `m_read` returns 0 gives these bytes, in whatever
portions it is read, and the reading ends. -/
def Yields (mdev : Mdev) (bytes : List Byte) : Prop :=
  ∀ sizes : List SizeT, (∀ size ∈ sizes, Request size) →
    (∀ r, readUntilZero mdev 0 sizes = some r → r = bytes) ∧
    (bytes.length < sizes.length → readUntilZero mdev 0 sizes = some bytes)

/-- `mdev.size` bytes of the buffer. -/
def content (mdev : Mdev) : List Byte := Memory.load mdev.kmallocPtr 0 mdev.size.toNat

theorem readUntilZero_eq {mdev : Mdev} {offset : Loff} {sizes : List SizeT}
    (hsize : mdev.size.toNat < 2 ^ 31) (hoffset : offset.toNat ≤ mdev.size.toNat)
    (hsizes : ∀ size ∈ sizes, Request size) :
    readUntilZero mdev offset sizes = some
        (Memory.load mdev.kmallocPtr offset.toNat (mdev.size.toNat - offset.toNat)) ∨
      readUntilZero mdev offset sizes = none ∧
        sizes.length ≤ mdev.size.toNat - offset.toNat := by
  induction sizes generalizing offset with
  | nil => exact Or.inr ⟨rfl, Nat.zero_le _⟩
  | cons size sizes ih =>
    have hrequest := hsizes size (List.mem_cons_self ..)
    have hcount := toNat_toRead size hsize hoffset
    have hall : (toRead mdev size offset).toNat ≤ size.toNat := by omega
    obtain ⟨hret, hnext⟩ := mRead_succeeds mdev size offset hall
    have hzero : (mRead mdev size offset size.toNat).ret = 0 ↔
        mdev.size.toNat = offset.toNat := by
      rw [hret, ← BitVec.toNat_inj, hcount]
      show min size.toNat (mdev.size.toNat - offset.toNat) = 0 ↔ _
      have hpos := hrequest.1
      omega
    unfold readUntilZero
    dsimp only
    by_cases hend : mdev.size.toNat = offset.toNat
    · rw [if_pos (hzero.mpr hend), hend, Nat.sub_self]
      exact Or.inl rfl
    · rw [if_neg (hend ∘ hzero.mp), mRead_data, hnext]
      have hsum : (offset + toRead mdev size offset).toNat =
          offset.toNat + (toRead mdev size offset).toNat := by
        rw [BitVec.toNat_add]
        omega
      have hpos := hrequest.1
      have hle : (offset + toRead mdev size offset).toNat ≤ mdev.size.toNat := by omega
      rcases ih hle (fun n hn => hsizes n (List.mem_cons_of_mem _ hn)) with h | ⟨h, hlength⟩
      · -- what is copied and what the rest of the loop reads are adjacent
        left
        rw [h, Option.map_some, hsum, Nat.min_eq_left (by omega), ← Memory.load_add]
        congr 2
        omega
      · right
        rw [h, List.length_cons]
        exact ⟨rfl, by omega⟩

theorem yields_iff {mdev : Mdev} {bytes : List Byte} (hsize : mdev.size.toNat < 2 ^ 31) :
    Yields mdev bytes ↔ content mdev = bytes := by
  have hread : ∀ sizes : List SizeT, (∀ size ∈ sizes, Request size) →
      readUntilZero mdev 0 sizes = some (content mdev) ∨
        readUntilZero mdev 0 sizes = none ∧ sizes.length ≤ (content mdev).length := by
    intro sizes hsizes
    rw [content, Memory.length_load]
    exact readUntilZero_eq hsize (Nat.zero_le _) hsizes
  constructor
  · intro h
    -- one more request than there are bytes is enough
    have hsizes : ∀ size ∈ List.replicate ((content mdev).length + 1) (1 : SizeT),
        Request size := by
      intro size hmem
      rw [List.eq_of_mem_replicate hmem]
      exact ⟨by decide, by decide⟩
    rcases hread _ hsizes with hsome | ⟨_, hlength⟩
    · exact (h _ hsizes).1 _ hsome
    · rw [List.length_replicate] at hlength
      omega
  · rintro rfl sizes hsizes
    rcases hread sizes hsizes with hsome | ⟨hnone, hlength⟩
    · exact ⟨fun r hr => Option.some.inj (hr.symm.trans hsome), fun _ => hsome⟩
    · exact ⟨fun r hr => (nomatch hnone.symm.trans hr), fun hlt => by omega⟩

/-! ## Writes -/

/-- An open or a call of `m_write`. -/
def Act.Writes : Act → Prop
  | .read .. => False
  | _ => True

/-- The bytes `m_write` accepted last. -/
def accepted (bytes : List Byte) : Event → List Byte
  | .wrote _ ret _ data => if ret = efault then bytes else data
  | .read .. => bytes

def lastAccepted (os : List Event) : List Byte := os.foldl accepted []

theorem lastAccepted_append (os os' : List Event) :
    lastAccepted (os ++ os') = os'.foldl accepted (lastAccepted os) := List.foldl_append

/-- A call of `m_write` that fails leaves what a reader sees. -/
def FailureKeeps (P : PageSize) (s : State) (a : Act) : Prop :=
  ∀ t os, step P s a = some (t, os) → ∀ file stores data, .wrote file efault stores data ∈ os →
    ∀ bytes, Yields s.mdev bytes ↔ Yields t.mdev bytes

/-- A write that can be copied is made at offset 0.  Before a write that faults, the data
is what the fault leaves: zero bytes, and the bytes that were copied. -/
def KeepsContent (P : PageSize) (s : State) : Act → Prop
  | .write file size user => ∀ offset, s.files[file]? = some offset →
      if min size.toNat (P.buffer - offset.toNat) ≤ user.length then offset = 0
      else ∀ i < s.mdev.size.toNat, s.mdev.kmallocPtr i =
        if offset.toNat ≤ i then (user[i - offset.toNat]?).getD 0 else 0
  | _ => True

section Page

variable {P : PageSize} {mdev : Mdev} {size : SizeT} {offset : Loff} {user : List Byte}

/-- The page after a write, or after one that faults. -/
theorem mWrite_page {i : Nat} (hi : i < P.buffer) :
    (mWrite P mdev size offset user).mdev.kmallocPtr i =
      if offset.toNat ≤ i then
        ((user.take (toWrite P size offset).toNat)[i - offset.toNat]?).getD 0 else 0 := by
  rw [mWrite_kmallocPtr]
  have hclear : Memory.fill (Memory.fill mdev.kmallocPtr 0 P.buffer 0) offset.toNat
      (toWrite P size offset).toNat 0 i = 0 := by
    unfold Memory.fill
    simp [hi]
  rw [Memory.store, hclear]

/-- A reader sees a zero byte for each byte before the offset, and then the new ones. -/
theorem content_mWrite (hend : offset.toNat + (toWrite P size offset).toNat ≤ P.buffer)
    (hsum : (offset + toWrite P size offset).toNat =
      offset.toNat + (toWrite P size offset).toNat)
    (hall : (toWrite P size offset).toNat ≤ user.length) :
    content (mWrite P mdev size offset user).mdev =
      List.replicate offset.toNat 0 ++ user.take (toWrite P size offset).toNat := by
  have hbuffer := P.buffer_lt
  have hlength : (user.take (toWrite P size offset).toNat).length =
      (toWrite P size offset).toNat := List.length_take_of_le hall
  have hsize : (mWrite P mdev size offset user).mdev.size.toNat =
      offset.toNat + (toWrite P size offset).toNat := by
    rw [(mWrite_succeeds mdev size offset P hall).2.2, BitVec.toNat_setWidth, hsum]
    omega
  rw [content, hsize, Memory.load_add]
  congr 1
  · refine Memory.load_replicate fun i hi => ?_
    rw [mWrite_page (by omega), if_neg (by omega)]
  · have hdata := Memory.load_store (m := Memory.fill (Memory.fill mdev.kmallocPtr 0 P.buffer 0)
      offset.toNat (toWrite P size offset).toNat 0) (a := offset.toNat)
      (user.take (toWrite P size offset).toNat)
    rw [hlength] at hdata
    rw [Nat.zero_add, mWrite_kmallocPtr, hdata]

/-- What a write that faults leaves of the data. -/
theorem content_mWrite_fault (hsize : mdev.size.toNat ≤ P.buffer)
    (hfault : user.length < (toWrite P size offset).toNat) :
    content (mWrite P mdev size offset user).mdev = content mdev ↔
      ∀ i < mdev.size.toNat, mdev.kmallocPtr i =
        if offset.toNat ≤ i then (user[i - offset.toNat]?).getD 0 else 0 := by
  rw [content, content, (mWrite_faults mdev size offset P hfault).2.2, Memory.load_eq_load_iff]
  refine forall₂_congr fun i hi => ?_
  rw [Nat.zero_add, mWrite_page (by omega), List.take_of_length_le (Nat.le_of_lt hfault)]
  exact eq_comm

end Page

section Step

variable {P : PageSize} {s : State} {file : Nat} {offset : Loff} {size : SizeT}
  {user : List Byte} {last : List Byte}

theorem toWrite_le_iff (hwithin : WithinBuffer P s) (hfile : s.files[file]? = some offset)
    (hvfs : VfsPasses offset size) : (toWrite P size offset).toNat ≤ user.length ↔
      min size.toNat (P.buffer - offset.toNat) ≤ user.length := by
  rw [toNat_toWrite (hwithin.files offset (List.mem_of_getElem? hfile)) hvfs.2]

/-- A write that is accepted is what the reader sees exactly when it is made at offset 0. -/
theorem write_content_iff (hwithin : WithinBuffer P s) (hfile : s.files[file]? = some offset)
    (hvfs : VfsPasses offset size) (hall : (toWrite P size offset).toNat ≤ user.length) :
    content (mWrite P s.mdev size offset user).mdev =
      user.take (toWrite P size offset).toNat ↔ offset = 0 := by
  obtain ⟨hsum, hend⟩ := hwithin.write_end hfile hvfs
  rw [content_mWrite hend hsum hall, List.append_left_eq_self, List.replicate_eq_nil_iff,
    ← BitVec.toNat_inj]
  rfl

theorem toWrite_ne_efault (hwithin : WithinBuffer P s) (hfile : s.files[file]? = some offset)
    (hvfs : VfsPasses offset size) : toWrite P size offset ≠ efault := by
  intro h
  have hend := (hwithin.write_end hfile hvfs).2
  have hbuffer := P.buffer_lt
  rw [h] at hend
  have hefault : efault.toNat = 2 ^ 64 - 14 := rfl
  omega

/-- The call of `m_write` as a step. -/
theorem step_write (hfile : s.files[file]? = some offset) (hvfs : VfsPasses offset size) :
    step P s (.write file size user) = some
      ({ mdev := (mWrite P s.mdev size offset user).mdev,
         files := s.files.set file (mWrite P s.mdev size offset user).offset },
        [.wrote file (mWrite P s.mdev size offset user).ret
          (mWrite P s.mdev size offset user).stores
          (mWrite P s.mdev size offset user).data]) := by
  show Option.bind _ _ = _
  rw [hfile]
  exact if_pos hvfs

theorem failureKeeps_write_iff (hfile : s.files[file]? = some offset)
    (hvfs : VfsPasses offset size) : FailureKeeps P s (.write file size user) ↔
      ((mWrite P s.mdev size offset user).ret = efault →
        ∀ bytes, Yields s.mdev bytes ↔ Yields (mWrite P s.mdev size offset user).mdev bytes) := by
  constructor
  · intro h hret
    refine h _ _ (step_write hfile hvfs) file (mWrite P s.mdev size offset user).stores
      (mWrite P s.mdev size offset user).data ?_
    rw [hret]
    exact List.mem_singleton.mpr rfl
  · intro h t os ht f stores data hmem
    rw [step_write hfile hvfs] at ht
    obtain ⟨rfl, rfl⟩ := Prod.mk.inj (Option.some.inj ht)
    have hevent := List.mem_singleton.mp hmem
    exact h (Event.wrote.inj hevent).2.1.symm

/-- One write keeps a reader's view right exactly when it keeps the content. -/
theorem write_keeps_iff (hwithin : WithinBuffer P s) (hyields : Yields s.mdev last)
    (hfile : s.files[file]? = some offset) (hvfs : VfsPasses offset size) :
    KeepsContent P s (.write file size user) ↔
      Yields (mWrite P s.mdev size offset user).mdev
        (accepted last (.wrote file (mWrite P s.mdev size offset user).ret
          (mWrite P s.mdev size offset user).stores
          (mWrite P s.mdev size offset user).data)) ∧
      FailureKeeps P s (.write file size user) := by
  have hbuffer := P.buffer_lt
  have hsize := hwithin.size
  have hsize' := (hwithin.write hfile hvfs user).1
  have hkeeps : KeepsContent P s (.write file size user) ↔
      if min size.toNat (P.buffer - offset.toNat) ≤ user.length then offset = 0
      else ∀ i < s.mdev.size.toNat, s.mdev.kmallocPtr i =
        if offset.toNat ≤ i then (user[i - offset.toNat]?).getD 0 else 0 := by
    show (∀ o, s.files[file]? = some o → _) ↔ _
    rw [hfile]
    exact ⟨fun h => h offset rfl, fun h o ho => by rw [← Option.some.inj ho]; exact h⟩
  rw [yields_iff (by omega)] at hyields
  rw [failureKeeps_write_iff hfile hvfs, hkeeps, yields_iff (by omega), accepted, mWrite_data]
  by_cases hall : (toWrite P size offset).toNat ≤ user.length
  · have hret : (mWrite P s.mdev size offset user).ret ≠ efault := by
      rw [(mWrite_succeeds s.mdev size offset P hall).1]
      exact toWrite_ne_efault hwithin hfile hvfs
    rw [if_pos ((toWrite_le_iff hwithin hfile hvfs).mp hall), if_neg hret,
      write_content_iff hwithin hfile hvfs hall]
    exact (and_iff_left fun h => absurd h hret).symm
  · have hfault := Nat.lt_of_not_le hall
    have hret := (mWrite_faults s.mdev size offset P hfault).1
    rw [if_neg (hall ∘ (toWrite_le_iff hwithin hfile hvfs).mpr), if_pos hret,
      ← content_mWrite_fault hsize hfault, hyields]
    refine (and_iff_left_of_imp fun h _ bytes => ?_).symm
    rw [yields_iff (by omega), yields_iff (by omega), h, hyields]

end Step

/-- In a run of opens and writes a reader always sees the bytes accepted last, and no failed
write changes what it sees, exactly when every write keeps the content. -/
theorem run_readBack_iff (P : PageSize) (memory : Nat → Byte) {as : List Act}
    (hwrites : ∀ a ∈ as, a.Writes) {t : State} {os : List Event}
    (h : run (step P) (initial memory) as = some (t, os)) :
    Meets (step P) (KeepsContent P) (initial memory) as ↔
      Always (step P) (fun os u => Yields u.mdev (lastAccepted os)) (initial memory) as ∧
      Meets (step P) (FailureKeeps P) (initial memory) as := by
  refine meets_iff_always_and (I := WithinBuffer P) (D := fun _ a => a.Writes) ?_
    (withinBuffer_initial P memory) ?_ ?_ h (meets_of_forall hwrites)
  · have hsize : (initial memory).mdev.size.toNat < 2 ^ 31 := Nat.two_pow_pos 31
    exact (yields_iff hsize).mpr rfl
  · intro u a t os hwithin hwrite hstep
    refine hwithin.step ?_ hstep
    cases a with
    | «open» => trivial
    | read => exact hwrite.elim
    | write => trivial
  · intro os u a t os' hwithin hwrite hyields hstep
    rw [lastAccepted_append]
    rcases step_cases hstep with ⟨rfl, rfl, rfl⟩ | ⟨file, size, reach, offset, rfl, _⟩ |
      ⟨file, size, user, offset, rfl, hfile, hvfs, rfl, rfl⟩
    · refine iff_of_true trivial ⟨hyields, ?_⟩
      intro t' os'' hstep' file stores data hmem
      rw [hstep] at hstep'
      obtain ⟨_, rfl⟩ := Prod.mk.inj (Option.some.inj hstep')
      nomatch hmem
    · exact hwrite.elim
    · exact write_keeps_iff hwithin hyields hfile hvfs

/-! ## Two writes on one file -/

/-- `a`, then `b`, through one open file. -/
def appended : List Act := [.open, .write 0 1 [97], .write 0 1 [98]]

theorem appended_not_read_back :
    (run (step page4K) (initial fun _ => 0) appended).isSome ∧
      ¬ Always (step page4K) (fun os u => Yields u.mdev (lastAccepted os))
        (initial fun _ => 0) appended := by
  refine ⟨by decide, fun h => ?_⟩
  have hyields := h appended [] _ _ (List.append_nil _).symm rfl
  -- a reader with a buffer of 4 bytes gets a zero byte first
  have hfour : Request 4 := ⟨by decide, by decide⟩
  have hread := (hyields [4, 4]
    (List.forall_mem_cons.mpr ⟨hfour, List.forall_mem_singleton.mpr hfour⟩)).1 [0, 98] rfl
  exact absurd hread (by decide)

/-- Two files, and a write through each. -/
def rewritten : List Act := [.open, .open, .write 0 2 [97, 98], .write 1 1 [99]]

theorem rewritten_keeps :
    Meets (step page4K) (KeepsContent page4K) (initial fun _ => 0) rewritten := by
  refine ⟨trivial, fun t os h => ⟨trivial, ?_⟩⟩
  obtain ⟨rfl, -⟩ := Prod.mk.inj (Option.some.inj h)
  intro t os h
  obtain ⟨rfl, -⟩ := Prod.mk.inj (Option.some.inj h)
  refine ⟨?_, fun t os h => ⟨?_, fun _ _ _ => trivial⟩⟩
  · intro offset hoffset
    obtain rfl := Option.some.inj hoffset
    rw [if_pos (by decide)]
  · obtain ⟨rfl, -⟩ := Prod.mk.inj (Option.some.inj h)
    intro offset hoffset
    obtain rfl := Option.some.inj hoffset
    rw [if_pos (by decide)]

/-- The second file starts at offset 0, and a reader sees what it wrote. -/
theorem run_readBack_iff_rewritten :
    ∃ t os, run (step page4K) (initial fun _ => 0) rewritten = some (t, os) ∧
      lastAccepted os = [99] ∧
      Always (step page4K) (fun os u => Yields u.mdev (lastAccepted os)) (initial fun _ => 0)
        rewritten ∧
      Meets (step page4K) (FailureKeeps page4K) (initial fun _ => 0) rewritten := by
  refine ⟨_, _, rfl, rfl, ?_⟩
  exact (run_readBack_iff page4K (fun _ => 0) (by simp [rewritten, Act.Writes]) rfl).mp
    rewritten_keeps

end CharDev
end LinuxEmbedded
