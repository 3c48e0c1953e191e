import LinuxEmbedded.CharDev.ReadBack
import Mathlib.Algebra.GroupWithZero.Nat

/-
One open file read in portions of any sizes.

A call that faults may have copied some bytes, but it leaves the offset where it is,
so the next call starts from there again.
-/
namespace LinuxEmbedded
namespace CharDev
namespace Chunks

open Machine Framing

/-- The size asked for, and how much of the user buffer can be written. -/
structure ReadArgs where
  size : SizeT
  reach : Nat
  deriving DecidableEq, Repr

/-- A call that was made. -/
structure Made where
  size : SizeT
  call : ReadCall

/-- Calls of `m_read` on one file, one after the other. -/
def readStep (mdev : Mdev) (offset : Loff) (a : ReadArgs) : Option (Loff × List Made) :=
  let call := mRead mdev a.size offset a.reach
  some (call.offset, [⟨a.size, call⟩])

def Made.Succeeds (c : Made) : Prop := c.call.ret ≠ efault

instance (c : Made) : Decidable c.Succeeds := inferInstanceAs (Decidable (_ ≠ _))

/-- The bytes the successful calls returned. -/
def delivered (cs : List Made) : List Byte :=
  (cs.filter fun c => c.Succeeds).flatMap fun c => c.call.data

/-- What the successful calls asked for. -/
def asked (cs : List Made) : Nat := ((cs.filter fun c => c.Succeeds).map fun c => c.size.toNat).sum

/-- A reader that stops when `m_read` returns 0, and tries again when it fails. -/
def readToEnd (mdev : Mdev) (offset : Loff) : List ReadArgs → Option (List Byte)
  | [] => none
  | a :: as =>
    let call := mRead mdev a.size offset a.reach
    if call.ret = efault then readToEnd mdev call.offset as
    else if call.ret = 0 then some []
    else (readToEnd mdev call.offset as).map (call.data ++ ·)

theorem delivered_append (cs cs' : List Made) :
    delivered (cs ++ cs') = delivered cs ++ delivered cs' := by
  rw [delivered, List.filter_append, List.flatMap_append]
  rfl

theorem asked_append (cs cs' : List Made) : asked (cs ++ cs') = asked cs + asked cs' := by
  rw [asked, List.filter_append, List.map_append, List.sum_append]
  rfl

theorem delivered_succeeds {c : Made} (h : c.Succeeds) : delivered [c] = c.call.data := by
  rw [delivered, List.filter_cons_of_pos (by simpa using h)]
  exact List.append_nil _

theorem delivered_fails {c : Made} (h : ¬c.Succeeds) : delivered [c] = [] := by
  rw [delivered, List.filter_cons_of_neg (by simpa using h)]
  rfl

theorem asked_succeeds {c : Made} (h : c.Succeeds) : asked [c] = c.size.toNat := by
  rw [asked, List.filter_cons_of_pos (by simpa using h)]
  exact Nat.add_zero _

theorem asked_fails {c : Made} (h : ¬c.Succeeds) : asked [c] = 0 := by
  rw [asked, List.filter_cons_of_neg (by simpa using h)]
  rfl

/-! ## One call -/

section Call

variable {mdev : Mdev} {offset : Loff} (hsize : mdev.size.toNat < 2 ^ 31)
  (hoffset : offset.toNat ≤ mdev.size.toNat)
include hsize hoffset

/-- A call succeeds with what is left up to the size, or fails and leaves the offset. -/
theorem mRead_cases (a : ReadArgs) {n : Nat}
    (hn : n = min a.size.toNat (mdev.size.toNat - offset.toNat)) :
    (n ≤ a.reach ∧ (mRead mdev a.size offset a.reach).ret.toNat = n ∧
      (mRead mdev a.size offset a.reach).ret ≠ efault ∧
      (mRead mdev a.size offset a.reach).offset.toNat = offset.toNat + n ∧
      (mRead mdev a.size offset a.reach).data = Memory.load mdev.kmallocPtr offset.toNat n) ∨
    (a.reach < n ∧ (mRead mdev a.size offset a.reach).ret = efault ∧
      (mRead mdev a.size offset a.reach).offset = offset) := by
  have hcount : (toRead mdev a.size offset).toNat = n := by
    rw [hn]
    exact toNat_toRead a.size hsize hoffset
  by_cases hall : n ≤ a.reach
  · left
    obtain ⟨hret, hnext⟩ := mRead_succeeds mdev a.size offset (hcount ▸ hall)
    rw [hret, hnext, mRead_data, hcount, Nat.min_eq_left hall]
    refine ⟨hall, rfl, ?_, ?_, rfl⟩
    · intro he
      have hfault : n = efault.toNat := by rw [← he, hcount]
      have hlarge : 2 ^ 31 ≤ efault.toNat := by decide
      omega
    · rw [BitVec.toNat_add, hcount]
      omega
  · right
    have hlt : a.reach < n := Nat.lt_of_not_le hall
    exact ⟨hlt, mRead_faults mdev a.size offset (hcount ▸ hlt)⟩

/-- A successful call for at least one byte returns 0 at the end of the data only. -/
theorem mRead_zero_iff {a : ReadArgs} (hpos : 0 < a.size.toNat)
    (hsucceeds : (mRead mdev a.size offset a.reach).ret ≠ efault) :
    (mRead mdev a.size offset a.reach).ret = 0 ↔ offset.toNat = mdev.size.toNat := by
  rcases mRead_cases hsize hoffset a rfl with ⟨_, hret, _⟩ | ⟨_, hret, _⟩
  · rw [← BitVec.toNat_inj, hret]
    show min _ _ = 0 ↔ _
    omega
  · exact absurd hret hsucceeds

end Call

/-! ## A sequence of calls -/

/-- The offset is what was asked for, up to the size of the data, and the data up to it was
delivered. -/
theorem run_delivered {mdev : Mdev} (hsize : mdev.size.toNat < 2 ^ 31) {as : List ReadArgs}
    {offset : Loff} {cs : List Made} (h : run (readStep mdev) 0 as = some (offset, cs)) :
    offset.toNat = min mdev.size.toNat (asked cs) ∧
      delivered cs = Memory.load mdev.kmallocPtr 0 offset.toNat := by
  refine run_induction (P := fun _ cs offset => offset.toNat = min mdev.size.toNat (asked cs) ∧
    delivered cs = Memory.load mdev.kmallocPtr 0 offset.toNat) ?_ ?_ h
  · exact ⟨(Nat.min_zero _).symm, rfl⟩
  · rintro - cs offset a offset' made - ⟨hoffset, hdelivered⟩ hstep
    obtain ⟨rfl, rfl⟩ := Prod.mk.inj (Option.some.inj hstep)
    have hle : offset.toNat ≤ mdev.size.toNat := by omega
    rw [asked_append, delivered_append]
    rcases mRead_cases hsize hle a rfl with ⟨_, _, hok, hnext, hdata⟩ | ⟨_, hfault, hnext⟩
    · have hsucceeds : Made.Succeeds ⟨a.size, mRead mdev a.size offset a.reach⟩ := hok
      rw [asked_succeeds hsucceeds, delivered_succeeds hsucceeds, hdelivered]
      dsimp only
      rw [hnext, hdata]
      refine ⟨by omega, ?_⟩
      rw [Memory.load_add, Nat.zero_add]
    · have hfails : ¬Made.Succeeds ⟨a.size, mRead mdev a.size offset a.reach⟩ :=
        not_not.mpr hfault
      rw [asked_fails hfails, delivered_fails hfails, hnext, List.append_nil, Nat.add_zero]
      exact ⟨hoffset, hdelivered⟩

/-- The content is what was delivered, and what is left from the offset on. -/
theorem content_eq {mdev : Mdev} (hsize : mdev.size.toNat < 2 ^ 31) {as : List ReadArgs}
    {offset : Loff} {cs : List Made} (h : run (readStep mdev) 0 as = some (offset, cs)) :
    content mdev = delivered cs ++
      Memory.load mdev.kmallocPtr offset.toNat (mdev.size.toNat - offset.toNat) := by
  obtain ⟨hoffset, hdelivered⟩ := run_delivered hsize h
  have hadd := @Memory.load_add _ mdev.kmallocPtr 0 offset.toNat
    (mdev.size.toNat - offset.toNat)
  rw [Nat.zero_add, Nat.add_sub_cancel' (by omega)] at hadd
  rw [hdelivered]
  exact hadd

/-- The reader has all that is left, or its calls run out before that. -/
theorem readToEnd_eq {mdev : Mdev} {offset : Loff} {as : List ReadArgs}
    (hsize : mdev.size.toNat < 2 ^ 31) (hoffset : offset.toNat ≤ mdev.size.toNat)
    (hpos : ∀ a ∈ as, 0 < a.size.toNat) :
    readToEnd mdev offset as = some
        (Memory.load mdev.kmallocPtr offset.toNat (mdev.size.toNat - offset.toNat)) ∨
      readToEnd mdev offset as = none ∧
        (as.filter fun a => a.size.toNat ≤ a.reach).length ≤
          mdev.size.toNat - offset.toNat := by
  induction as generalizing offset with
  | nil => exact Or.inr ⟨rfl, Nat.zero_le _⟩
  | cons a as ih =>
    have hrest : ∀ b ∈ as, 0 < b.size.toNat := fun b hb => hpos b (List.mem_cons_of_mem _ hb)
    have ha : 0 < a.size.toNat := hpos a List.mem_cons_self
    unfold readToEnd
    dsimp only
    rcases mRead_cases hsize hoffset a rfl with ⟨hreach, hret, hok, hnext, hdata⟩ |
      ⟨hreach, hfault, hnext⟩
    · have hzero := mRead_zero_iff hsize hoffset ha hok
      rw [if_neg hok]
      by_cases hend : offset.toNat = mdev.size.toNat
      · rw [if_pos (hzero.mpr hend), hend, Nat.sub_self]
        exact Or.inl rfl
      · rw [if_neg (hend ∘ hzero.mp), hdata]
        rcases ih (by rw [hnext]; omega) hrest with h | ⟨h, hlength⟩
        · -- what is copied and what the reader gets after it are adjacent
          left
          rw [h, Option.map_some, hnext, ← Memory.load_add]
          congr 2
          omega
        · right
          rw [hnext] at hlength
          have hcons : ((a :: as).filter fun a => a.size.toNat ≤ a.reach).length ≤
              (as.filter fun a => a.size.toNat ≤ a.reach).length + 1 := by
            rw [List.filter_cons]
            split
            · exact Nat.le_refl _
            · exact Nat.le_succ _
          rw [h]
          exact ⟨rfl, by omega⟩
    · -- the buffer of a call that fails is too short for the size
      have hskip : ((a :: as).filter fun a => a.size.toNat ≤ a.reach) =
          as.filter fun a => a.size.toNat ≤ a.reach := by
        refine List.filter_cons_of_neg ?_
        rw [decide_eq_true_eq]
        omega
      rw [if_pos hfault, hnext, hskip]
      exact ih hoffset hrest

/-- After any calls on a file opened now: a prefix of the content was delivered, as much as
was asked for; the next call leaves the offset when it fails, and returns 0 when it succeeds
exactly if everything was delivered; and a reader that goes on until then has the content. -/
theorem reads_lossless {mdev : Mdev} (hlow : 0 ≤ mdev.size.toInt) {as : List ReadArgs}
    {offset : Loff} {cs : List Made} (h : run (readStep mdev) 0 as = some (offset, cs)) :
    delivered cs <+: content mdev ∧
      (delivered cs).length = min mdev.size.toNat (asked cs) ∧
      (∀ a : ReadArgs, (mRead mdev a.size offset a.reach).ret = efault →
        (mRead mdev a.size offset a.reach).offset = offset) ∧
      (∀ a : ReadArgs, (mRead mdev a.size offset a.reach).ret ≠ efault → 0 < a.size.toNat →
        ((mRead mdev a.size offset a.reach).ret = 0 ↔ delivered cs = content mdev)) ∧
      ∀ more : List ReadArgs, (∀ a ∈ more, 0 < a.size.toNat) →
        (∀ bytes, readToEnd mdev offset more = some bytes →
          delivered cs ++ bytes = content mdev) ∧
        ((content mdev).length < (more.filter fun a => a.size.toNat ≤ a.reach).length →
          (readToEnd mdev offset more).isSome) := by
  have hsize : mdev.size.toNat < 2 ^ 31 := by
    rw [BitVec.toInt_eq_toNat_cond] at hlow
    split at hlow <;> omega
  obtain ⟨hoffset, hdelivered⟩ := run_delivered hsize h
  have hle : offset.toNat ≤ mdev.size.toNat := by omega
  have hcontent := content_eq hsize h
  refine ⟨⟨_, hcontent.symm⟩, ?_, ?_, ?_, ?_⟩
  · rw [hdelivered, Memory.length_load, hoffset]
  · intro a hfault
    rcases mRead_cases hsize hle a rfl with ⟨_, _, hok, _⟩ | ⟨_, _, hnext⟩
    · exact absurd hfault hok
    · exact hnext
  · intro a hok hpos
    rw [mRead_zero_iff hsize hle hpos hok]
    constructor
    · intro hend
      rw [hcontent, hend, Nat.sub_self]
      exact (List.append_nil _).symm
    · intro hall
      have hlength := congrArg List.length hall
      rw [hdelivered, content, Memory.length_load, Memory.length_load] at hlength
      exact hlength
  · intro more hpos
    rcases readToEnd_eq hsize hle hpos with hsome | ⟨hnone, hlength⟩
    · refine ⟨?_, fun _ => by rw [hsome]; rfl⟩
      intro bytes hbytes
      rw [hcontent, ← Option.some.inj (hsome.symm.trans hbytes)]
    · refine ⟨?_, ?_⟩
      · intro bytes hbytes
        rw [hnone] at hbytes
        cases hbytes
      · intro hlong
        rw [content, Memory.length_load] at hlong
        omega

/-- Five bytes read in portions of two, one call of which faults. -/
def fiveBytes : Mdev := ⟨5, fun i => BitVec.ofNat 8 (97 + i)⟩

def portions : List ReadArgs := [⟨2, 2⟩, ⟨2, 1⟩, ⟨2, 2⟩]

theorem reads_lossless_portions :
    ∃ offset cs, run (readStep fiveBytes) 0 portions = some (offset, cs) ∧
      delivered cs <+: content fiveBytes ∧ (delivered cs).length = min 5 (asked cs) ∧
      ∀ bytes, readToEnd fiveBytes offset [⟨2, 2⟩, ⟨1, 1⟩] = some bytes →
        delivered cs ++ bytes = content fiveBytes := by
  obtain ⟨⟨offset, cs⟩, h⟩ :=
    Option.isSome_iff_exists.mp (show (run (readStep fiveBytes) 0 portions).isSome from rfl)
  obtain ⟨hpre, hlength, _, _, hreader⟩ := reads_lossless (by decide) h
  exact ⟨offset, cs, h, hpre, hlength, (hreader [⟨2, 2⟩, ⟨1, 1⟩] (by decide)).1⟩

/-! ## The file of the device -/

/-- The calls of `m_read` on a file. -/
def readsOf (file : Nat) (as : List Act) : List ReadArgs :=
  as.filterMap fun
    | .read file' size reach => if file' = file then some ⟨size, reach⟩ else none
    | _ => none

/-- The bytes the successful calls on a file returned. -/
def deliveredTo (file : Nat) (os : List Event) : List Byte :=
  os.flatMap fun
    | .read file' ret _ data => if file' = file ∧ ret ≠ efault then data else []
    | .wrote .. => []

theorem deliveredTo_read (file : Nat) (size : SizeT) (call : ReadCall) :
    deliveredTo file [.read file call.ret call.start call.data] = delivered [⟨size, call⟩] := by
  by_cases hfault : call.ret = efault
  · have hfails : ¬Made.Succeeds ⟨size, call⟩ := not_not.mpr hfault
    rw [delivered_fails hfails]
    simp [deliveredTo, hfault]
  · have hsucceeds : Made.Succeeds ⟨size, call⟩ := hfault
    rw [delivered_succeeds hsucceeds]
    simp [deliveredTo, hfault]

theorem deliveredTo_other {file file' : Nat} (hother : file' ≠ file) (ret : Ssize) (start : Nat)
    (data : List Byte) : deliveredTo file [.read file' ret start data] = [] := by
  simp [deliveredTo, hother]

/-- As long as nothing is written, the calls on one file are a sequence of calls, whatever is
done with the other files. -/
theorem run_readsOf {P : PageSize} {file : Nat} {s t : State} {as : List Act} {os : List Event}
    {offset : Loff} (hfile : s.files[file]? = some offset)
    (hwrite : ∀ file' size user, .write file' size user ∉ as)
    (h : run (step P) s as = some (t, os)) :
    ∃ offset' cs, run (readStep s.mdev) offset (readsOf file as) = some (offset', cs) ∧
      t.files[file]? = some offset' ∧ t.mdev = s.mdev ∧ deliveredTo file os = delivered cs := by
  induction as generalizing s os offset with
  | nil =>
    obtain ⟨rfl, rfl⟩ := Prod.mk.inj (Option.some.inj h)
    exact ⟨offset, [], rfl, hfile, rfl, rfl⟩
  | cons a as ih =>
    obtain ⟨u, os₁, os₂, hstep, hrun, rfl⟩ := run_cons_eq_some.mp h
    have hrest : ∀ file' size user, .write file' size user ∉ as :=
      fun file' size user hmem => hwrite file' size user (List.mem_cons_of_mem _ hmem)
    have happend : deliveredTo file (os₁ ++ os₂) = deliveredTo file os₁ ++ deliveredTo file os₂ :=
      List.flatMap_append
    have hlt : file < s.files.length := (List.getElem?_eq_some_iff.mp hfile).1
    rcases step_cases hstep with ⟨rfl, rfl, rfl⟩ |
      ⟨file', size, reach, offset', rfl, hfile', _, rfl, rfl⟩ | ⟨file', size, user, _, rfl, _⟩
    · have hopened : (s.files ++ [0])[file]? = some offset := by
        rw [List.getElem?_append_left hlt]
        exact hfile
      rw [List.nil_append]
      have hread := ih hopened hrest hrun
      exact hread
    · rw [happend]
      by_cases hsame : file' = file
      · subst hsame
        obtain rfl : offset' = offset := Option.some.inj (hfile'.symm.trans hfile)
        obtain ⟨last, cs, hcalls, hlast, hmdev, hdelivered⟩ :=
          ih (List.getElem?_set_self hlt) hrest hrun
        have hargs : readsOf file' (.read file' size reach :: as) =
            ⟨size, reach⟩ :: readsOf file' as := by
          rw [readsOf, List.filterMap_cons]
          simp only [if_true]
          rfl
        rw [hargs, deliveredTo_read file' size, hdelivered, ← delivered_append]
        exact ⟨last, _, run_cons_eq_some.mpr ⟨_, _, _, rfl, hcalls, rfl⟩, hlast, hmdev, rfl⟩
      · have hkept : (s.files.set file' (mRead s.mdev size offset' reach).offset)[file]? =
            some offset := by
          rw [List.getElem?_set_ne hsame]
          exact hfile
        have hargs : readsOf file (.read file' size reach :: as) = readsOf file as := by
          rw [readsOf, List.filterMap_cons]
          simp only [if_neg hsame]
          rfl
        rw [hargs, deliveredTo_other hsame, List.nil_append]
        have hread := ih hkept hrest hrun
        exact hread
    · exact absurd List.mem_cons_self (hwrite file' size user)

/-- A file opened on the device gives a prefix of the content while nothing is written. -/
theorem opened_delivered {P : PageSize} {s t : State} (hwithin : WithinBuffer P s)
    {as : List Act} {os : List Event} (hwrite : ∀ file size user, .write file size user ∉ as)
    (h : run (step P) s (.open :: as) = some (t, os)) :
    deliveredTo s.files.length os <+: content s.mdev := by
  obtain ⟨u, os₁, os₂, hopen, hrun, rfl⟩ := run_cons_eq_some.mp h
  obtain ⟨rfl, rfl⟩ := Prod.mk.inj (Option.some.inj hopen)
  have hfile : (s.files ++ [0])[s.files.length]? = some 0 := by
    rw [List.getElem?_append_right (Nat.le_refl _), Nat.sub_self]
    rfl
  obtain ⟨offset, cs, hcalls, _, _, hdelivered⟩ := run_readsOf hfile hwrite hrun
  have hsize : s.mdev.size.toNat < 2 ^ 31 := Nat.lt_of_le_of_lt hwithin.size P.buffer_lt
  rw [List.nil_append, hdelivered]
  exact ⟨_, (content_eq hsize hcalls).symm⟩

end Chunks
end CharDev
end LinuxEmbedded
