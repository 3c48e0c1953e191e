import Mathlib.Data.Finset.Basic
import Mathlib.Logic.Function.Basic

/-
A read-write lock: any number of threads read, or one writes.
-/
namespace LinuxEmbedded

/-- Who holds the lock, for reading and for writing. -/
structure RwLock (T : Type) where
  readers : Finset T
  writer : Option T
  deriving DecidableEq

namespace RwLock

variable {T : Type} [DecidableEq T]

def free : RwLock T := ⟨∅, none⟩

def rdlock (l : RwLock T) (t : T) : Option (RwLock T) :=
  if l.writer = none then some { l with readers := insert t l.readers } else none

def wrlock (l : RwLock T) (t : T) : Option (RwLock T) :=
  if l.readers = ∅ ∧ l.writer = none then some { l with writer := some t } else none

def unlock (l : RwLock T) (t : T) : RwLock T :=
  if l.writer = some t then { l with writer := none }
  else { l with readers := l.readers.erase t }

/-- The threads that are reading and writing are those that hold the lock. -/
structure Holds (reading writing : T → Bool) (l : RwLock T) : Prop where
  shared : ∀ t, reading t = true ↔ t ∈ l.readers
  exclusive : ∀ t, writing t = true ↔ l.writer = some t
  apart : ∀ t, l.writer = some t → l.readers = ∅

variable {reading writing : T → Bool} {l m : RwLock T} {t t' : T}

omit [DecidableEq T] in
theorem holds_free : Holds (fun _ : T => false) (fun _ => false) free where
  shared t := iff_of_false Bool.false_ne_true (Finset.notMem_empty t)
  exclusive _ := iff_of_false Bool.false_ne_true (nofun)
  apart _ h := nomatch h

omit [DecidableEq T] in
/-- While a thread writes, no other thread does. -/
theorem Holds.writer_unique (h : Holds reading writing l) (ht : writing t = true)
    (ht' : writing t' = true) : t' = t :=
  Option.some.inj (((h.exclusive t').mp ht').symm.trans ((h.exclusive t).mp ht))

omit [DecidableEq T] in
theorem Holds.not_reading (h : Holds reading writing l) (ht : writing t = true) (t' : T) :
    reading t' = false := by
  rw [Bool.eq_false_iff]
  intro ht'
  have hmem := (h.shared t').mp ht'
  rw [h.apart t ((h.exclusive t).mp ht)] at hmem
  exact Finset.notMem_empty t' hmem

omit [DecidableEq T] in
theorem Holds.not_writing (h : Holds reading writing l) (ht : reading t = true) (t' : T) :
    writing t' = false := by
  rw [Bool.eq_false_iff]
  intro ht'
  rw [h.not_reading ht' t] at ht
  cases ht

theorem Holds.rdlock (h : Holds reading writing l) (hl : l.rdlock t = some m) :
    Holds (Function.update reading t true) writing m := by
  obtain ⟨hfree, hl⟩ := Option.ite_none_right_eq_some.mp hl
  obtain rfl := Option.some.inj hl
  refine ⟨fun t' => ?_, h.exclusive, fun t' ht' => nomatch hfree.symm.trans ht'⟩
  show _ ↔ t' ∈ insert t l.readers
  rw [Finset.mem_insert]
  by_cases ht : t' = t
  · rw [ht, Function.update_self]
    exact iff_of_true rfl (Or.inl rfl)
  · rw [Function.update_of_ne ht, h.shared t', or_iff_right ht]

theorem Holds.wrlock (h : Holds reading writing l) (hl : l.wrlock t = some m) :
    Holds reading (Function.update writing t true) m := by
  obtain ⟨⟨hreaders, hfree⟩, hl⟩ := Option.ite_none_right_eq_some.mp hl
  obtain rfl := Option.some.inj hl
  refine ⟨h.shared, fun t' => ?_, fun _ _ => hreaders⟩
  show _ ↔ some t = some t'
  by_cases ht : t' = t
  · rw [ht, Function.update_self]
    exact iff_of_true rfl rfl
  · rw [Function.update_of_ne ht, h.exclusive t', hfree]
    exact iff_of_false (nofun) fun he => ht (Option.some.inj he).symm

theorem Holds.unlock_reader (h : Holds reading writing l) (ht : reading t = true) :
    Holds (Function.update reading t false) writing (l.unlock t) := by
  have hwriter : ¬l.writer = some t := by
    intro hwriter
    have hnot := h.not_writing ht t
    rw [(h.exclusive t).mpr hwriter] at hnot
    cases hnot
  rw [unlock, if_neg hwriter]
  refine ⟨fun t' => ?_, h.exclusive, fun t' ht' => ?_⟩
  · show _ ↔ t' ∈ l.readers.erase t
    rw [Finset.mem_erase]
    by_cases he : t' = t
    · rw [he, Function.update_self]
      exact iff_of_false Bool.false_ne_true fun hmem => hmem.1 rfl
    · rw [Function.update_of_ne he, h.shared t', and_iff_right he]
  · show l.readers.erase t = ∅
    rw [h.apart t' ht', Finset.erase_empty]

theorem Holds.unlock_writer (h : Holds reading writing l) (ht : writing t = true) :
    Holds reading (Function.update writing t false) (l.unlock t) := by
  have hwriter := (h.exclusive t).mp ht
  rw [unlock, if_pos hwriter]
  refine ⟨h.shared, fun t' => ?_, fun _ ht' => nomatch ht'⟩
  by_cases he : t' = t
  · rw [he, Function.update_self]
    exact iff_of_false Bool.false_ne_true (nofun)
  · rw [Function.update_of_ne he, h.exclusive t', hwriter]
    exact iff_of_false (fun hs => he (Option.some.inj hs).symm) (nofun)

omit [DecidableEq T] in
/-- Somebody holds the lock, or it is free. -/
theorem Holds.held_or_free (h : Holds reading writing l) :
    (∃ t, reading t = true ∨ writing t = true) ∨ l = free := by
  obtain ⟨readers, writer⟩ := l
  cases writer with
  | some t => exact Or.inl ⟨t, Or.inr ((h.exclusive t).mpr rfl)⟩
  | none =>
    rcases readers.eq_empty_or_nonempty with rfl | ⟨t, ht⟩
    · exact Or.inr rfl
    · exact Or.inl ⟨t, Or.inl ((h.shared t).mpr ht)⟩

end RwLock
end LinuxEmbedded
