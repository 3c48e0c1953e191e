import LinuxEmbedded.Lib.Machine
import Mathlib.Data.List.Nodup

/-
Bounded FIFO queues that overwrite their oldest element when full.

The queue is the abstract model of a ring buffer whose push never blocks.  Every
pushed element carries the number of its push, so that two pushes of one value
stay apart and the conservation law below speaks about elements, not values.
-/
namespace LinuxEmbedded
namespace DropOldest

variable {α : Type}

structure State (α : Type) where
  queue : List (α × Nat)
  next : Nat

def empty : State α := { queue := [], next := 0 }

inductive Act (α : Type) where
  | push (x : α)
  | pop

/-- What a step does to elements, with the number each was pushed under. -/
inductive Event (α : Type) where
  | pushed (x : α) (i : Nat)
  | overwrote (x : α) (i : Nat)
  | popped (x : α) (i : Nat)
  deriving DecidableEq, Repr

def enqueue (s : State α) (x : α) : State α :=
  { queue := s.queue ++ [(x, s.next)], next := s.next + 1 }

def step (cap : Nat) (s : State α) : Act α → Option (State α × List (Event α))
  | .push x =>
    if s.queue.length < cap then some (enqueue s x, [.pushed x s.next])
    else
      match s.queue with
      | [] => none
      | (y, i) :: rest =>
        some (enqueue { s with queue := rest } x, [.overwrote y i, .pushed x s.next])
  | .pop =>
    match s.queue with
    | [] => none
    | (x, i) :: rest => some ({ s with queue := rest }, [.popped x i])

/-! ## Histories -/

def Event.push? : Event α → Option (α × Nat)
  | .pushed x i => some (x, i)
  | _ => none

def Event.overwrite? : Event α → Option Nat
  | .overwrote _ i => some i
  | _ => none

def Event.pop? : Event α → Option (α × Nat)
  | .popped x i => some (x, i)
  | _ => none

def pushes (os : List (Event α)) : List (α × Nat) := os.filterMap Event.push?
def overwrites (os : List (Event α)) : List Nat := os.filterMap Event.overwrite?
def pops (os : List (Event α)) : List (α × Nat) := os.filterMap Event.pop?

/-- The pushed elements with the overwritten ones deleted. -/
def survivors (os : List (Event α)) : List (α × Nat) :=
  (pushes os).filter fun p => p.2 ∉ overwrites os

theorem pushes_append (os os' : List (Event α)) :
    pushes (os ++ os') = pushes os ++ pushes os' := List.filterMap_append

theorem overwrites_append (os os' : List (Event α)) :
    overwrites (os ++ os') = overwrites os ++ overwrites os' := List.filterMap_append

theorem pops_append (os os' : List (Event α)) :
    pops (os ++ os') = pops os ++ pops os' := List.filterMap_append

/-- Bookkeeping of a run: pushes are numbered in order from zero, only pushed
elements are overwritten, and what survives was popped or is still queued. -/
structure Accounts (os : List (Event α)) (s : State α) : Prop where
  numbered : (pushes os).map Prod.snd = List.range s.next
  overwritten_lt : ∀ i ∈ overwrites os, i < s.next
  kept : survivors os = pops os ++ s.queue

theorem Accounts.start : Accounts [] (empty : State α) :=
  ⟨rfl, fun _ h => absurd h List.not_mem_nil, rfl⟩

theorem Accounts.survivors_nodup {os : List (Event α)} {s : State α} (h : Accounts os s) :
    ((survivors os).map Prod.snd).Nodup := by
  refine List.Nodup.sublist (List.filter_sublist.map Prod.snd) ?_
  rw [h.numbered]
  exact List.nodup_range

theorem Accounts.push {os : List (Event α)} {s : State α} (h : Accounts os s) (x : α) :
    Accounts (os ++ [.pushed x s.next]) (enqueue s x) := by
  have hpush : pushes (os ++ [.pushed x s.next]) = pushes os ++ [(x, s.next)] :=
    pushes_append os _
  have hover : overwrites (os ++ [.pushed x s.next]) = overwrites os := by
    rw [overwrites_append]; exact List.append_nil _
  have hpop : pops (os ++ [.pushed x s.next]) = pops os := by
    rw [pops_append]; exact List.append_nil _
  refine ⟨?_, fun i hi => ?_, ?_⟩
  · rw [hpush, List.map_append, h.numbered]
    exact List.range_succ.symm
  · rw [hover] at hi
    exact Nat.lt_succ_of_lt (h.overwritten_lt i hi)
  · have hnew : s.next ∉ overwrites os := fun hi => Nat.lt_irrefl _ (h.overwritten_lt _ hi)
    have hkept := h.kept
    rw [survivors] at hkept ⊢
    rw [hpush, hover, hpop, List.filter_append, hkept]
    simp [enqueue, hnew, List.append_assoc]

theorem Accounts.overwrite {os : List (Event α)} {s : State α} (h : Accounts os s)
    {i : Nat} {y : α} {rest : List (α × Nat)} (hq : s.queue = (y, i) :: rest) :
    Accounts (os ++ [.overwrote y i]) { s with queue := rest } := by
  have hpush : pushes (os ++ [.overwrote y i]) = pushes os := by
    rw [pushes_append]; exact List.append_nil _
  have hover : overwrites (os ++ [.overwrote y i]) = overwrites os ++ [i] :=
    overwrites_append os _
  have hpop : pops (os ++ [.overwrote y i]) = pops os := by
    rw [pops_append]; exact List.append_nil _
  have hnodup := h.survivors_nodup
  have hkept := h.kept
  rw [hq] at hkept
  have hmem : (y, i) ∈ survivors os := by rw [hkept]; simp
  refine ⟨by rw [hpush]; exact h.numbered, fun j hj => ?_, ?_⟩
  · rw [hover, List.mem_append, List.mem_singleton] at hj
    rcases hj with hj | rfl
    · exact h.overwritten_lt j hj
    · have hpushed : (y, j) ∈ pushes os := List.mem_of_mem_filter hmem
      have hj : j ∈ (pushes os).map Prod.snd := List.mem_map_of_mem hpushed
      rw [h.numbered] at hj
      exact List.mem_range.mp hj
  · -- deleting one more number from the pushes deletes it from the survivors
    have hsplit : survivors (os ++ [.overwrote y i]) =
        (survivors os).filter fun p => p.2 ≠ i := by
      rw [survivors, survivors, hpush, hover, List.filter_filter]
      refine List.filter_congr fun p _ => ?_
      simp [List.mem_append, not_or, Bool.and_comm]
    rw [hsplit, hpop, hkept]
    rw [hkept, List.map_append, List.map_cons, List.nodup_append] at hnodup
    obtain ⟨-, hrest, hdisj⟩ := hnodup
    rw [List.nodup_cons] at hrest
    have hpops : (pops os).filter (fun p => p.2 ≠ i) = pops os := by
      refine List.filter_eq_self.mpr fun p hp => ?_
      have := hdisj p.2 (List.mem_map_of_mem hp) i (by simp)
      simpa using this
    have hrests : rest.filter (fun p => p.2 ≠ i) = rest := by
      refine List.filter_eq_self.mpr fun p hp => ?_
      have : p.2 ≠ i := fun e =>
        hrest.1 (List.mem_map.mpr ⟨p, hp, e⟩)
      simpa using this
    rw [List.filter_append, List.filter_cons, hpops, hrests]
    simp

theorem Accounts.pop {os : List (Event α)} {s : State α} (h : Accounts os s)
    {i : Nat} {x : α} {rest : List (α × Nat)} (hq : s.queue = (x, i) :: rest) :
    Accounts (os ++ [.popped x i]) { s with queue := rest } := by
  have hpush : pushes (os ++ [.popped x i]) = pushes os := by
    rw [pushes_append]; exact List.append_nil _
  have hover : overwrites (os ++ [.popped x i]) = overwrites os := by
    rw [overwrites_append]; exact List.append_nil _
  have hpop : pops (os ++ [.popped x i]) = pops os ++ [(x, i)] := pops_append os _
  refine ⟨by rw [hpush]; exact h.numbered, ?_, ?_⟩
  · rw [hover]; exact h.overwritten_lt
  · rw [survivors, hpush, hover, ← survivors, h.kept, hpop, hq]
    simp

theorem Accounts.step {cap : Nat} {os os' : List (Event α)} {s t : State α} {a : Act α}
    (h : Accounts os s) (ha : step cap s a = some (t, os')) : Accounts (os ++ os') t := by
  cases a with
  | push x =>
    simp only [DropOldest.step] at ha
    split at ha
    · obtain ⟨rfl, rfl⟩ := Prod.mk.inj (Option.some.inj ha)
      exact h.push x
    · split at ha
      · cases ha
      · next i y rest hq =>
        obtain ⟨rfl, rfl⟩ := Prod.mk.inj (Option.some.inj ha)
        have hnext := (h.overwrite hq).push x
        rw [List.append_assoc] at hnext
        exact hnext
  | pop =>
    simp only [DropOldest.step] at ha
    split at ha
    · cases ha
    · next i x rest hq =>
      obtain ⟨rfl, rfl⟩ := Prod.mk.inj (Option.some.inj ha)
      exact h.pop hq

/-- Conservation: over a whole run no element is lost except by overwriting,
none is duplicated, and the order of the pushes is kept. -/
theorem run_accounts {cap : Nat} {as : List (Act α)} {os : List (Event α)} {t : State α}
    (h : Machine.run (step cap) empty as = some (t, os)) : Accounts os t :=
  Machine.run_induction (P := fun _ os u => Accounts os u) Accounts.start
    (fun _ _ _ _ _ _ _ hu ha => hu.step ha) h

/-- The pushed elements that were overwritten. -/
def overwritten (os : List (Event α)) : List (α × Nat) :=
  (pushes os).filter fun p => p.2 ∈ overwrites os

/-- Every pushed element was popped, is queued, or was overwritten. -/
theorem Accounts.perm {os : List (Event α)} {s : State α} (h : Accounts os s) :
    (pops os ++ s.queue ++ overwritten os).Perm (pushes os) := by
  have hsplit := List.filter_append_perm (fun p => decide (p.2 ∉ overwrites os)) (pushes os)
  have hgone : (pushes os).filter (fun p => !decide (p.2 ∉ overwrites os)) = overwritten os := by
    apply List.filter_congr
    intro p _
    rw [decide_not, Bool.not_not]
  rw [hgone] at hsplit
  rw [← h.kept]
  exact hsplit

/-- Once something was pushed something survives: the last element pushed is still
queued, or was popped. -/
theorem survivors_ne_nil {cap : Nat} {as : List (Act α)} {os : List (Event α)} {t : State α}
    (h : Machine.run (step cap) empty as = some (t, os)) (hpush : pushes os ≠ []) :
    survivors os ≠ [] := by
  rw [(run_accounts h).kept]
  refine Machine.run_induction
    (P := fun _ os u => pushes os ≠ [] → pops os ++ u.queue ≠ []) ?_ ?_ h hpush
  · intro hne
    exact absurd rfl hne
  · intro as os u a v os' _ ih hstep hne
    cases a with
    | push x =>
      have hqueue : v.queue ≠ [] := by
        simp only [step] at hstep
        split at hstep
        · obtain ⟨rfl, -⟩ := Prod.mk.inj (Option.some.inj hstep)
          simp [enqueue]
        · split at hstep
          · cases hstep
          · obtain ⟨rfl, -⟩ := Prod.mk.inj (Option.some.inj hstep)
            simp [enqueue]
      exact List.append_ne_nil_of_right_ne_nil _ hqueue
    | pop =>
      have hpops : pops os' ≠ [] := by
        simp only [step] at hstep
        split at hstep
        · cases hstep
        · obtain ⟨-, rfl⟩ := Prod.mk.inj (Option.some.inj hstep)
          simp [pops, Event.pop?]
      rw [pops_append, List.append_assoc]
      exact List.append_ne_nil_of_right_ne_nil _ (List.append_ne_nil_of_left_ne_nil hpops _)

end DropOldest
end LinuxEmbedded
