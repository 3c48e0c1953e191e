import Mathlib.Data.List.Basic

/-
The life of a resource that is held one at a time.

A resource is acquired, released, and acquired again, and the owner is closed
with nothing held.  A history that goes through these phases releases everything
it acquired, each before the next acquisition.
-/
namespace LinuxEmbedded
namespace Resource

variable {H : Type}

inductive Event (H : Type) where
  | acquired (h : H)
  /-- An acquisition was tried and gave nothing. -/
  | failed
  | released (h : H)
  | closed
  deriving DecidableEq, Repr

inductive Phase (H : Type) where
  | free
  | held (h : H)
  | closed
  deriving DecidableEq, Repr

variable [DecidableEq H]

def step : Phase H → Event H → Option (Phase H)
  | .free, .acquired h => some (.held h)
  | .free, .failed => some .free
  | .free, .closed => some .closed
  | .held h, .released h' => if h = h' then some .free else none
  | _, _ => none

/-- The phase after a history, if every event of it was in order. -/
def run (p : Phase H) (es : List (Event H)) : Option (Phase H) := es.foldlM step p

def acquired? : Event H → Option H
  | .acquired h => some h
  | _ => none

def released? : Event H → Option H
  | .released h => some h
  | _ => none

/-- What is held in the phase. -/
def Phase.holding : Phase H → List H
  | .held h => [h]
  | _ => []

theorem run_append {p q : Phase H} {es es' : List (Event H)} (h : run p es = some q) :
    run p (es ++ es') = run q es' := by
  rw [run, List.foldlM_append]
  show (run p es).bind _ = _
  rw [h]
  rfl

theorem step_balanced {p q : Phase H} {e : Event H} (h : step p e = some q) :
    p.holding ++ [e].filterMap acquired? = [e].filterMap released? ++ q.holding := by
  cases p with
  | free =>
    cases e with
    | acquired => cases h; rfl
    | failed => cases h; rfl
    | released => cases h
    | closed => cases h; rfl
  | held x =>
    cases e with
    | released y =>
      have h : (if x = y then some Phase.free else none) = some q := h
      obtain ⟨hxy, hq⟩ := Option.ite_none_right_eq_some.mp h
      rw [hxy, ← Option.some.inj hq]
      rfl
    | acquired => cases h
    | failed => cases h
    | closed => cases h
  | closed => cases e <;> cases h

/-- What was acquired is what was released, in the same order, and what is still held. -/
theorem run_balanced {p q : Phase H} {es : List (Event H)} (h : run p es = some q) :
    p.holding ++ es.filterMap acquired? = es.filterMap released? ++ q.holding := by
  induction es generalizing p with
  | nil =>
    cases h
    exact List.append_nil _
  | cons e es ih =>
    obtain ⟨r, hr, h⟩ := Option.bind_eq_some_iff.mp h
    have hacquired : (e :: es).filterMap acquired? =
        [e].filterMap acquired? ++ es.filterMap acquired? := List.filterMap_append (l := [e])
    have hreleased : (e :: es).filterMap released? =
        [e].filterMap released? ++ es.filterMap released? := List.filterMap_append (l := [e])
    rw [hacquired, hreleased, ← List.append_assoc, step_balanced hr, List.append_assoc, ih h,
      List.append_assoc]

/-- What is held, kept up to date without looking at the phase. -/
def hold (held : List H) : Event H → List H
  | .acquired h => held ++ [h]
  | .released h => held.erase h
  | _ => held

theorem hold_step {p q : Phase H} {e : Event H} (h : step p e = some q) :
    hold p.holding e = q.holding := by
  cases p with
  | free =>
    cases e with
    | acquired => cases h; rfl
    | failed => cases h; rfl
    | released => cases h
    | closed => cases h; rfl
  | held x =>
    cases e with
    | released y =>
      have h : (if x = y then some Phase.free else none) = some q := h
      obtain ⟨hxy, hq⟩ := Option.ite_none_right_eq_some.mp h
      rw [hxy, ← Option.some.inj hq]
      exact List.erase_cons_head y []
    | acquired => cases h
    | failed => cases h
    | closed => cases h
  | closed => cases e <;> cases h

theorem hold_run {p q : Phase H} {es : List (Event H)} (h : run p es = some q) :
    es.foldl hold p.holding = q.holding := by
  induction es generalizing p with
  | nil =>
    cases h
    rfl
  | cons e es ih =>
    obtain ⟨r, hr, h⟩ := Option.bind_eq_some_iff.mp h
    rw [List.foldl_cons, hold_step hr, ih h]

end Resource
end LinuxEmbedded
