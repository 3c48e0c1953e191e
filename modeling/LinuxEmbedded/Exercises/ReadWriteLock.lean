import LinuxEmbedded.Exercises.ThreadSyncMutex
import LinuxEmbedded.Lib.RwLock

/-
The readers and writers of `readWriteLock.c`.

`roles` says for each thread of `main` whether it runs `writer` and what its id is.
`data++` and the `printf` after it read `data` each for itself.
-/
namespace LinuxEmbedded
namespace Exercises
namespace ReadWriteLock

structure Role where
  writes : Bool
  id : Int
  deriving DecidableEq

/-- `reader_ids` and `writer_ids`, in the order in which `main` creates the threads. -/
def mainRoles : Fin 5 → Role :=
  ([⟨false, 1⟩, ⟨false, 2⟩, ⟨false, 3⟩, ⟨true, 4⟩, ⟨true, 5⟩] : List Role).get

structure Globals (n : Nat) where
  data : Int
  rwlock : RwLock (Fin n)
  deriving DecidableEq

inductive Reader where
  | locking
  | loading
  | printing (data : Int)
  | unlocking
  | returned
  deriving DecidableEq

inductive Writer where
  | locking
  | loading
  | storing (read : Int)
  /-- `data` was incremented. -/
  | reloading
  | printing (data : Int)
  | unlocking
  | returned
  deriving DecidableEq

inductive Thread where
  | reader (pc : Reader)
  | writer (pc : Writer)
  deriving DecidableEq

/-- The lines that are printed. -/
inductive Event where
  | reader (id data : Int)
  | writer (id data : Int)
  | final (data : Int)
  deriving DecidableEq

variable {n : Nat}

def reader (t : Fin n) (id : Int) (g : Globals n) :
    Reader → Option (Reader × Globals n × List Event)
  | .locking => (g.rwlock.rdlock t).map fun rwlock => (.loading, { g with rwlock }, [])
  | .loading => some (.printing g.data, g, [])
  | .printing data => some (.unlocking, g, [.reader id data])
  | .unlocking => some (.returned, { g with rwlock := g.rwlock.unlock t }, [])
  | .returned => none

def writer (t : Fin n) (id : Int) (g : Globals n) :
    Writer → Option (Writer × Globals n × List Event)
  | .locking => (g.rwlock.wrlock t).map fun rwlock => (.loading, { g with rwlock }, [])
  | .loading => some (.storing g.data, g, [])
  | .storing read =>
    (ThreadSyncMutex.addInt read 1).map fun data => (.reloading, { g with data }, [])
  | .reloading => some (.printing g.data, g, [])
  | .printing data => some (.unlocking, g, [.writer id data])
  | .unlocking => some (.returned, { g with rwlock := g.rwlock.unlock t }, [])
  | .returned => none

def threadStep (t : Fin n) (id : Int) (g : Globals n) :
    Thread → Option (Thread × Globals n × List Event)
  | .reader pc => (reader t id g pc).map fun r => (.reader r.1, r.2)
  | .writer pc => (writer t id g pc).map fun r => (.writer r.1, r.2)

def program (roles : Fin n → Role) : ForkJoin.Program n Thread (Globals n) Unit Event where
  entry t := if (roles t).writes then .writer .locking else .reader .locking
  step t _ w g := threadStep t (roles t).id g w
  returned w := w = .reader .returned || w = .writer .returned
  finish g := some [.final g.data]

def globals : Globals n := ⟨0, RwLock.free⟩

/-! ## One thread after the other -/

variable (roles : Fin n → Role)

/-- The increments of some threads. -/
def written (order : List (Fin n)) : Nat := order.countP fun t => (roles t).writes

def line (role : Role) (data : Int) : Event :=
  if role.writes then .writer role.id data else .reader role.id data

/-- What the threads print that run one after the other, from some value of `data`. -/
def serial : Int → List (Fin n) → List Event
  | _, [] => []
  | data, t :: order =>
    let after := data + written roles [t]
    line (roles t) after :: serial after order

theorem written_append (order order' : List (Fin n)) :
    written roles (order ++ order') = written roles order + written roles order' :=
  List.countP_append

theorem serial_append (data : Int) (order order' : List (Fin n)) :
    serial roles data (order ++ order') =
      serial roles data order ++ serial roles (data + written roles order) order' := by
  induction order generalizing data with
  | nil =>
    show _ = serial roles (data + (0 : Nat)) order'
    rw [Int.natCast_zero, Int.add_zero]
    rfl
  | cons t order ih =>
    have hwritten : written roles (t :: order) = written roles [t] + written roles order :=
      written_append roles [t] order
    show _ :: serial roles _ (order ++ order') = _ :: (_ ++ _)
    rw [ih, hwritten, Int.natCast_add, Int.add_assoc]

/-! ## What holds in every run -/

/-- What the others see of a thread. -/
structure View where
  reading : Bool
  writing : Bool
  /-- What it has read of `data` and is to use. -/
  read : Option Int
  /-- It has incremented `data` and has not printed. -/
  ahead : Bool
  printed : Bool
  deriving DecidableEq

def view : Option Thread → View
  | none | some (.reader .locking) | some (.writer .locking) => ⟨false, false, none, false, false⟩
  | some (.reader .loading) => ⟨true, false, none, false, false⟩
  | some (.reader (.printing data)) => ⟨true, false, some data, false, false⟩
  | some (.reader .unlocking) => ⟨true, false, none, false, true⟩
  | some (.writer .loading) => ⟨false, true, none, false, false⟩
  | some (.writer (.storing read)) => ⟨false, true, some read, false, false⟩
  | some (.writer .reloading) => ⟨false, true, none, true, false⟩
  | some (.writer (.printing data)) => ⟨false, true, some data, true, false⟩
  | some (.writer .unlocking) => ⟨false, true, none, false, true⟩
  | some (.reader .returned) | some (.writer .returned) => ⟨false, false, none, false, true⟩

/-- `order` are the threads that have printed. -/
structure Inv (views : Fin n → View) (g : Globals n) (order : List (Fin n)) : Prop where
  lock : RwLock.Holds (fun t => (views t).reading) (fun t => (views t).writing) g.rwlock
  fresh : ∀ t x, (views t).read = some x →
    ((views t).reading = true ∨ (views t).writing = true) ∧ x = g.data
  ahead : ∀ t, (views t).ahead = true →
    (views t).writing = true ∧ g.data = (written roles order + 1 : Nat)
  settled : (∀ t, (views t).ahead = false) → g.data = written roles order
  nodup : order.Nodup
  printed : ∀ t, t ∈ order ↔ (views t).printed = true

variable {roles} {views : Fin n → View} {g : Globals n} {order : List (Fin n)} {t : Fin n}
  {v : View}

theorem inv_start : Inv roles (fun _ => view none) globals [] where
  lock := RwLock.holds_free
  fresh _ _ h := nomatch h
  ahead _ h := nomatch h
  settled _ := rfl
  nodup := List.nodup_nil
  printed _ := iff_of_false List.not_mem_nil Bool.false_ne_true

theorem update_reading (v : View) :
    (fun t' => (Function.update views t v t').reading) =
      Function.update (fun t' => (views t').reading) t v.reading :=
  Function.comp_update View.reading views t v

theorem update_writing (v : View) :
    (fun t' => (Function.update views t v t').writing) =
      Function.update (fun t' => (views t').writing) t v.writing :=
  Function.comp_update View.writing views t v

/-- The views of a thread that takes or gives back the lock. -/
theorem Inv.relock {l : RwLock (Fin n)} (h : Inv roles views g order)
    (hahead : (views t).ahead = false) (hv : v.read = none ∧ v.ahead = false)
    (hprinted : v.printed = (views t).printed)
    (hlock : RwLock.Holds (Function.update (fun t' => (views t').reading) t v.reading)
      (Function.update (fun t' => (views t').writing) t v.writing) l) :
    Inv roles (Function.update views t v) { g with rwlock := l } order := by
  refine ⟨?_, ?_, ?_, ?_, h.nodup, ?_⟩
  · rw [update_reading, update_writing]
    exact hlock
  · rw [Function.forall_update_iff views fun t' v' => ∀ x, v'.read = some x →
      (v'.reading = true ∨ v'.writing = true) ∧ x = g.data]
    exact ⟨fun x hx => (nomatch hv.1.symm.trans hx), fun t' _ => h.fresh t'⟩
  · rw [Function.forall_update_iff views fun t' v' => v'.ahead = true →
      v'.writing = true ∧ g.data = (written roles order + 1 : Nat)]
    exact ⟨fun hx => (nomatch hv.2.symm.trans hx), fun t' _ => h.ahead t'⟩
  · intro hall
    rw [Function.forall_update_iff views fun _ v' => v'.ahead = false] at hall
    refine h.settled fun t' => ?_
    by_cases ht : t' = t
    · rw [ht, hahead]
    · exact hall.2 t' ht
  · rw [Function.forall_update_iff views fun t' v' => t' ∈ order ↔ v'.printed = true]
    exact ⟨hprinted ▸ h.printed t, fun t' _ => h.printed t'⟩

theorem Inv.relock_reader {l : RwLock (Fin n)} (h : Inv roles views g order)
    (hahead : (views t).ahead = false) (hv : v.read = none ∧ v.ahead = false)
    (hprinted : v.printed = (views t).printed) (hwriting : v.writing = (views t).writing)
    (hlock : RwLock.Holds (Function.update (fun t' => (views t').reading) t v.reading)
      (fun t' => (views t').writing) l) :
    Inv roles (Function.update views t v) { g with rwlock := l } order := by
  refine h.relock hahead hv hprinted ?_
  rwa [hwriting, Function.update_eq_self t fun t' => (views t').writing]

theorem Inv.relock_writer {l : RwLock (Fin n)} (h : Inv roles views g order)
    (hahead : (views t).ahead = false) (hv : v.read = none ∧ v.ahead = false)
    (hprinted : v.printed = (views t).printed) (hreading : v.reading = (views t).reading)
    (hlock : RwLock.Holds (fun t' => (views t').reading)
      (Function.update (fun t' => (views t').writing) t v.writing) l) :
    Inv roles (Function.update views t v) { g with rwlock := l } order := by
  refine h.relock hahead hv hprinted ?_
  rwa [hreading, Function.update_eq_self t fun t' => (views t').reading]

/-- The sides of the lock do not change. -/
theorem Inv.stay (h : Inv roles views g order) (hreading : v.reading = (views t).reading)
    (hwriting : v.writing = (views t).writing) :
    RwLock.Holds (fun t' => (Function.update views t v t').reading)
      (fun t' => (Function.update views t v t').writing) g.rwlock := by
  rw [update_reading, update_writing, hreading, hwriting, Function.update_eq_self,
    Function.update_eq_self]
  exact h.lock

theorem Inv.load (h : Inv roles views g order)
    (hinside : (views t).reading = true ∨ (views t).writing = true)
    (hv : v = { views t with read := some g.data }) :
    Inv roles (Function.update views t v) g order := by
  subst hv
  refine ⟨h.stay rfl rfl, ?_, ?_, ?_, h.nodup, ?_⟩
  · rw [Function.forall_update_iff views fun t' v' => ∀ x, v'.read = some x →
      (v'.reading = true ∨ v'.writing = true) ∧ x = g.data]
    exact ⟨fun x hx => ⟨hinside, (Option.some.inj hx).symm⟩, fun t' _ => h.fresh t'⟩
  · rw [Function.forall_update_iff views fun t' v' => v'.ahead = true →
      v'.writing = true ∧ g.data = (written roles order + 1 : Nat)]
    exact ⟨h.ahead t, fun t' _ => h.ahead t'⟩
  · intro hall
    rw [Function.forall_update_iff views fun _ v' => v'.ahead = false] at hall
    refine h.settled fun t' => ?_
    by_cases ht : t' = t
    · rw [ht]
      exact hall.1
    · exact hall.2 t' ht
  · rw [Function.forall_update_iff views fun t' v' => t' ∈ order ↔ v'.printed = true]
    exact ⟨h.printed t, fun t' _ => h.printed t'⟩

/-- Nobody else has a value of `data` that a writer replaces. -/
theorem Inv.alone (h : Inv roles views g order) (hwriting : (views t).writing = true) {t' : Fin n}
    (ht : t' ≠ t) : (views t').read = none ∧ (views t').ahead = false := by
  have hreading : (views t').reading = false := h.lock.not_reading hwriting t'
  have hother : (views t').writing = true → False := fun hw =>
    ht (h.lock.writer_unique hwriting hw)
  constructor
  · rw [Option.eq_none_iff_forall_ne_some]
    intro x hx
    rcases (h.fresh t' x hx).1 with hr | hw
    · exact nomatch hreading.symm.trans hr
    · exact hother hw
  · rw [Bool.eq_false_iff]
    exact fun ha => hother (h.ahead t' ha).1

theorem Inv.settled_of_writing (h : Inv roles views g order)
    (hwriting : (views t).writing = true) (hahead : (views t).ahead = false) :
    g.data = written roles order := by
  refine h.settled fun t' => ?_
  by_cases ht : t' = t
  · rw [ht, hahead]
  · exact (h.alone hwriting ht).2

theorem Inv.settled_of_reading (h : Inv roles views g order)
    (hreading : (views t).reading = true) : g.data = written roles order := by
  refine h.settled fun t' => ?_
  rw [Bool.eq_false_iff]
  intro ha
  have hnot : (views t').writing = false := h.lock.not_writing hreading t'
  exact nomatch hnot.symm.trans (h.ahead t' ha).1

theorem Inv.store {x : Int} (h : Inv roles views g order) (hwriting : (views t).writing = true)
    (hahead : (views t).ahead = false) (hread : (views t).read = some x)
    (hv : v = { views t with read := none, ahead := true }) :
    Inv roles (Function.update views t v) { g with data := x + 1 } order := by
  have hdata := h.settled_of_writing hwriting hahead
  have hx : x = written roles order := (h.fresh t x hread).2.trans hdata
  subst hv
  refine ⟨h.stay rfl rfl, ?_, ?_, ?_, h.nodup, ?_⟩
  · rw [Function.forall_update_iff views fun t' v' => ∀ y, v'.read = some y →
      (v'.reading = true ∨ v'.writing = true) ∧ y = x + 1]
    refine ⟨fun y hy => (nomatch hy), fun t' ht y hy => ?_⟩
    exact nomatch (h.alone hwriting ht).1.symm.trans hy
  · rw [Function.forall_update_iff views fun t' v' => v'.ahead = true →
      v'.writing = true ∧ x + 1 = (written roles order + 1 : Nat)]
    refine ⟨fun _ => ⟨hwriting, ?_⟩, fun t' ht ha => ?_⟩
    · rw [hx, Int.natCast_succ]
    · exact nomatch (h.alone hwriting ht).2.symm.trans ha
  · intro hall
    have hself := hall t
    rw [Function.update_self] at hself
    cases hself
  · rw [Function.forall_update_iff views fun t' v' => t' ∈ order ↔ v'.printed = true]
    exact ⟨h.printed t, fun t' _ => h.printed t'⟩

/-- A thread prints `data` as the threads before it have left it, itself included. -/
theorem Inv.print {x : Int} (h : Inv roles views g order) (hread : (views t).read = some x)
    (hahead : (views t).ahead = (roles t).writes) (hwrites : (views t).writing = (roles t).writes)
    (hnew : (views t).printed = false)
    (hv : v = { views t with read := none, ahead := false, printed := true }) :
    Inv roles (Function.update views t v) g (order ++ [t]) ∧
      x = written roles (order ++ [t]) := by
  obtain ⟨hinside, hx⟩ := h.fresh t x hread
  have hnotin : t ∉ order := by
    rw [h.printed t, hnew]
    exact Bool.false_ne_true
  have hothers : ∀ t', t' ≠ t → (views t').ahead = false := by
    intro t' ht
    rcases hinside with hr | hw
    · rw [Bool.eq_false_iff]
      intro ha
      have hnot : (views t').writing = false := h.lock.not_writing hr t'
      exact nomatch hnot.symm.trans (h.ahead t' ha).1
    · exact (h.alone hw ht).2
  have hdata : g.data = written roles (order ++ [t]) := by
    rw [written_append]
    by_cases hw : (roles t).writes = true
    · have hone : written roles [t] = 1 := by
        rw [written, List.countP_singleton, if_pos hw]
      rw [hone]
      exact (h.ahead t (hahead.trans hw)).2
    · have hzero : written roles [t] = 0 := by
        rw [written, List.countP_singleton, if_neg hw]
      have hfalse := Bool.eq_false_iff.mpr hw
      rw [hzero, Nat.add_zero]
      exact h.settled_of_reading (hinside.resolve_right (by rw [hwrites, hfalse]; decide))
  subst hv
  refine ⟨⟨h.stay rfl rfl, ?_, ?_, fun _ => hdata, ?_, ?_⟩, hx.trans hdata⟩
  · rw [Function.forall_update_iff views fun t' v' => ∀ y, v'.read = some y →
      (v'.reading = true ∨ v'.writing = true) ∧ y = g.data]
    exact ⟨fun y hy => (nomatch hy), fun t' _ => h.fresh t'⟩
  · rw [Function.forall_update_iff views fun t' v' => v'.ahead = true →
      v'.writing = true ∧ g.data = (written roles (order ++ [t]) + 1 : Nat)]
    exact ⟨fun ha => (nomatch ha), fun t' ht ha => nomatch (hothers t' ht).symm.trans ha⟩
  · exact List.nodup_append.mpr ⟨h.nodup, List.nodup_singleton t, fun a ha b hb hab =>
      hnotin (List.mem_singleton.mp hb ▸ hab ▸ ha)⟩
  · rw [Function.forall_update_iff views fun t' v' => t' ∈ order ++ [t] ↔ v'.printed = true]
    refine ⟨iff_of_true (List.mem_append_right _ (List.mem_singleton_self t)) rfl, ?_⟩
    intro t' ht
    rw [List.mem_append, List.mem_singleton, or_iff_left ht]
    exact h.printed t'

/-! ## The steps of a thread -/

/-- What a step of a thread has printed belongs at the end of the serial order. -/
structure After (roles : Fin n → Role) (views : Fin n → View) (t : Fin n) (v : View)
    (g : Globals n) (order : List (Fin n)) (os : List Event) (order' : List (Fin n)) : Prop where
  inv : Inv roles (Function.update views t v) g (order ++ order')
  lines : os = serial roles (written roles order) order'

theorem Inv.after (h : Inv roles (Function.update views t v) g order) :
    After roles views t v g order [] [] where
  inv := by rwa [List.append_nil]
  lines := rfl

theorem Inv.after_print {x : Int}
    (h : Inv roles (Function.update views t v) g (order ++ [t]) ∧
      x = written roles (order ++ [t])) :
    After roles views t v g order [line (roles t) x] [t] where
  inv := h.1
  lines := by
    rw [h.2, written_append, Int.natCast_add]
    rfl

theorem Inv.reader {pc pc' : Reader} {g' : Globals n} {os : List Event}
    (h : Inv roles views g order) (ht : views t = view (some (.reader pc)))
    (hrole : (roles t).writes = false)
    (hstep : ReadWriteLock.reader t (roles t).id g pc = some (pc', g', os)) :
    ∃ order', After roles views t (view (some (.reader pc'))) g' order os order' := by
  cases pc with
  | locking =>
    have hv : views t = ⟨false, false, none, false, false⟩ := ht
    obtain ⟨l, hl, hstep⟩ := Option.map_eq_some_iff.mp hstep
    obtain ⟨rfl, rfl, rfl⟩ : .loading = pc' ∧ { g with rwlock := l } = g' ∧ [] = os := by
      simpa using hstep
    refine ⟨[], (h.relock_reader ?_ ⟨rfl, rfl⟩ ?_ ?_ (h.lock.rdlock hl)).after⟩
    all_goals rw [hv]
    all_goals rfl
  | loading =>
    have hv : views t = ⟨true, false, none, false, false⟩ := ht
    obtain ⟨rfl, rfl, rfl⟩ : .printing g.data = pc' ∧ g = g' ∧ [] = os := by
      simpa [ReadWriteLock.reader] using hstep
    exact ⟨[], (h.load (Or.inl (by rw [hv])) (by rw [hv]; rfl)).after⟩
  | printing data =>
    have hv : views t = ⟨true, false, some data, false, false⟩ := ht
    obtain ⟨rfl, rfl, rfl⟩ : .unlocking = pc' ∧ g = g' ∧ [.reader (roles t).id data] = os := by
      simpa [ReadWriteLock.reader] using hstep
    have hline : [Event.reader (roles t).id data] = [line (roles t) data] := by
      rw [line, hrole]
      rfl
    rw [hline]
    refine ⟨[t], Inv.after_print (h.print (x := data) ?_ ?_ ?_ ?_ ?_)⟩
    · rw [hv]
    · rw [hv, hrole]
    · rw [hv, hrole]
    · rw [hv]
    · rw [hv]
      rfl
  | unlocking =>
    have hv : views t = ⟨true, false, none, false, true⟩ := ht
    obtain ⟨rfl, rfl, rfl⟩ : .returned = pc' ∧ { g with rwlock := g.rwlock.unlock t } = g' ∧
        [] = os := by
      simpa [ReadWriteLock.reader] using hstep
    have hreading : (views t).reading = true := by rw [hv]
    refine ⟨[], (h.relock_reader ?_ ⟨rfl, rfl⟩ ?_ ?_ (h.lock.unlock_reader hreading)).after⟩
    all_goals rw [hv]
    all_goals rfl
  | returned => cases hstep

theorem Inv.writer {pc pc' : Writer} {g' : Globals n} {os : List Event}
    (h : Inv roles views g order) (ht : views t = view (some (.writer pc)))
    (hrole : (roles t).writes = true)
    (hstep : ReadWriteLock.writer t (roles t).id g pc = some (pc', g', os)) :
    ∃ order', After roles views t (view (some (.writer pc'))) g' order os order' := by
  cases pc with
  | locking =>
    have hv : views t = ⟨false, false, none, false, false⟩ := ht
    obtain ⟨l, hl, hstep⟩ := Option.map_eq_some_iff.mp hstep
    obtain ⟨rfl, rfl, rfl⟩ : .loading = pc' ∧ { g with rwlock := l } = g' ∧ [] = os := by
      simpa using hstep
    refine ⟨[], (h.relock_writer ?_ ⟨rfl, rfl⟩ ?_ ?_ (h.lock.wrlock hl)).after⟩
    all_goals rw [hv]
    all_goals rfl
  | loading =>
    have hv : views t = ⟨false, true, none, false, false⟩ := ht
    obtain ⟨rfl, rfl, rfl⟩ : .storing g.data = pc' ∧ g = g' ∧ [] = os := by
      simpa [ReadWriteLock.writer] using hstep
    exact ⟨[], (h.load (Or.inr (by rw [hv])) (by rw [hv]; rfl)).after⟩
  | storing read =>
    have hv : views t = ⟨false, true, some read, false, false⟩ := ht
    obtain ⟨data, hadd, hstep⟩ := Option.map_eq_some_iff.mp hstep
    obtain ⟨rfl, rfl, rfl⟩ : .reloading = pc' ∧ { g with data } = g' ∧ [] = os := by
      simpa using hstep
    obtain rfl : read + 1 = data :=
      Option.some.inj (Option.ite_none_right_eq_some.mp hadd).2
    refine ⟨[], (h.store ?_ ?_ ?_ ?_).after⟩
    all_goals rw [hv]
    all_goals rfl
  | reloading =>
    have hv : views t = ⟨false, true, none, true, false⟩ := ht
    obtain ⟨rfl, rfl, rfl⟩ : .printing g.data = pc' ∧ g = g' ∧ [] = os := by
      simpa [ReadWriteLock.writer] using hstep
    exact ⟨[], (h.load (Or.inr (by rw [hv])) (by rw [hv]; rfl)).after⟩
  | printing data =>
    have hv : views t = ⟨false, true, some data, true, false⟩ := ht
    obtain ⟨rfl, rfl, rfl⟩ : .unlocking = pc' ∧ g = g' ∧ [.writer (roles t).id data] = os := by
      simpa [ReadWriteLock.writer] using hstep
    have hline : [Event.writer (roles t).id data] = [line (roles t) data] := by
      rw [line, hrole]
      rfl
    rw [hline]
    refine ⟨[t], Inv.after_print (h.print (x := data) ?_ ?_ ?_ ?_ ?_)⟩
    · rw [hv]
    · rw [hv, hrole]
    · rw [hv, hrole]
    · rw [hv]
    · rw [hv]
      rfl
  | unlocking =>
    have hv : views t = ⟨false, true, none, false, true⟩ := ht
    obtain ⟨rfl, rfl, rfl⟩ : .returned = pc' ∧ { g with rwlock := g.rwlock.unlock t } = g' ∧
        [] = os := by
      simpa [ReadWriteLock.writer] using hstep
    have hwriting : (views t).writing = true := by rw [hv]
    refine ⟨[], (h.relock_writer ?_ ⟨rfl, rfl⟩ ?_ ?_ (h.lock.unlock_writer hwriting)).after⟩
    all_goals rw [hv]
    all_goals rfl
  | returned => cases hstep

/-- The control state of a thread is one of the function it runs. -/
def Local (role : Role) : Thread → Prop
  | .reader _ => role.writes = false
  | .writer _ => role.writes = true

/-- One step of a thread. -/
theorem Inv.threadStep {w w' : Thread} {g' : Globals n} {os : List Event}
    (h : Inv roles views g order) (ht : views t = view (some w)) (hlocal : Local (roles t) w)
    (hstep : ReadWriteLock.threadStep t (roles t).id g w = some (w', g', os)) :
    Local (roles t) w' ∧ ∃ order', After roles views t (view (some w')) g' order os order' := by
  cases w with
  | reader pc =>
    obtain ⟨⟨pc', g₁, os₁⟩, hpc, hstep⟩ := Option.map_eq_some_iff.mp hstep
    obtain ⟨rfl, rfl, rfl⟩ : .reader pc' = w' ∧ g₁ = g' ∧ os₁ = os := by simpa using hstep
    exact ⟨hlocal, h.reader ht hlocal hpc⟩
  | writer pc =>
    obtain ⟨⟨pc', g₁, os₁⟩, hpc, hstep⟩ := Option.map_eq_some_iff.mp hstep
    obtain ⟨rfl, rfl, rfl⟩ : .writer pc' = w' ∧ g₁ = g' ∧ os₁ = os := by simpa using hstep
    exact ⟨hlocal, h.writer ht hlocal hpc⟩

/-- The threads that have printed did so one after the other. -/
structure Serial (roles : Fin n → Role) (threads : Fin n → Option Thread) (g : Globals n)
    (os : List Event) (order : List (Fin n)) : Prop where
  inv : Inv roles (fun t => view (threads t)) g order
  locals : ∀ t w, threads t = some w → Local (roles t) w
  lines : os = serial roles 0 order

def Serialized (roles : Fin n → Role) (threads : Fin n → Option Thread) (g : Globals n)
    (os : List Event) : Prop :=
  ∃ order, Serial roles threads g os order

theorem serialized_start : Serialized roles (fun _ => none) globals [] :=
  ⟨[], inv_start, fun _ _ h => (nomatch h), rfl⟩

theorem carries (roles : Fin n → Role) :
    (program roles).Carries (fun _ => True) (Serialized roles) where
  create := by
    rintro threads g os t ⟨order, hinv, hlocals, hlines⟩ hnone
    refine ⟨order, ?_, ForkJoin.all_update hlocals ?_, hlines⟩
    · have hentry : view (some ((program roles).entry t)) = view (threads t) := by
        rw [hnone]
        show view (some (if (roles t).writes then _ else _)) = _
        split <;> rfl
      rw [ForkJoin.view_update fun _ => view, hentry,
        Function.update_eq_self t fun t => view (threads t)]
      exact hinv
    · show Local (roles t) (if (roles t).writes then _ else _)
      split
      · assumption
      · exact Bool.eq_false_iff.mpr ‹_›
  thread := by
    rintro threads g os t a w w' g' os' ⟨order, hinv, hlocals, rfl⟩ hw - - hstep
    obtain ⟨hlocal, order', hinv', rfl⟩ :=
      hinv.threadStep (by rw [hw]) (hlocals t w hw) hstep
    refine ⟨order ++ order', ?_, ForkJoin.all_update hlocals hlocal, ?_⟩
    · rw [ForkJoin.view_update fun _ => view]
      exact hinv'
    · rw [serial_append, Int.zero_add]

/-! ## Every run gets to the end -/

/-- The steps a thread has left. -/
def size (_ : Fin n) : Thread → Nat
  | .reader .locking => 4
  | .reader .loading => 3
  | .reader (.printing _) => 2
  | .reader .unlocking => 1
  | .reader .returned => 0
  | .writer .locking => 6
  | .writer .loading => 5
  | .writer (.storing _) => 4
  | .writer .reloading => 3
  | .writer (.printing _) => 2
  | .writer .unlocking => 1
  | .writer .returned => 0

theorem size_reader_lt {id : Int} {pc pc' : Reader} {g' : Globals n} {os : List Event}
    (h : ReadWriteLock.reader t id g pc = some (pc', g', os)) :
    size t (.reader pc') < size t (.reader pc) := by
  cases pc with
  | locking =>
    obtain ⟨l, -, h⟩ := Option.map_eq_some_iff.mp h
    obtain ⟨rfl, -⟩ := Prod.mk.inj h
    exact Nat.lt_succ_self _
  | returned => cases h
  | loading | printing | unlocking =>
    obtain ⟨rfl, -⟩ := Prod.mk.inj (Option.some.inj h)
    exact Nat.lt_succ_self _

theorem size_writer_lt {id : Int} {pc pc' : Writer} {g' : Globals n} {os : List Event}
    (h : ReadWriteLock.writer t id g pc = some (pc', g', os)) :
    size t (.writer pc') < size t (.writer pc) := by
  cases pc with
  | locking | storing =>
    obtain ⟨l, -, h⟩ := Option.map_eq_some_iff.mp h
    obtain ⟨rfl, -⟩ := Prod.mk.inj h
    exact Nat.lt_succ_self _
  | returned => cases h
  | loading | reloading | printing | unlocking =>
    obtain ⟨rfl, -⟩ := Prod.mk.inj (Option.some.inj h)
    exact Nat.lt_succ_self _

theorem size_lt {a : Unit} {w w' : Thread} {g' : Globals n} {os : List Event}
    (h : (program roles).step t a w g = some (w', g', os)) : size t w' < size t w := by
  cases w with
  | reader pc =>
    obtain ⟨⟨pc', r⟩, hpc, h⟩ := Option.map_eq_some_iff.mp h
    obtain ⟨rfl, -⟩ := Prod.mk.inj h
    exact size_reader_lt hpc
  | writer pc =>
    obtain ⟨⟨pc', r⟩, hpc, h⟩ := Option.map_eq_some_iff.mp h
    obtain ⟨rfl, -⟩ := Prod.mk.inj h
    exact size_writer_lt hpc

theorem Inv.written_le (h : Inv roles views g order) : written roles order ≤ n := by
  have hlength := h.nodup.length_le_card
  rw [Fintype.card_fin] at hlength
  exact Nat.le_trans List.countP_le_length hlength

/-- A thread that holds the lock is not kept from going on. -/
theorem Inv.exists_step (hn : n + 1 < 2147483648) (h : Inv roles views g order) {w : Thread}
    (ht : views t = view (some w))
    (hinside : (views t).reading = true ∨ (views t).writing = true) :
    (program roles).returned w = false ∧ ∃ r, (program roles).step t () w g = some r := by
  rw [ht] at hinside
  cases w with
  | reader pc =>
    cases pc with
    | locking => exact hinside.elim (nofun) (nofun)
    | returned => exact hinside.elim (nofun) (nofun)
    | loading | printing | unlocking => exact ⟨rfl, _, rfl⟩
  | writer pc =>
    cases pc with
    | locking => exact hinside.elim (nofun) (nofun)
    | returned => exact hinside.elim (nofun) (nofun)
    | loading | reloading | printing | unlocking => exact ⟨rfl, _, rfl⟩
    | storing read =>
      have hv : views t = ⟨false, true, some read, false, false⟩ := ht
      have hread : read = written roles order :=
        (h.fresh t read (by rw [hv])).2.trans
          (h.settled_of_writing (t := t) (by rw [hv]) (by rw [hv]))
      have hle := h.written_le
      have hadd : ThreadSyncMutex.addInt read 1 = some (read + 1) := if_pos (by omega)
      refine ⟨rfl, (.writer .reloading, { g with data := read + 1 }, []), ?_⟩
      show ((ThreadSyncMutex.addInt read 1).map _).map _ = _
      rw [hadd]
      rfl

/-- While the lock is free, every thread can go on. -/
theorem exists_step_of_free {data : Int} {w : Thread}
    (hlive : (program roles).returned w = false)
    (hinside : (view (some w)).reading = false ∧ (view (some w)).writing = false) :
    ∃ r, (program roles).step t () w ⟨data, RwLock.free⟩ = some r := by
  cases w with
  | reader pc =>
    cases pc with
    | locking => exact ⟨_, rfl⟩
    | returned => cases hlive
    | loading | printing | unlocking => cases hinside.1
  | writer pc =>
    cases pc with
    | locking => exact ⟨_, rfl⟩
    | returned => cases hlive
    | loading | storing | reloading | printing | unlocking => cases hinside.2

theorem live (hn : n + 1 < 2147483648) : ForkJoin.Program.Live (program roles) (fun _ => True)
    fun threads g _ => ∃ os, Serialized roles threads g os where
  thread := by
    rintro threads g - t w ⟨os, order, hinv, -, -⟩ hw hlive
    rcases hinv.lock.held_or_free with ⟨t', hheld⟩ | hfree
    · cases hw' : threads t' with
      | none =>
        rw [hw'] at hheld
        exact hheld.elim (nofun) (nofun)
      | some w' =>
        obtain ⟨hlive', r, hr⟩ := hinv.exists_step hn (by rw [hw']) hheld
        exact ⟨t', (), w', r, trivial, hw', hlive', hr⟩
    · obtain ⟨data, l⟩ := g
      obtain rfl : l = RwLock.free := hfree
      have hreading : (view (threads t)).reading = false := by
        rw [Bool.eq_false_iff]
        exact fun hr => Finset.notMem_empty t ((hinv.lock.shared t).mp hr)
      have hwriting : (view (threads t)).writing = false := by
        rw [Bool.eq_false_iff]
        exact fun hr => nomatch (hinv.lock.exclusive t).mp hr
      rw [hw] at hreading hwriting
      obtain ⟨r, hr⟩ := exists_step_of_free (t := t) hlive ⟨hreading, hwriting⟩
      exact ⟨t, (), w, r, trivial, hw, hlive, hr⟩
  finish := fun _ _ => rfl

theorem weight_start_le (roles : Fin n → Role) :
    (program roles).weight size (fun _ => none) ≤ 6 * n := by
  have hle : ∀ t ∈ Finset.univ, size t ((program roles).entry t) ≤ 6 := by
    intro t _
    show size t (if (roles t).writes then _ else _) ≤ 6
    split
    · exact Nat.le_refl 6
    · exact Nat.le_add_right 4 2
  have hsum := Finset.sum_le_card_nsmul Finset.univ _ 6 hle
  rw [Finset.card_univ, Fintype.card_fin, smul_eq_mul, Nat.mul_comm] at hsum
  exact hsum

theorem printed_of_returned {w : Thread} (h : (program roles).returned w = true) :
    (view (some w)).printed = true := by
  rcases Bool.or_eq_true_iff.mp h with hw | hw
  · rw [of_decide_eq_true hw]
    rfl
  · rw [of_decide_eq_true hw]
    rfl

/-- In whatever order the threads move, they print what they print one after the other, in some
order; and every run can be taken to the end, where each has printed and the final value is
the number of writers. -/
theorem lines_serial {as : List (ForkJoin.Act n Unit)} {s : ForkJoin.State n Thread (Globals n)}
    {os : List Event} (hn : n + 1 < 2147483648)
    (hrun : Machine.run (program roles).next (ForkJoin.start globals) as = some (s, os)) :
    (∃ order : List (Fin n), order.Nodup ∧
      (¬ForkJoin.Program.Done s → os = serial roles 0 order) ∧
      (ForkJoin.Program.Done s → order.Perm (List.finRange n) ∧
        os = serial roles 0 order ++ [.final (written roles (List.finRange n))])) ∧
      as.length ≤ 8 * n + 1 ∧
      ∃ bs u os', Machine.run (program roles).next s bs = some (u, os') ∧
        ForkJoin.Program.Done u := by
  have hallowed : ∀ a ∈ as, ForkJoin.Program.Allowed (fun _ => True) a :=
    fun a _ => ForkJoin.Program.allowed_true a
  have hkeeps := (carries roles).keeps
  have hstart : ∃ os, Serialized roles (fun _ => none) globals os := ⟨[], serialized_start⟩
  have hranked := ForkJoin.Program.ranked_weight (P := program roles) (D := fun _ => True)
    (J := fun threads g _ => ∃ os, Serialized roles threads g os) size_lt
  obtain ⟨hshaped, os₀, os₁, rfl, hJ, hnil, hfinish⟩ :=
    (carries roles).outputs serialized_start hallowed hrun
  refine ⟨?_, ?_, ?_⟩
  · obtain ⟨order, hinv, -, rfl⟩ := hJ
    refine ⟨order, hinv.nodup, fun hnot => ?_, fun hdone => ?_⟩
    · have hcalls : s.calls ≤ 2 * n :=
        Nat.le_of_lt_succ (Nat.lt_of_le_of_ne hshaped.bound hnot)
      rw [hnil hcalls, List.append_nil]
    · have hall := hshaped.allReturned (by rw [hdone]; exact Nat.le_succ _)
      have hprinted : ∀ t, (view (s.threads t)).printed = true := by
        intro t
        obtain ⟨w, hw, hreturned⟩ := hall t
        rw [hw]
        exact printed_of_returned hreturned
      have hperm : order.Perm (List.finRange n) := by
        rw [List.perm_ext_iff_of_nodup hinv.nodup (List.nodup_finRange n)]
        exact fun t => iff_of_true ((hinv.printed t).mpr (hprinted t)) (List.mem_finRange t)
      have hsettled : ∀ t, (view (s.threads t)).ahead = false := by
        intro t
        obtain ⟨w, hw, hreturned⟩ := hall t
        rw [hw]
        rcases Bool.or_eq_true_iff.mp hreturned with hw | hw
        · rw [of_decide_eq_true hw]
          rfl
        · rw [of_decide_eq_true hw]
          rfl
      have hdata : s.globals.data = written roles (List.finRange n) := by
        rw [hinv.settled hsettled, written, hperm.countP_eq]
        rfl
      have hos₁ : some [Event.final s.globals.data] = some os₁ := hfinish hdone
      rw [← Option.some.inj hos₁, hdata]
      exact ⟨hperm, rfl⟩
  · have hle := hranked.length_le hkeeps hstart hallowed hrun
    have hweight := weight_start_le roles
    omega
  · obtain ⟨bs, u, os', -, hrest, hu⟩ :=
      (live hn).finishes hkeeps hranked s [] hshaped ⟨os₀, hJ⟩
    exact ⟨bs, u, os', hrest, hu⟩

/-- The first and the third reader hold the lock together. -/
def twoReaders : List (ForkJoin.Act 5 Unit) :=
  List.replicate 5 .main ++
    [0, 2, 0, 2, 2, 0, 0, 2, 3, 3, 3, 3, 3, 3, 1, 1, 1, 1, 4, 4, 4, 4, 4, 4].map (.thread · ()) ++
    List.replicate 6 .main

theorem lines_serial_twoReaders :
    ∃ s os, Machine.run (program mainRoles).next (ForkJoin.start globals) twoReaders =
      some (s, os) ∧ ForkJoin.Program.Done s ∧ .final 2 ∈ os := by
  have hmap : (Machine.run (program mainRoles).next (ForkJoin.start globals) twoReaders).map
      (fun q => q.1.calls) = some 11 := by
    decide +kernel
  obtain ⟨⟨s, os⟩, hrun, hcalls⟩ := Option.map_eq_some_iff.mp hmap
  have hdone : ForkJoin.Program.Done s := hcalls
  obtain ⟨⟨order, -, -, hends⟩, -⟩ := lines_serial (by decide) hrun
  have hwritten : written mainRoles (List.finRange 5) = 2 := by decide
  rw [hwritten] at hends
  refine ⟨s, os, hrun, hdone, ?_⟩
  rw [(hends hdone).2]
  exact List.mem_append_right _ (List.mem_singleton_self _)

end ReadWriteLock
end Exercises
end LinuxEmbedded
