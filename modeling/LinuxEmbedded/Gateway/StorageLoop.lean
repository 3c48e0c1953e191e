import LinuxEmbedded.Gateway.StorageManager
import LinuxEmbedded.Lib.Machine
import LinuxEmbedded.Lib.Resource

/-
The main loop of `storage_manager`, call by call.

A step is one call with its outcome, or one test.  `shutdown_flag` may be set
between any two steps.  Of SQLite it is used that a failed prepare leaves the
statement `NULL` and that a step that does not return `SQLITE_DONE` inserts
nothing.
-/
namespace LinuxEmbedded
namespace Gateway
namespace StorageLoop

/-- The parameters of `INSERT INTO measurements VALUES (?, ?, ?);`, once bound. -/
structure Params where
  id : Option Int32
  temp : Option ℚ
  time : Option Int64
  deriving DecidableEq, Repr

/-- No parameter is bound. -/
def Params.none : Params := ⟨.none, .none, .none⟩

def Params.of (row : Measurement) : Params := ⟨some row.id, some row.temp, some row.time⟩

/-- A prepared statement; `handle` counts them. -/
structure Stmt where
  handle : Nat
  params : Params
  deriving DecidableEq, Repr

/-- The places of the code between two calls. -/
inductive Pc where
  /-- `while (!shutdown_flag)`. -/
  | head
  /-- The test of `shutdown_flag` that comes first in the body. -/
  | entered
  /-- The test of the pop loop. -/
  | popping (popRetries : Nat)
  /-- The test of `shutdown_flag` after a failed pop. -/
  | popFailed (popRetries : Nat)
  | preparing (prepareRetries : Nat)
  | binding
  | stepping (stepRetries : Nat)
  | cleanupStmt
  | cleanup
  | stopped
  deriving DecidableEq, Repr

structure State where
  pc : Pc
  stmt : Option Stmt
  /-- The local `data`, declared in the body of the loop. -/
  data : Option (SensorData ℚ)
  shutdownFlag : Bool
  /-- Ghost: the number of pops that returned 0. -/
  popCount : Nat
  /-- Ghost: the number of statements prepared. -/
  prepareCount : Nat

def start (shutdownFlag : Bool) : State where
  pc := .head
  stmt := none
  data := none
  shutdownFlag := shutdownFlag
  popCount := 0
  prepareCount := 0

inductive Act where
  /-- A test of a loop or of the flag, or the clean-up of a statement. -/
  | go
  /-- `sbuffer_pop` returns 0 with a reading. -/
  | popped (data : SensorData ℚ)
  /-- `sbuffer_pop` fails, and may have written to `data`. -/
  | popFails (written : Option (SensorData ℚ))
  | prepare (ok : Bool)
  | bind (int double int64 : Bool)
  | step (done : Bool)
  /-- The clean-up, up to `sqlite3_close` and past it. -/
  | close (ok : Bool)
  | shutdown

/-- What happens to the reading of the pop with this number, and to statements. -/
inductive Event where
  | popped (n : Nat) (data : SensorData ℚ)
  | prepared (n : Nat) (handle : Nat)
  | prepareFailed (n : Nat)
  | bindFailed (n : Nat)
  | inserted (n : Nat) (row : Params)
  | stepFailed (n : Nat)
  | finalized (handle : Nat)
  | closed
  | logged (m : Message ℚ)
  deriving DecidableEq, Repr

/-- `sqlite3_finalize(stmt)`, if there is a statement. -/
def finalize : Option Stmt → List Event
  | some st => [.finalized st.handle]
  | none => []

/-- The three binds, each made only if those before it succeeded. -/
def bindParams (data : SensorData ℚ) (int double int64 : Bool) (params : Params) : Params :=
  if !int then params
  else if !double then { params with id := some data.sensorId }
  else if !int64 then
    { params with id := some data.sensorId, temp := some data.temperature }
  else ⟨some data.sensorId, some data.temperature, some data.timestamp⟩

def goStep (s : State) : Option (State × List Event) :=
  match s.pc with
  | .head =>
    if s.shutdownFlag then some ({ s with pc := .cleanup }, [])
    else some ({ s with pc := .entered, data := none }, [])
  | .entered =>
    if s.shutdownFlag then some ({ s with pc := .cleanup }, [])
    else some ({ s with pc := .popping 0 }, [])
  | .popping popRetries =>
    if popRetries < maxRetries then none
    else some ({ s with pc := .head },
      [.logged (logEvent "Max retries reached for popping data, skipping..." [])])
  | .popFailed popRetries =>
    if s.shutdownFlag then some ({ s with pc := .cleanup }, [])
    else some ({ s with pc := .popping (popRetries + 1) },
      [.logged (logEvent "Failed to pop data from sbuffer, retry %d/%d"
        [.int (popRetries + 1), .int maxRetries])])
  | .preparing prepareRetries =>
    if prepareRetries < maxRetries then none
    else some ({ s with pc := .head }, [.logged (logEvent
      "Max retries reached for preparing SQL statement, skipping this data point." [])])
  | .stepping stepRetries =>
    if stepRetries < maxRetries then none
    else some ({ s with pc := .cleanupStmt }, [.logged (logEvent
      "Max retries reached for inserting row, skipping this data point." [])])
  | .cleanupStmt => some ({ s with pc := .head, stmt := none }, finalize s.stmt)
  | _ => none

def step (s : State) : Act → Option (State × List Event)
  | .go => goStep s
  | .popped data =>
    match s.pc with
    | .popping popRetries =>
      if popRetries < maxRetries then
        some ({ s with pc := .preparing 0, data := some data, popCount := s.popCount + 1 },
          [.popped (s.popCount + 1) data])
      else none
    | _ => none
  | .popFails written =>
    match s.pc with
    | .popping popRetries =>
      if popRetries < maxRetries then
        some ({ s with pc := .popFailed popRetries, data := written <|> s.data }, [])
      else none
    | _ => none
  | .prepare ok =>
    match s.pc with
    | .preparing prepareRetries =>
      if prepareRetries < maxRetries then
        if ok then
          some ({ s with
              pc := .binding
              stmt := some ⟨s.prepareCount, .none⟩
              prepareCount := s.prepareCount + 1 },
            [.prepared s.popCount s.prepareCount])
        else
          some ({ s with pc := .preparing (prepareRetries + 1), stmt := none },
            [.prepareFailed s.popCount, .logged (logEvent
              "Failed to prepare insert statement, retry %d/%d"
              [.int (prepareRetries + 1), .int maxRetries])])
      else none
    | _ => none
  | .bind int double int64 =>
    match s.pc, s.stmt, s.data with
    | .binding, some st, some data =>
      let s' := { s with stmt := some { st with
        params := bindParams data int double int64 st.params } }
      if !int || !double || !int64 then
        some ({ s' with pc := .cleanupStmt },
          [.bindFailed s.popCount,
            .logged (logEvent "Failed to bind values to SQL statement" [])])
      else some ({ s' with pc := .stepping 0 }, [])
    | _, _, _ => none
  | .step done =>
    match s.pc, s.stmt with
    | .stepping stepRetries, some st =>
      if stepRetries < maxRetries then
        if done then
          some ({ s with pc := .cleanupStmt },
            [.inserted s.popCount st.params,
              .logged (logEvent "Inserted a row to SQL table" [])])
        else
          some ({ s with pc := .stepping (stepRetries + 1) },
            [.stepFailed s.popCount, .logged (logEvent "Failed to insert row, retry %d/%d"
              [.int (stepRetries + 1), .int maxRetries])])
      else none
    | _, _ => none
  | .close ok =>
    match s.pc with
    | .cleanup =>
      some ({ s with pc := .stopped }, finalize s.stmt ++ .closed ::
        ((if ok then [] else [.logged (logEvent "Failed to close database" [])]) ++
          [.logged (logEvent "Storage manager shutting down" [])]))
    | _ => none
  | .shutdown => some ({ s with shutdownFlag := true }, [])

/-! ## What a step does -/

inductive Moves (s : State) : Act → State → List Event → Prop where
  /-- A test of `shutdown_flag` that finds it set. -/
  | leave (pc : s.pc = .head ∨ s.pc = .entered ∨ ∃ popRetries, s.pc = .popFailed popRetries)
    (flag : s.shutdownFlag = true) : Moves s .go { s with pc := .cleanup } []
  | enter (pc : s.pc = .head) (flag : s.shutdownFlag = false) :
    Moves s .go { s with pc := .entered, data := none } []
  | startPop (pc : s.pc = .entered) (flag : s.shutdownFlag = false) :
    Moves s .go { s with pc := .popping 0 } []
  | skipPop {popRetries : Nat} (pc : s.pc = .popping popRetries)
    (all : ¬popRetries < maxRetries) :
    Moves s .go { s with pc := .head }
      [.logged (logEvent "Max retries reached for popping data, skipping..." [])]
  | retryPop {popRetries : Nat} (pc : s.pc = .popFailed popRetries)
    (flag : s.shutdownFlag = false) :
    Moves s .go { s with pc := .popping (popRetries + 1) }
      [.logged (logEvent "Failed to pop data from sbuffer, retry %d/%d"
        [.int (popRetries + 1), .int maxRetries])]
  | skipPrepare {prepareRetries : Nat} (pc : s.pc = .preparing prepareRetries)
    (all : ¬prepareRetries < maxRetries) :
    Moves s .go { s with pc := .head } [.logged (logEvent
      "Max retries reached for preparing SQL statement, skipping this data point." [])]
  | skipStep {stepRetries : Nat} (pc : s.pc = .stepping stepRetries)
    (all : ¬stepRetries < maxRetries) :
    Moves s .go { s with pc := .cleanupStmt } [.logged (logEvent
      "Max retries reached for inserting row, skipping this data point." [])]
  | cleanupStmt (pc : s.pc = .cleanupStmt) :
    Moves s .go { s with pc := .head, stmt := none } (finalize s.stmt)
  | popped {popRetries : Nat} (data : SensorData ℚ) (pc : s.pc = .popping popRetries)
    (more : popRetries < maxRetries) :
    Moves s (.popped data)
      { s with pc := .preparing 0, data := some data, popCount := s.popCount + 1 }
      [.popped (s.popCount + 1) data]
  | popFails {popRetries : Nat} (written : Option (SensorData ℚ))
    (pc : s.pc = .popping popRetries) (more : popRetries < maxRetries) :
    Moves s (.popFails written)
      { s with pc := .popFailed popRetries, data := written <|> s.data } []
  | prepared {prepareRetries : Nat} (pc : s.pc = .preparing prepareRetries)
    (more : prepareRetries < maxRetries) :
    Moves s (.prepare true)
      { s with
        pc := .binding
        stmt := some ⟨s.prepareCount, .none⟩
        prepareCount := s.prepareCount + 1 }
      [.prepared s.popCount s.prepareCount]
  | prepareFailed {prepareRetries : Nat} (pc : s.pc = .preparing prepareRetries)
    (more : prepareRetries < maxRetries) :
    Moves s (.prepare false) { s with pc := .preparing (prepareRetries + 1), stmt := none }
      [.prepareFailed s.popCount, .logged (logEvent
        "Failed to prepare insert statement, retry %d/%d"
        [.int (prepareRetries + 1), .int maxRetries])]
  | bound {st : Stmt} {data : SensorData ℚ} (pc : s.pc = .binding) (stmt : s.stmt = some st)
    (hdata : s.data = some data) :
    Moves s (.bind true true true)
      { s with
        pc := .stepping 0
        stmt := some { st with params := .of (measurement data) } } []
  | bindFailed {int double int64 : Bool} {st : Stmt} {data : SensorData ℚ}
    (pc : s.pc = .binding) (stmt : s.stmt = some st) (hdata : s.data = some data)
    (fails : (!int || !double || !int64) = true) :
    Moves s (.bind int double int64)
      { s with
        pc := .cleanupStmt
        stmt := some { st with params := bindParams data int double int64 st.params } }
      [.bindFailed s.popCount, .logged (logEvent "Failed to bind values to SQL statement" [])]
  | inserted {stepRetries : Nat} {st : Stmt} (pc : s.pc = .stepping stepRetries)
    (stmt : s.stmt = some st) (more : stepRetries < maxRetries) :
    Moves s (.step true) { s with pc := .cleanupStmt }
      [.inserted s.popCount st.params, .logged (logEvent "Inserted a row to SQL table" [])]
  | stepFailed {stepRetries : Nat} {st : Stmt} (pc : s.pc = .stepping stepRetries)
    (stmt : s.stmt = some st) (more : stepRetries < maxRetries) :
    Moves s (.step false) { s with pc := .stepping (stepRetries + 1) }
      [.stepFailed s.popCount, .logged (logEvent "Failed to insert row, retry %d/%d"
        [.int (stepRetries + 1), .int maxRetries])]
  | close (ok : Bool) (pc : s.pc = .cleanup) :
    Moves s (.close ok) { s with pc := .stopped }
      (finalize s.stmt ++ .closed ::
        ((if ok then [] else [.logged (logEvent "Failed to close database" [])]) ++
          [.logged (logEvent "Storage manager shutting down" [])]))
  | shutdown : Moves s .shutdown { s with shutdownFlag := true } []

theorem goStep_moves {s t : State} {os : List Event} (h : goStep s = some (t, os)) :
    Moves s .go t os := by
  unfold goStep at h
  split at h
  · next pc =>
    by_cases flag : s.shutdownFlag = true
    · rw [if_pos flag] at h
      obtain ⟨rfl, rfl⟩ := Prod.mk.inj (Option.some.inj h)
      exact .leave (Or.inl pc) flag
    · rw [if_neg flag] at h
      obtain ⟨rfl, rfl⟩ := Prod.mk.inj (Option.some.inj h)
      exact .enter pc (by simpa using flag)
  · next pc =>
    by_cases flag : s.shutdownFlag = true
    · rw [if_pos flag] at h
      obtain ⟨rfl, rfl⟩ := Prod.mk.inj (Option.some.inj h)
      exact .leave (Or.inr (Or.inl pc)) flag
    · rw [if_neg flag] at h
      obtain ⟨rfl, rfl⟩ := Prod.mk.inj (Option.some.inj h)
      exact .startPop pc (by simpa using flag)
  · next popRetries pc =>
    obtain ⟨all, h⟩ := Option.ite_none_left_eq_some.mp h
    obtain ⟨rfl, rfl⟩ := Prod.mk.inj (Option.some.inj h)
    exact .skipPop pc all
  · next popRetries pc =>
    by_cases flag : s.shutdownFlag = true
    · rw [if_pos flag] at h
      obtain ⟨rfl, rfl⟩ := Prod.mk.inj (Option.some.inj h)
      exact .leave (Or.inr (Or.inr ⟨popRetries, pc⟩)) flag
    · rw [if_neg flag] at h
      obtain ⟨rfl, rfl⟩ := Prod.mk.inj (Option.some.inj h)
      exact .retryPop pc (by simpa using flag)
  · next prepareRetries pc =>
    obtain ⟨all, h⟩ := Option.ite_none_left_eq_some.mp h
    obtain ⟨rfl, rfl⟩ := Prod.mk.inj (Option.some.inj h)
    exact .skipPrepare pc all
  · next stepRetries pc =>
    obtain ⟨all, h⟩ := Option.ite_none_left_eq_some.mp h
    obtain ⟨rfl, rfl⟩ := Prod.mk.inj (Option.some.inj h)
    exact .skipStep pc all
  · next pc =>
    obtain ⟨rfl, rfl⟩ := Prod.mk.inj (Option.some.inj h)
    exact .cleanupStmt pc
  · cases h

theorem step_moves {s t : State} {a : Act} {os : List Event} (h : step s a = some (t, os)) :
    Moves s a t os := by
  cases a with
  | go => exact goStep_moves h
  | popped data =>
    simp only [step] at h
    split at h
    · next popRetries pc =>
      obtain ⟨more, h⟩ := Option.ite_none_right_eq_some.mp h
      obtain ⟨rfl, rfl⟩ := Prod.mk.inj (Option.some.inj h)
      exact .popped data pc more
    · cases h
  | popFails written =>
    simp only [step] at h
    split at h
    · next popRetries pc =>
      obtain ⟨more, h⟩ := Option.ite_none_right_eq_some.mp h
      obtain ⟨rfl, rfl⟩ := Prod.mk.inj (Option.some.inj h)
      exact .popFails written pc more
    · cases h
  | prepare ok =>
    simp only [step] at h
    split at h
    · next prepareRetries pc =>
      obtain ⟨more, h⟩ := Option.ite_none_right_eq_some.mp h
      cases ok with
      | true =>
        obtain ⟨rfl, rfl⟩ := Prod.mk.inj (Option.some.inj h)
        exact .prepared pc more
      | false =>
        obtain ⟨rfl, rfl⟩ := Prod.mk.inj (Option.some.inj h)
        exact .prepareFailed pc more
    · cases h
  | bind int double int64 =>
    simp only [step] at h
    split at h
    · next st data pc stmt hdata =>
      by_cases fails : (!int || !double || !int64) = true
      · rw [if_pos fails] at h
        obtain ⟨rfl, rfl⟩ := Prod.mk.inj (Option.some.inj h)
        exact .bindFailed pc stmt hdata fails
      · rw [if_neg fails] at h
        obtain ⟨rfl, rfl⟩ := Prod.mk.inj (Option.some.inj h)
        have hall : int = true ∧ double = true ∧ int64 = true := by
          cases int <;> cases double <;> cases int64 <;> simp at fails ⊢
        obtain ⟨rfl, rfl, rfl⟩ := hall
        exact .bound pc stmt hdata
    · cases h
  | step done =>
    simp only [step] at h
    split at h
    · next stepRetries st pc stmt =>
      obtain ⟨more, h⟩ := Option.ite_none_right_eq_some.mp h
      cases done with
      | true =>
        obtain ⟨rfl, rfl⟩ := Prod.mk.inj (Option.some.inj h)
        exact .inserted pc stmt more
      | false =>
        obtain ⟨rfl, rfl⟩ := Prod.mk.inj (Option.some.inj h)
        exact .stepFailed pc stmt more
    · cases h
  | close ok =>
    simp only [step] at h
    split at h
    · next pc =>
      obtain ⟨rfl, rfl⟩ := Prod.mk.inj (Option.some.inj h)
      exact .close ok pc
    · cases h
  | shutdown =>
    obtain ⟨rfl, rfl⟩ := Prod.mk.inj (Option.some.inj h)
    exact .shutdown

theorem step_of_moves {s t : State} {a : Act} {os : List Event} (h : Moves s a t os) :
    step s a = some (t, os) := by
  cases h with
  | leave pc flag =>
    rcases pc with pc | pc | ⟨popRetries, pc⟩ <;> simp only [step, goStep, pc, if_pos flag]
  | enter pc flag | startPop pc flag | retryPop pc flag =>
    simp only [step, goStep, pc, if_neg (Bool.eq_false_iff.mp flag)]
  | skipPop pc all | skipPrepare pc all | skipStep pc all =>
    simp only [step, goStep, pc, if_neg all]
  | cleanupStmt pc => simp only [step, goStep, pc]
  | popped data pc more => simp only [step, pc, if_pos more]
  | popFails written pc more => simp only [step, pc, if_pos more]
  | prepared pc more => simp only [step, pc, if_pos more, if_true]
  | prepareFailed pc more =>
    simp only [step, pc, if_pos more]
    rfl
  | bound pc stmt hdata =>
    simp only [step, pc, stmt, hdata]
    rfl
  | bindFailed pc stmt hdata fails => simp only [step, pc, stmt, hdata, if_pos fails]
  | inserted pc stmt more => simp only [step, pc, stmt, if_pos more, if_true]
  | stepFailed pc stmt more =>
    simp only [step, pc, stmt, if_pos more]
    rfl
  | close ok pc => simp only [step, pc]
  | shutdown => rfl

/-! ## Histories of a run -/

def popped? : Event → Option (Nat × SensorData ℚ)
  | .popped n data => some (n, data)
  | _ => none

def inserted? : Event → Option (Nat × Params)
  | .inserted n row => some (n, row)
  | _ => none

def resource? : Event → Option (Resource.Event Nat)
  | .prepared _ handle => some (.acquired handle)
  | .prepareFailed _ => some .failed
  | .finalized handle => some (.released handle)
  | .closed => some .closed
  | _ => none

/-- The readings popped with return value 0, numbered. -/
def readings (os : List Event) : List (Nat × SensorData ℚ) := os.filterMap popped?

/-- The rows inserted, with the numbers of the readings they were inserted for. -/
def insertedRows (os : List Event) : List (Nat × Params) := os.filterMap inserted?

/-- What happened to statements. -/
def statements (os : List Event) : List (Resource.Event Nat) := os.filterMap resource?

/-- The row of a reading. -/
def rowOf (reading : Nat × SensorData ℚ) : Nat × Params :=
  (reading.1, .of (measurement reading.2))

/-- The prepare, a bind or the step for the reading failed as often as it takes. -/
def GaveUp (os : List Event) (n : Nat) : Prop :=
  os.count (.prepareFailed n) = maxRetries ∨ .bindFailed n ∈ os ∨
    os.count (.stepFailed n) = maxRetries

def Settled (os : List Event) (n : Nat) : Prop :=
  (∃ row, (n, row) ∈ insertedRows os) ∨ GaveUp os n

/-- The readings popped so far are those done with and the one in hand. -/
structure Account (os : List Event) (popCount : Nat) (settled busy : List (Nat × SensorData ℚ)) :
    Prop where
  split : readings os = settled ++ busy
  numbers : (readings os).map Prod.fst = List.range' 1 popCount
  rows : (insertedRows os).Sublist (settled.map rowOf)
  fates : ∀ p ∈ settled, Settled os p.1
  fresh : ∀ n, popCount < n →
    os.count (.prepareFailed n) = 0 ∧ os.count (.stepFailed n) = 0

variable {os os' : List Event} {n : Nat} {settled busy : List (Nat × SensorData ℚ)}

theorem readings_append : readings (os ++ os') = readings os ++ readings os' :=
  List.filterMap_append

theorem insertedRows_append : insertedRows (os ++ os') = insertedRows os ++ insertedRows os' :=
  List.filterMap_append

theorem Settled.append {k : Nat} (h : Settled os k) (hprepare : .prepareFailed k ∉ os')
    (hstep : .stepFailed k ∉ os') : Settled (os ++ os') k := by
  rcases h with ⟨row, hrow⟩ | h | h | h
  · left
    refine ⟨row, ?_⟩
    rw [insertedRows_append]
    exact List.mem_append_left _ hrow
  · right; left
    rw [List.count_append, List.count_eq_zero.mpr hprepare, h, Nat.add_zero]
  · right; right; left
    exact List.mem_append_left _ h
  · right; right; right
    rw [List.count_append, List.count_eq_zero.mpr hstep, h, Nat.add_zero]

theorem Account.start : Account [] 0 [] [] :=
  ⟨rfl, rfl, List.Sublist.refl _, fun _ hp => absurd hp List.not_mem_nil, fun _ _ => ⟨rfl, rfl⟩⟩

/-- Events that pop and insert nothing, and fail only for the reading in hand. -/
theorem Account.quiet (h : Account os n settled busy) (hpopped : readings os' = [])
    (hinserted : insertedRows os' = [])
    (hfailed : ∀ k, .prepareFailed k ∈ os' ∨ .stepFailed k ∈ os' → k ∈ busy.map Prod.fst) :
    Account (os ++ os') n settled busy := by
  have hnodup : ((readings os).map Prod.fst).Nodup := by
    rw [h.numbers]
    exact List.nodup_range'
  rw [h.split, List.map_append, List.nodup_append] at hnodup
  obtain ⟨_, _, hdisjoint⟩ := hnodup
  have hreadings : readings (os ++ os') = readings os := by
    rw [readings_append, hpopped, List.append_nil]
  refine ⟨hreadings.trans h.split, by rw [hreadings, h.numbers], ?_, ?_, ?_⟩
  · rw [insertedRows_append, hinserted, List.append_nil]
    exact h.rows
  · intro p hp
    have hother : ∀ k, .prepareFailed k ∈ os' ∨ .stepFailed k ∈ os' → p.1 ≠ k :=
      fun k hk => hdisjoint p.1 (List.mem_map_of_mem hp) k (hfailed k hk)
    exact (h.fates p hp).append (fun hmem => hother p.1 (Or.inl hmem) rfl)
      (fun hmem => hother p.1 (Or.inr hmem) rfl)
  · intro k hk
    -- the reading in hand has one of the numbers so far
    have hnone : .prepareFailed k ∉ os' ∧ .stepFailed k ∉ os' := by
      have hbusy : k ∉ busy.map Prod.fst := by
        intro hmem
        have hnumber : k ∈ (readings os).map Prod.fst := by
          rw [h.split, List.map_append]
          exact List.mem_append_right _ hmem
        rw [h.numbers, List.mem_range'_1] at hnumber
        omega
      exact ⟨fun hmem => hbusy (hfailed k (Or.inl hmem)),
        fun hmem => hbusy (hfailed k (Or.inr hmem))⟩
    obtain ⟨hprepare, hstep⟩ := h.fresh k hk
    rw [List.count_append, List.count_append, hprepare, hstep, List.count_eq_zero.mpr hnone.1,
      List.count_eq_zero.mpr hnone.2]
    exact ⟨rfl, rfl⟩

theorem Account.popped (h : Account os n settled []) (data : SensorData ℚ) :
    Account (os ++ [.popped (n + 1) data]) (n + 1) settled [(n + 1, data)] := by
  have hreadings : readings (os ++ [.popped (n + 1) data]) =
      readings os ++ [(n + 1, data)] := readings_append
  refine ⟨?_, ?_, ?_, fun p hp => (h.fates p hp).append (by simp) (by simp), ?_⟩
  · rw [hreadings, h.split, List.append_nil]
  · rw [hreadings, List.map_append, h.numbers, List.range'_concat]
    simp [Nat.add_comm]
  · have hrows : insertedRows (os ++ [.popped (n + 1) data]) = insertedRows os := by
      rw [insertedRows_append]
      exact List.append_nil _
    rw [hrows]
    exact h.rows
  · intro k hk
    obtain ⟨hprepare, hstep⟩ := h.fresh k (by omega)
    rw [List.count_append, List.count_append, hprepare, hstep]
    exact ⟨rfl, rfl⟩

/-- The loop is done with the reading in hand. -/
theorem Account.settle {data : SensorData ℚ} (h : Account os n settled [(n, data)])
    (hfate : Settled os n) : Account os n (settled ++ [(n, data)]) [] := by
  refine ⟨?_, h.numbers, ?_, ?_, h.fresh⟩
  · rw [h.split, List.append_nil]
  · rw [List.map_append]
    exact h.rows.trans (List.sublist_append_left _ _)
  · intro p hp
    rcases List.mem_append.mp hp with hp | hp
    · exact h.fates p hp
    · rw [List.mem_singleton.mp hp]
      exact hfate

/-- The row of the reading in hand is inserted. -/
theorem Account.inserted {data : SensorData ℚ} (h : Account os n settled [(n, data)])
    (m : Message ℚ) :
    Account (os ++ [.inserted n (.of (measurement data)), .logged m]) n
      (settled ++ [(n, data)]) [] := by
  have hrows : insertedRows (os ++ [.inserted n (.of (measurement data)), .logged m]) =
      insertedRows os ++ [rowOf (n, data)] := insertedRows_append
  have hreadings : readings
      (os ++ [.inserted n (.of (measurement data)), .logged m]) = readings os := by
    rw [readings_append]
    exact List.append_nil _
  refine ⟨?_, by rw [hreadings, h.numbers], ?_, ?_, ?_⟩
  · rw [hreadings, h.split, List.append_nil]
  · rw [hrows, List.map_append]
    exact h.rows.append (List.Sublist.refl _)
  · intro p hp
    rcases List.mem_append.mp hp with hp | hp
    · exact (h.fates p hp).append (by simp) (by simp)
    · left
      rw [List.mem_singleton.mp hp, hrows]
      exact ⟨_, List.mem_append_right _ (List.mem_singleton.mpr rfl)⟩
  · intro k hk
    obtain ⟨hprepare, hstep⟩ := h.fresh k hk
    rw [List.count_append, List.count_append, hprepare, hstep]
    exact ⟨rfl, rfl⟩

/-! ## What one step keeps -/

/-- The reading in hand and its statement, at each place of the code. -/
def At (os : List Event) (s : State) (settled : List (Nat × SensorData ℚ)) : Prop :=
  match s.pc with
  | .preparing prepareRetries =>
    ∃ data, s.data = some data ∧ s.stmt = none ∧
      Account os s.popCount settled [(s.popCount, data)] ∧
      os.count (.prepareFailed s.popCount) = prepareRetries ∧ prepareRetries ≤ maxRetries ∧
      os.count (.stepFailed s.popCount) = 0
  | .binding =>
    ∃ data handle, s.data = some data ∧ s.stmt = some ⟨handle, .none⟩ ∧
      Account os s.popCount settled [(s.popCount, data)] ∧
      os.count (.stepFailed s.popCount) = 0
  | .stepping stepRetries =>
    ∃ data handle, s.data = some data ∧ s.stmt = some ⟨handle, .of (measurement data)⟩ ∧
      Account os s.popCount settled [(s.popCount, data)] ∧
      os.count (.stepFailed s.popCount) = stepRetries ∧ stepRetries ≤ maxRetries
  | .cleanupStmt => (∃ st, s.stmt = some st) ∧ Account os s.popCount settled []
  | _ => s.stmt = none ∧ Account os s.popCount settled []

/-- The statement held. -/
def phase (s : State) : Resource.Phase Nat :=
  if s.pc = .stopped then .closed
  else
    match s.stmt with
    | some st => .held st.handle
    | none => .free

structure Inv (os : List Event) (s : State) : Prop where
  account : ∃ settled, At os s settled
  inOrder : Resource.run .free (statements os) = some (phase s)
  handles : (statements os).filterMap Resource.acquired? = List.range s.prepareCount

theorem Inv.start (shutdownFlag : Bool) : Inv [] (start shutdownFlag) :=
  ⟨⟨[], rfl, Account.start⟩, rfl, rfl⟩

theorem statements_append : statements (os ++ os') = statements os ++ statements os' :=
  List.filterMap_append

/-- A step without an event about statements. -/
theorem Inv.same {s t : State} (h : Inv os s) (hphase : phase t = phase s)
    (hcount : t.prepareCount = s.prepareCount) (hnone : statements os' = [])
    (haccount : ∃ settled, At (os ++ os') t settled) : Inv (os ++ os') t := by
  refine ⟨haccount, ?_, ?_⟩
  · rw [statements_append, hnone, List.append_nil, h.inOrder, hphase]
  · rw [statements_append, hnone, List.append_nil, h.handles, hcount]

/-- A step with events about statements that acquire none. -/
theorem Inv.moved {s t : State} (h : Inv os s)
    (hrun : Resource.run (phase s) (statements os') = some (phase t))
    (hacquired : (statements os').filterMap Resource.acquired? = [])
    (hcount : t.prepareCount = s.prepareCount)
    (haccount : ∃ settled, At (os ++ os') t settled) : Inv (os ++ os') t := by
  refine ⟨haccount, ?_, ?_⟩
  · rw [statements_append, Resource.run_append h.inOrder, hrun]
  · rw [statements_append, List.filterMap_append, hacquired, List.append_nil, h.handles, hcount]

/-- Messages are not events of a reading. -/
theorem Account.logged (h : Account os n settled busy) (logs : List (Message ℚ)) :
    Account (os ++ logs.map .logged) n settled busy := by
  refine h.quiet ?_ ?_ ?_
  · exact List.filterMap_eq_nil_iff.mpr (by simp [popped?])
  · exact List.filterMap_eq_nil_iff.mpr (by simp [inserted?])
  · intro k hk
    simp at hk

/-- No reading is in hand and the thread has not returned. -/
def Pc.Idle : Pc → Prop
  | .head | .entered | .popping _ | .popFailed _ | .cleanup => True
  | _ => False

theorem at_idle {s : State} (hidle : s.pc.Idle) :
    At os s settled ↔ s.stmt = none ∧ Account os s.popCount settled [] := by
  unfold At
  cases hpc : s.pc with
  | head => exact Iff.rfl
  | entered => exact Iff.rfl
  | popping => exact Iff.rfl
  | popFailed => exact Iff.rfl
  | cleanup => exact Iff.rfl
  | preparing => rw [hpc] at hidle; exact hidle.elim
  | binding => rw [hpc] at hidle; exact hidle.elim
  | stepping => rw [hpc] at hidle; exact hidle.elim
  | cleanupStmt => rw [hpc] at hidle; exact hidle.elim
  | stopped => exact Iff.rfl

/-- A test that leaves no reading in hand. -/
theorem Inv.idle {s t : State} (h : Inv os s) (hat : ∃ settled, s.stmt = none ∧
      Account os s.popCount settled [])
    (hpc : s.pc ≠ .stopped) (hidle : t.pc.Idle)
    (hstmt : t.stmt = none) (hpop : t.popCount = s.popCount)
    (hprepare : t.prepareCount = s.prepareCount) (logs : List (Message ℚ))
    (hlogs : os' = logs.map .logged) : Inv (os ++ os') t := by
  obtain ⟨settled, hnone, haccount⟩ := hat
  subst hlogs
  have hrunning : t.pc ≠ .stopped := by
    intro he
    rw [he] at hidle
    exact hidle
  refine h.same ?_ hprepare ?_ ⟨settled, (at_idle hidle).mpr ⟨hstmt, ?_⟩⟩
  · rw [phase, phase, if_neg hpc, if_neg hrunning, hstmt, hnone]
  · exact List.filterMap_eq_nil_iff.mpr (by simp [resource?])
  · rw [hpop]
    exact haccount.logged logs

/-- The reading in hand was given up before it had a statement. -/
theorem Inv.giveUp {s : State} {data : SensorData ℚ} {settled : List (Nat × SensorData ℚ)}
    (hstmt : s.stmt = none) (haccount : Account os s.popCount settled [(s.popCount, data)])
    (hmax : os.count (.prepareFailed s.popCount) = maxRetries) :
    ∃ settled, s.stmt = none ∧ Account os s.popCount settled [] :=
  ⟨_, hstmt, haccount.settle (Or.inr (Or.inl hmax))⟩

theorem step_inv {s t : State} {a : Act} (h : Inv os s) (hstep : step s a = some (t, os')) :
    Inv (os ++ os') t := by
  obtain ⟨settled, hat⟩ := h.account
  cases step_moves hstep with
  | leave hpc =>
    have hidle : s.pc.Idle := by
      rcases hpc with hpc | hpc | ⟨n, hpc⟩ <;> (rw [hpc]; trivial)
    have hrunning : s.pc ≠ .stopped := fun he => by rw [he] at hidle; exact hidle
    have hfree := (at_idle hidle).mp hat
    exact h.idle ⟨settled, hfree⟩ hrunning trivial hfree.1 rfl rfl [] rfl
  | enter hpc | startPop hpc =>
    rw [At, hpc] at hat
    exact h.idle ⟨settled, hat⟩ (by simp [hpc]) trivial hat.1 rfl rfl [] rfl
  | skipPop hpc | retryPop hpc =>
    rw [At, hpc] at hat
    exact h.idle ⟨settled, hat⟩ (by simp [hpc]) trivial hat.1 rfl rfl [_] rfl
  | popFails _ hpc =>
    rw [At, hpc] at hat
    exact h.idle ⟨settled, hat⟩ (by simp [hpc]) trivial hat.1 rfl rfl [] rfl
  | skipPrepare hpc hall =>
    rw [At, hpc] at hat
    obtain ⟨data, _, hstmt, haccount, hcount, hle, _⟩ := hat
    exact h.idle (Inv.giveUp hstmt haccount (by omega)) (by simp [hpc]) trivial hstmt rfl rfl
      [_] rfl
  | skipStep hpc hall =>
    rw [At, hpc] at hat
    obtain ⟨data, handle, _, hstmt, haccount, hcount, hle⟩ := hat
    have hmax : os.count (.stepFailed s.popCount) = maxRetries := by omega
    refine h.same ?_ rfl rfl ⟨_, ⟨_, hstmt⟩,
      (haccount.settle (Or.inr (Or.inr (Or.inr hmax)))).logged [_]⟩
    rw [phase, phase, if_neg (by simp), if_neg (by simp [hpc])]
  | cleanupStmt hpc =>
    rw [At, hpc] at hat
    obtain ⟨⟨st, hstmt⟩, haccount⟩ := hat
    have hphase : phase s = .held st.handle := by
      rw [phase, if_neg (by simp [hpc]), hstmt]
    rw [hstmt]
    refine h.moved ?_ rfl rfl ⟨settled, rfl, haccount.quiet rfl rfl (by simp [finalize])⟩
    rw [hphase]
    show Resource.run _ [.released st.handle] = _
    simp [Resource.run, Resource.step, phase]
  | popped data hpc =>
    rw [At, hpc] at hat
    obtain ⟨hstmt, haccount⟩ := hat
    obtain ⟨hprepare, hnone⟩ := haccount.fresh (s.popCount + 1) (Nat.lt_succ_self _)
    refine h.same ?_ rfl rfl ⟨settled, data, rfl, hstmt, haccount.popped data, ?_,
      Nat.zero_le _, ?_⟩
    · rw [phase, phase, if_neg (by simp), if_neg (by simp [hpc])]
    · rw [List.count_append, hprepare]
      simp
    · rw [List.count_append, hnone]
      simp
  | prepared hpc =>
    rw [At, hpc] at hat
    obtain ⟨data, hdata, hstmt, haccount, _, _, hnone⟩ := hat
    have hphase : phase s = .free := by
      rw [phase, if_neg (by simp [hpc]), hstmt]
    have hstatements : statements [.prepared s.popCount s.prepareCount] =
        [.acquired s.prepareCount] := rfl
    refine ⟨⟨settled, data, s.prepareCount, hdata, rfl,
      haccount.quiet rfl rfl (by simp), ?_⟩, ?_, ?_⟩
    · rw [List.count_append, hnone]
      rfl
    · rw [statements_append, Resource.run_append h.inOrder, hphase]
      rfl
    · rw [statements_append, List.filterMap_append, h.handles, hstatements]
      exact List.range_succ.symm
  | prepareFailed hpc hlt =>
    rw [At, hpc] at hat
    obtain ⟨data, hdata, hstmt, haccount, hcount, _, hnone⟩ := hat
    have hphase : phase s = .free := by
      rw [phase, if_neg (by simp [hpc]), hstmt]
    refine h.moved ?_ rfl rfl ⟨settled, data, hdata, rfl,
      haccount.quiet rfl rfl (by simp), ?_, hlt, ?_⟩
    · rw [hphase]
      rfl
    · rw [List.count_append, hcount]
      simp
    · rw [List.count_append, hnone]
      simp
  | @bound st data hpc hst hd =>
    rw [At, hpc] at hat
    obtain ⟨data', handle, hdata, hstmt, haccount, hnone⟩ := hat
    obtain rfl : data = data' := Option.some.inj (hd.symm.trans hdata)
    have hphase : phase s = .held st.handle := by
      rw [phase, if_neg (by simp [hpc]), hst]
    refine h.same hphase.symm rfl rfl ⟨settled, data, st.handle, hdata, rfl,
      haccount.quiet rfl rfl (by simp), ?_, Nat.zero_le _⟩
    rw [List.append_nil, hnone]
  | @bindFailed int double int64 st data hpc hst hd =>
    rw [At, hpc] at hat
    obtain ⟨data', handle, hdata, hstmt, haccount, hnone⟩ := hat
    obtain rfl : data = data' := Option.some.inj (hd.symm.trans hdata)
    have hphase : phase s = .held st.handle := by
      rw [phase, if_neg (by simp [hpc]), hst]
    have hfailed : Account (os ++ [.bindFailed s.popCount,
        .logged (logEvent "Failed to bind values to SQL statement" [])]) s.popCount settled
        [(s.popCount, data)] := haccount.quiet rfl rfl (by simp)
    refine h.same hphase.symm rfl rfl ⟨_, ⟨_, rfl⟩, hfailed.settle (Or.inr (Or.inr (Or.inl ?_)))⟩
    exact List.mem_append_right _ (List.mem_cons_self ..)
  | @inserted _ st hpc hst =>
    rw [At, hpc] at hat
    obtain ⟨data, handle, hdata, hstmt, haccount, _, _⟩ := hat
    obtain rfl : st = ⟨handle, .of (measurement data)⟩ := Option.some.inj (hst.symm.trans hstmt)
    refine h.same ?_ rfl rfl ⟨_, ⟨_, hst⟩, haccount.inserted _⟩
    rw [phase, phase, if_neg (by simp), if_neg (by simp [hpc])]
  | @stepFailed _ st hpc hst hlt =>
    rw [At, hpc] at hat
    obtain ⟨data, handle, hdata, hstmt, haccount, hcount, _⟩ := hat
    refine h.same ?_ rfl rfl ⟨settled, data, handle, hdata, hstmt,
      haccount.quiet rfl rfl (by simp), ?_, hlt⟩
    · rw [phase, phase, if_neg (by simp), if_neg (by simp [hpc])]
    · rw [List.count_append, hcount]
      simp
  | close ok hpc =>
    rw [At, hpc] at hat
    obtain ⟨hstmt, haccount⟩ := hat
    have hphase : phase s = .free := by
      rw [phase, if_neg (by simp [hpc]), hstmt]
    rw [hstmt]
    cases ok with
    | true =>
      refine h.moved ?_ rfl rfl ⟨settled, rfl, haccount.quiet rfl rfl (by simp [finalize])⟩
      rw [hphase]
      rfl
    | false =>
      refine h.moved ?_ rfl rfl ⟨settled, rfl, haccount.quiet rfl rfl (by simp [finalize])⟩
      rw [hphase]
      rfl
  | shutdown =>
    refine h.same rfl rfl rfl ⟨settled, ?_⟩
    rw [List.append_nil]
    exact hat

/-! ## A run -/

theorem run_inv {shutdownFlag : Bool} {as : List Act} {t : State}
    (hrun : Machine.run step (start shutdownFlag) as = some (t, os)) : Inv os t :=
  Machine.run_induction (P := fun _ os t => Inv os t) (Inv.start shutdownFlag)
    (fun _ _ _ _ _ _ _ h hstep => step_inv h hstep) hrun

/-- A reading has been popped and the loop is not done with it. -/
def Pc.Busy : Pc → Prop
  | .preparing _ | .binding | .stepping _ => True
  | _ => False

theorem At.split {s : State} (h : At os s settled) : ∃ busy,
    Account os s.popCount settled busy ∧
      ∀ p ∈ busy, s.pc.Busy ∧ p.1 = s.popCount := by
  have hnone : ∀ p ∈ ([] : List (Nat × SensorData ℚ)), s.pc.Busy ∧ p.1 = s.popCount :=
    fun _ hp => absurd hp List.not_mem_nil
  unfold At at h
  cases hpc : s.pc with
  | preparing =>
    rw [hpc] at h
    obtain ⟨data, _, _, haccount, _⟩ := h
    exact ⟨_, haccount, List.forall_mem_singleton.mpr ⟨trivial, rfl⟩⟩
  | binding =>
    rw [hpc] at h
    obtain ⟨data, _, _, _, haccount, _⟩ := h
    exact ⟨_, haccount, List.forall_mem_singleton.mpr ⟨trivial, rfl⟩⟩
  | stepping =>
    rw [hpc] at h
    obtain ⟨data, _, _, _, haccount, _⟩ := h
    exact ⟨_, haccount, List.forall_mem_singleton.mpr ⟨trivial, rfl⟩⟩
  | head => rw [hpc] at h hnone; exact ⟨[], h.2, hnone⟩
  | entered => rw [hpc] at h hnone; exact ⟨[], h.2, hnone⟩
  | popping => rw [hpc] at h hnone; exact ⟨[], h.2, hnone⟩
  | popFailed => rw [hpc] at h hnone; exact ⟨[], h.2, hnone⟩
  | cleanupStmt => rw [hpc] at h hnone; exact ⟨[], h.2, hnone⟩
  | cleanup => rw [hpc] at h hnone; exact ⟨[], h.2, hnone⟩
  | stopped => rw [hpc] at h hnone; exact ⟨[], h.2, hnone⟩

/-- The readings popped, and their rows. -/
theorem Inv.readings_rows {s : State} (h : Inv os s) :
    ((readings os).map Prod.fst).Nodup ∧
    (insertedRows os).Sublist ((readings os).map rowOf) ∧
    ∀ p ∈ readings os, (∀ row, (p.1, row) ∉ insertedRows os) →
      GaveUp os p.1 ∨ s.pc.Busy ∧ p.1 = s.popCount := by
  obtain ⟨settled, hat⟩ := h.account
  obtain ⟨busy, haccount, hbusy⟩ := hat.split
  refine ⟨?_, ?_, ?_⟩
  · rw [haccount.numbers]
    exact List.nodup_range'
  · rw [haccount.split, List.map_append]
    exact haccount.rows.trans (List.sublist_append_left _ _)
  · intro p hp hrow
    rw [haccount.split] at hp
    rcases List.mem_append.mp hp with hp | hp
    · rcases haccount.fates p hp with ⟨row, hmem⟩ | hfate
      · exact absurd hmem (hrow row)
      · exact Or.inl hfate
    · exact Or.inr (hbusy p hp)

def prepared (os : List Event) : List Nat := (statements os).filterMap Resource.acquired?

def finalized (os : List Event) : List Nat := (statements os).filterMap Resource.released?

/-- Whatever the calls return and whenever `shutdown_flag` is set: the rows are those of readings
popped, in order, each at most once; a reading that the loop is done with and that has no row was
given up; and statements are prepared one at a time, each finalized before the next prepare and
before the database is closed. -/
theorem rows_and_statements {shutdownFlag : Bool} {as : List Act} {t : State}
    (hrun : Machine.run step (start shutdownFlag) as = some (t, os)) :
    ((readings os).map Prod.fst).Nodup ∧
    (insertedRows os).Sublist ((readings os).map rowOf) ∧
    (∀ p ∈ readings os, (∀ row, (p.1, row) ∉ insertedRows os) →
      GaveUp os p.1 ∨ t.pc.Busy ∧ p.1 = t.popCount) ∧
    Resource.run .free (statements os) = some (phase t) ∧
    (prepared os).Nodup ∧ (t.pc = .stopped → finalized os = prepared os) := by
  have hinv := run_inv hrun
  obtain ⟨hnumbers, hrows, hunstored⟩ := hinv.readings_rows
  refine ⟨hnumbers, hrows, hunstored, hinv.inOrder, ?_, ?_⟩
  · rw [prepared, hinv.handles]
    exact List.nodup_range
  · intro hpc
    have hbalanced := Resource.run_balanced hinv.inOrder
    have hclosed : phase t = .closed := if_pos hpc
    rw [hclosed] at hbalanced
    exact ((List.append_nil _).symm.trans hbalanced.symm)

/- A prepare that fails once, a row, and the shutdown while the next pop fails. -/
def oneRow : List Act :=
  [.go, .go, .popped ⟨1, 20, 3⟩, .prepare false, .prepare true, .bind true true true,
    .step true, .go, .go, .go, .shutdown, .popFails none, .go, .close true]

theorem rows_and_statements_one :
    ∃ t os, Machine.run step (start false) oneRow = some (t, os) ∧
      ((readings os).map Prod.fst).Nodup ∧
      (insertedRows os).Sublist ((readings os).map rowOf) ∧
      (∀ p ∈ readings os, (∀ row, (p.1, row) ∉ insertedRows os) →
        GaveUp os p.1 ∨ t.pc.Busy ∧ p.1 = t.popCount) ∧
      Resource.run .free (statements os) = some (phase t) ∧
      (prepared os).Nodup ∧ (t.pc = .stopped → finalized os = prepared os) := by
  obtain ⟨⟨t, os⟩, hrun⟩ := Option.isSome_iff_exists.mp
    (show (Machine.run step (start false) oneRow).isSome from rfl)
  exact ⟨t, os, hrun, rows_and_statements hrun⟩

end StorageLoop
end Gateway
end LinuxEmbedded
