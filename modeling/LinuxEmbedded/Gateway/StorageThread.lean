import LinuxEmbedded.Gateway.StorageLoop

/-
The whole of `storage_manager`, over the starts of the gateway on one disk.

A session is one life of the thread: the directory, the database, the table, and then
the main loop.  It ends between any two calls, with the process.  Of SQLite it is used
that a row is in the file once its step has returned `SQLITE_DONE`, that `CREATE TABLE
IF NOT EXISTS` keeps the rows of a table that exists, and that `sqlite3_close` fails
exactly while a statement is not finalized.
-/
namespace LinuxEmbedded
namespace Gateway
namespace StorageThread

open StorageLoop (Params insertedRows readings rowOf GaveUp)

/-- The directory `db`, and the table `measurements` of `db/sensors.db`. -/
structure Disk where
  dir : Bool
  table : Option (List Params)

def Disk.rows (d : Disk) : List Params := d.table.getD []

def Disk.insert (d : Disk) (rows : List Params) : Disk :=
  { d with table := d.table.map fun old => old ++ rows }

/-- The places of the code before the main loop, the loop, and the early returns. -/
inductive Place where
  | start
  | mkdir
  | opening
  | creating
  | looping (s : StorageLoop.State)
  | returned

structure State where
  place : Place
  shutdownFlag : Bool
  /-- `db` is a handle that is not closed. -/
  db : Bool
  /-- The statements of the handle that are not finalized. -/
  stmts : List Nat
  disk : Disk

/-- The thread as `init_threads` starts it. -/
def boot (disk : Disk) : State where
  place := .start
  shutdownFlag := false
  db := false
  stmts := []
  disk := disk

inductive MkdirResult where
  | made
  | eexist
  | failed (strerror : String)
  deriving DecidableEq, Repr

inductive Act where
  /-- Whether `access` finds the directory. -/
  | access (found : Bool)
  | mkdir (result : MkdirResult)
  /-- Whether `sqlite3_open` returns `SQLITE_OK`, and whether it gives a handle. -/
  | sqliteOpen (ok handle : Bool) (errmsg : String)
  | createTable (ok : Bool) (errMsg : String)
  | loop (a : StorageLoop.Act)
  | shutdown

inductive Event where
  | opened
  | closed
  | loop (e : StorageLoop.Event)
  | logged (msg : String)
  deriving DecidableEq, Repr

def dbPath : String := "db" ++ "/" ++ "sensors.db"

/-- One call of the main loop, with what it does to the database. -/
def loopStep (s : State) (u : StorageLoop.State) (a : StorageLoop.Act) :
    Option (State × List Event) :=
  (StorageLoop.step u a).bind fun r =>
    let stmts := (StorageLoop.statements r.2).foldl Resource.hold s.stmts
    let next := { s with
      place := .looping r.1
      stmts := stmts
      disk := s.disk.insert ((insertedRows r.2).map Prod.snd) }
    match a with
    | .close ok =>
      if ok = stmts.isEmpty then
        some ({ next with db := !ok }, r.2.map .loop ++ if ok then [.closed] else [])
      else none
    | _ => some (next, r.2.map .loop)

def step (s : State) : Act → Option (State × List Event)
  | .access found =>
    match s.place with
    | .start =>
      let attempt := .logged ("Attempting to open database at " ++ dbPath)
      if found then
        if s.disk.dir then some ({ s with place := .opening }, [attempt]) else none
      else some ({ s with place := .mkdir }, [attempt])
    | _ => none
  | .mkdir result =>
    match s.place, result with
    | .mkdir, .made =>
      if s.disk.dir then none
      else some ({ s with place := .opening, disk := { s.disk with dir := true } }, [])
    | .mkdir, .eexist =>
      if s.disk.dir then some ({ s with place := .opening }, []) else none
    | .mkdir, .failed strerror =>
      some ({ s with place := .returned },
        [.logged ("Failed to create database directory: " ++ strerror)])
    | _, _ => none
  | .sqliteOpen ok handle errmsg =>
    match s.place with
    | .opening =>
      if ok then
        if handle && s.disk.dir then
          some ({ s with place := .creating, db := true },
            [.opened, .logged ("Connected to database " ++ dbPath)])
        else none
      else
        let failed := .logged ("Failed to open database at " ++ dbPath ++ ": " ++ errmsg)
        some ({ s with place := .returned },
          if handle then [.opened, failed, .closed] else [failed])
    | _ => none
  | .createTable ok errMsg =>
    match s.place with
    | .creating =>
      if ok then
        some ({ s with
            place := .looping (StorageLoop.start s.shutdownFlag)
            disk := { s.disk with table := some s.disk.rows } },
          [.logged "New table measurements created or already exists"])
      else
        some ({ s with place := .returned, db := false },
          [.logged ("Failed to create table: " ++ errMsg), .closed])
    | _ => none
  | .loop a =>
    match s.place with
    | .looping u => loopStep s u a
    | _ => none
  | .shutdown =>
    match s.place with
    | .looping u => loopStep s u .shutdown
    | _ => some ({ s with shutdownFlag := true }, [])

def State.Returned (s : State) : Prop :=
  match s.place with
  | .returned => True
  | .looping u => u.pc = .stopped
  | _ => False

/-- A reading with this number has been popped and the loop is not done with it. -/
def State.InHand (s : State) (n : Nat) : Prop :=
  match s.place with
  | .looping u => u.pc.Busy ∧ n = u.popCount
  | _ => False

/-! ## Histories -/

def loop? : Event → Option StorageLoop.Event
  | .loop e => some e
  | _ => none

/-- What the main loop has done. -/
def loopEvents (os : List Event) : List StorageLoop.Event := os.filterMap loop?

/-- The rows inserted. -/
def insertions (os : List Event) : List Params := (insertedRows (loopEvents os)).map Prod.snd

/-- "Failed to close database". -/
def closeFailed : Event := .loop (.logged (logEvent "Failed to close database" []))

/-- What a maintainer wants of a session that has come to `s`: rows only of readings popped, each
at most once and in order; a reading without its row given up or in hand; nothing popped unless
the start succeeded; one handle at most, closed when the thread returns, by a close that does not
fail. -/
structure Sound (os : List Event) (s : State) : Prop where
  numbers : ((readings (loopEvents os)).map Prod.fst).Nodup
  rows : (insertedRows (loopEvents os)).Sublist ((readings (loopEvents os)).map rowOf)
  unstored : ∀ p ∈ readings (loopEvents os), (∀ row, (p.1, row) ∉ insertedRows (loopEvents os)) →
    GaveUp (loopEvents os) p.1 ∨ s.InHand p.1
  started : readings (loopEvents os) ≠ [] → ∃ u, s.place = .looping u
  once : os.count .opened ≤ 1
  handles : os.count .opened = os.count .closed + if s.db then 1 else 0
  returned : s.Returned → s.db = false
  closes : closeFailed ∉ os

variable {os os' : List Event} {d : Disk} {s t : State}

theorem loopEvents_append : loopEvents (os ++ os') = loopEvents os ++ loopEvents os' :=
  List.filterMap_append

theorem loopEvents_map (es : List StorageLoop.Event) : loopEvents (es.map .loop) = es := by
  rw [loopEvents, List.filterMap_map]
  exact List.filterMap_some

theorem insertions_append : insertions (os ++ os') = insertions os ++ insertions os' := by
  rw [insertions, loopEvents_append, StorageLoop.insertedRows_append, List.map_append]
  rfl

/-! ## What a session keeps -/

/-- Where the thread is. -/
def At (os : List Event) (s : State) : Prop :=
  match s.place with
  | .looping u =>
    s.disk.table.isSome ∧ StorageLoop.Inv (loopEvents os) u ∧
      s.stmts = (StorageLoop.phase u).holding ∧ (s.db = true ↔ u.pc ≠ .stopped)
  | .returned => loopEvents os = [] ∧ s.db = false
  | .creating => loopEvents os = [] ∧ s.db = true ∧ s.stmts = []
  | _ => loopEvents os = [] ∧ s.db = false ∧ s.stmts = [] ∧ os.count .opened = 0

structure Inv (d : Disk) (os : List Event) (s : State) : Prop where
  rows : s.disk.rows = d.rows ++ insertions os
  once : os.count .opened ≤ 1
  handles : os.count .opened = os.count .closed + if s.db then 1 else 0
  closes : closeFailed ∉ os
  place : At os s

theorem Inv.start (d : Disk) : Inv d [] (boot d) where
  rows := (List.append_nil _).symm
  once := Nat.zero_le _
  handles := rfl
  closes := List.not_mem_nil
  place := ⟨rfl, rfl, rfl, rfl⟩

theorem closeFailed_not_mem (h : loopEvents os' = []) : closeFailed ∉ os' := by
  intro hmem
  have hloop : .logged (logEvent "Failed to close database" []) ∈ loopEvents os' :=
    List.mem_filterMap.mpr ⟨closeFailed, hmem, rfl⟩
  rw [h] at hloop
  cases hloop

/-- A step outside the main loop. -/
theorem Inv.outside (h : Inv d os s) (hloop : loopEvents os' = [])
    (hrows : t.disk.rows = s.disk.rows) (honce : os.count .opened + os'.count .opened ≤ 1)
    (hhandles : os'.count .opened + (if s.db then 1 else 0) =
      os'.count .closed + if t.db then 1 else 0)
    (hplace : At (os ++ os') t) : Inv d (os ++ os') t := by
  have hinsertions : insertions os' = [] := by
    rw [insertions, hloop]
    rfl
  refine ⟨?_, ?_, ?_, ?_, hplace⟩
  · rw [insertions_append, hinsertions, List.append_nil, hrows, h.rows]
  · rw [List.count_append]
    exact honce
  · have hbefore := h.handles
    rw [List.count_append, List.count_append]
    omega
  · intro hmem
    rcases List.mem_append.mp hmem with hmem | hmem
    · exact h.closes hmem
    · exact closeFailed_not_mem hloop hmem

/-- Only the clean-up closes the database. -/
theorem loop_close {u u' : StorageLoop.State} {a : StorageLoop.Act}
    {es : List StorageLoop.Event} (hstep : StorageLoop.step u a = some (u', es)) :
    (∃ ok, a = .close ok ∧ u.pc = .cleanup ∧ u'.pc = .stopped ∧
      (ok = true → .logged (logEvent "Failed to close database" []) ∉ es)) ∨
    ((∀ ok, a ≠ .close ok) ∧ (u'.pc = .stopped ↔ u.pc = .stopped) ∧
      .logged (logEvent "Failed to close database" []) ∉ es) := by
  cases StorageLoop.step_moves hstep with
  | close ok hpc =>
    refine Or.inl ⟨ok, rfl, hpc, rfl, ?_⟩
    intro hok
    rw [hok]
    cases u.stmt <;> simp [StorageLoop.finalize, logEvent]
  | leave hpc =>
    right
    rcases hpc with hpc | hpc | ⟨n, hpc⟩ <;> simp [hpc]
  | enter hpc | startPop hpc | popped _ hpc | popFails _ hpc | bound hpc =>
    right
    simp [hpc]
  | skipPop hpc | retryPop hpc | skipPrepare hpc | skipStep hpc | prepared hpc
  | prepareFailed hpc | bindFailed hpc | inserted hpc | stepFailed hpc =>
    right
    simp [hpc, logEvent]
  | cleanupStmt hpc =>
    right
    cases u.stmt <;> simp [hpc, StorageLoop.finalize]
  | shutdown =>
    right
    simp

theorem Disk.rows_insert {d : Disk} (h : d.table.isSome) (rows : List Params) :
    (d.insert rows).rows = d.rows ++ rows ∧ (d.insert rows).table.isSome := by
  obtain ⟨old, hold⟩ := Option.isSome_iff_exists.mp h
  rw [Disk.rows, Disk.rows, Disk.insert, hold]
  exact ⟨rfl, rfl⟩

/-- What the database has of statements is what the loop holds. -/
theorem hold_statements {u u' : StorageLoop.State} {es es' : List StorageLoop.Event}
    (h : StorageLoop.Inv es u) (h' : StorageLoop.Inv (es ++ es') u') :
    (StorageLoop.statements es').foldl Resource.hold (StorageLoop.phase u).holding =
      (StorageLoop.phase u').holding := by
  apply Resource.hold_run
  have hafter := h'.inOrder
  rw [StorageLoop.statements_append, Resource.run_append h.inOrder] at hafter
  exact hafter

theorem closeFailed_map {es : List StorageLoop.Event} :
    closeFailed ∈ es.map Event.loop ↔
      .logged (logEvent "Failed to close database" []) ∈ es := by
  constructor
  · intro hmem
    obtain ⟨e, he, heq⟩ := List.mem_map.mp hmem
    rw [← Event.loop.inj heq]
    exact he
  · exact fun hmem => List.mem_map_of_mem hmem

theorem count_map_loop {e : Event} (he : ∀ e', e ≠ .loop e') (es : List StorageLoop.Event) :
    (es.map Event.loop).count e = 0 := by
  apply List.count_eq_zero.mpr
  intro hmem
  obtain ⟨e', -, heq⟩ := List.mem_map.mp hmem
  exact he e' heq.symm

/-- A call of the main loop, and what the code does with the handle after it. -/
theorem Inv.inLoop (h : Inv d os s) {es : List StorageLoop.Event} {rest : List Event}
    (hrest : loopEvents rest = []) (htable : s.disk.table.isSome)
    (hdisk : t.disk = s.disk.insert ((insertedRows es).map Prod.snd))
    (hopened : rest.count .opened = 0)
    (hclosed : (if s.db then 1 else 0) = rest.count .closed + if t.db then 1 else 0)
    (hquiet : .logged (logEvent "Failed to close database" []) ∉ es)
    (hplace : At (os ++ (es.map .loop ++ rest)) t) :
    Inv d (os ++ (es.map .loop ++ rest)) t := by
  have hevents : loopEvents (es.map Event.loop ++ rest) = es := by
    rw [loopEvents_append, loopEvents_map, hrest, List.append_nil]
  have hnone : (es.map Event.loop).count .opened = 0 :=
    count_map_loop (fun e' he => by cases he) es
  have hbefore := h.handles
  refine ⟨?_, ?_, ?_, ?_, hplace⟩
  · rw [insertions_append, ← List.append_assoc, ← h.rows, hdisk, (Disk.rows_insert htable _).1,
      insertions, hevents]
  · rw [List.count_append, List.count_append, hnone, hopened]
    exact h.once
  · rw [List.count_append, List.count_append, List.count_append, List.count_append, hnone,
      hopened, count_map_loop (fun e' he => by cases he) es]
    omega
  · intro hmem
    rcases List.mem_append.mp hmem with hmem | hmem
    · exact h.closes hmem
    · rcases List.mem_append.mp hmem with hmem | hmem
      · exact hquiet (closeFailed_map.mp hmem)
      · exact closeFailed_not_mem hrest hmem

theorem loopStep_inv {u : StorageLoop.State} {a : StorageLoop.Act} (h : Inv d os s)
    (hplace : s.place = .looping u) (hstep : loopStep s u a = some (t, os')) :
    Inv d (os ++ os') t := by
  have hat := h.place
  rw [At, hplace] at hat
  obtain ⟨htable, hloop, hstmts, hdb⟩ := hat
  obtain ⟨⟨u', es⟩, hu, hstep⟩ := Option.bind_eq_some_iff.mp hstep
  have hloop' := StorageLoop.step_inv hloop hu
  have hheld : (StorageLoop.statements es).foldl Resource.hold s.stmts =
      (StorageLoop.phase u').holding := by
    rw [hstmts]
    exact hold_statements hloop hloop'
  have htable' := (Disk.rows_insert htable ((insertedRows es).map Prod.snd)).2
  have hevents : ∀ rest, loopEvents rest = [] →
      loopEvents (os ++ (es.map Event.loop ++ rest)) = loopEvents os ++ es := by
    intro rest hrest
    rw [loopEvents_append, loopEvents_append, loopEvents_map, hrest, List.append_nil]
  rcases loop_close hu with ⟨ok, rfl, hpc, hpc', hquiet⟩ | ⟨hclose, hpc, hquiet⟩
  · obtain ⟨hok, hstep⟩ := Option.ite_none_right_eq_some.mp hstep
    -- nothing is held at the end, so the close succeeds
    have hfree : (StorageLoop.phase u').holding = [] := by
      rw [StorageLoop.phase, if_pos hpc']
      rfl
    have hok : ok = true := by
      rw [hok]
      show ((StorageLoop.statements es).foldl Resource.hold s.stmts).isEmpty = true
      rw [hheld, hfree]
      rfl
    rw [hok] at hstep hquiet
    have hstep : some ({ s with
        place := .looping u'
        stmts := (StorageLoop.statements es).foldl Resource.hold s.stmts
        disk := s.disk.insert ((insertedRows es).map Prod.snd)
        db := false }, es.map Event.loop ++ [.closed]) = some (t, os') := hstep
    obtain ⟨rfl, rfl⟩ := Prod.mk.inj (Option.some.inj hstep)
    have hopen : s.db = true := hdb.mpr (by rw [hpc]; exact fun he => by cases he)
    refine h.inLoop rfl htable rfl rfl (by rw [hopen]; rfl) (hquiet rfl)
      ⟨htable', ?_, hheld, ?_⟩
    · rw [hevents _ rfl]
      exact hloop'
    · exact iff_of_false (fun he => by cases he) fun hne => hne hpc'
  · have hstep : some ({ s with
        place := .looping u'
        stmts := (StorageLoop.statements es).foldl Resource.hold s.stmts
        disk := s.disk.insert ((insertedRows es).map Prod.snd) }, es.map Event.loop) =
          some (t, os') := by
      cases a with
      | close ok => exact absurd rfl (hclose ok)
      | _ => exact hstep
    obtain ⟨rfl, rfl⟩ := Prod.mk.inj (Option.some.inj hstep)
    rw [← List.append_nil (es.map Event.loop)]
    refine h.inLoop rfl htable rfl rfl (Nat.zero_add _).symm hquiet ⟨htable', ?_, hheld, ?_⟩
    · rw [hevents _ rfl]
      exact hloop'
    · show s.db = true ↔ u'.pc ≠ .stopped
      rw [hdb, Ne, Ne, hpc]

theorem access_inv {found : Bool} (h : Inv d os s)
    (hstep : step s (.access found) = some (t, os')) : Inv d (os ++ os') t := by
  have hat := h.place
  rw [At] at hat
  simp only [step] at hstep
  split at hstep
  · next hplace =>
    rw [hplace] at hat
    obtain ⟨hloop, hdb, hstmts, hcount⟩ := hat
    have hnext : loopEvents (os ++ [.logged ("Attempting to open database at " ++ dbPath)]) =
        [] := by
      rw [loopEvents_append, hloop]
      rfl
    cases found with
    | true =>
      obtain ⟨_, hstep⟩ := Option.ite_none_right_eq_some.mp hstep
      obtain ⟨rfl, rfl⟩ := Prod.mk.inj (Option.some.inj hstep)
      refine h.outside rfl rfl h.once rfl ⟨hnext, hdb, hstmts, ?_⟩
      rw [List.count_append, hcount]
      rfl
    | false =>
      obtain ⟨rfl, rfl⟩ := Prod.mk.inj (Option.some.inj hstep)
      refine h.outside rfl rfl h.once rfl ⟨hnext, hdb, hstmts, ?_⟩
      rw [List.count_append, hcount]
      rfl
  · cases hstep

theorem mkdir_inv {result : MkdirResult} (h : Inv d os s)
    (hstep : step s (.mkdir result) = some (t, os')) : Inv d (os ++ os') t := by
  have hat := h.place
  rw [At] at hat
  simp only [step] at hstep
  split at hstep
  · next hplace =>
    rw [hplace] at hat
    obtain ⟨_, hstep⟩ := Option.ite_none_left_eq_some.mp hstep
    obtain ⟨rfl, rfl⟩ := Prod.mk.inj (Option.some.inj hstep)
    refine h.outside rfl rfl h.once rfl ?_
    rw [List.append_nil]
    exact hat
  · next hplace =>
    rw [hplace] at hat
    obtain ⟨_, hstep⟩ := Option.ite_none_right_eq_some.mp hstep
    obtain ⟨rfl, rfl⟩ := Prod.mk.inj (Option.some.inj hstep)
    refine h.outside rfl rfl h.once rfl ?_
    rw [List.append_nil]
    exact hat
  · next hplace =>
    rw [hplace] at hat
    obtain ⟨hloop, hdb, _, _⟩ := hat
    obtain ⟨rfl, rfl⟩ := Prod.mk.inj (Option.some.inj hstep)
    refine h.outside rfl rfl h.once rfl ⟨?_, hdb⟩
    rw [loopEvents_append, hloop]
    rfl
  · cases hstep

theorem sqliteOpen_inv {ok handle : Bool} {errmsg : String} (h : Inv d os s)
    (hstep : step s (.sqliteOpen ok handle errmsg) = some (t, os')) : Inv d (os ++ os') t := by
  have hat := h.place
  rw [At] at hat
  simp only [step] at hstep
  split at hstep
  · next hplace =>
    rw [hplace] at hat
    obtain ⟨hloop, hdb, hstmts, hcount⟩ := hat
    cases ok with
    | true =>
      obtain ⟨_, hstep⟩ := Option.ite_none_right_eq_some.mp hstep
      obtain ⟨rfl, rfl⟩ := Prod.mk.inj (Option.some.inj hstep)
      refine h.outside rfl rfl ?_ ?_ ⟨?_, rfl, hstmts⟩
      · rw [hcount]
        rfl
      · rw [hdb]
        rfl
      · rw [loopEvents_append, hloop]
        rfl
    | false =>
      cases handle with
      | true =>
        obtain ⟨rfl, rfl⟩ := Prod.mk.inj (Option.some.inj hstep)
        refine h.outside rfl rfl ?_ ?_ ⟨?_, hdb⟩
        · rw [hcount]
          rfl
        · rw [hdb]
          rfl
        · rw [loopEvents_append, hloop]
          rfl
      | false =>
        obtain ⟨rfl, rfl⟩ := Prod.mk.inj (Option.some.inj hstep)
        refine h.outside rfl rfl h.once rfl ⟨?_, hdb⟩
        rw [loopEvents_append, hloop]
        rfl
  · cases hstep

theorem createTable_inv {ok : Bool} {errMsg : String} (h : Inv d os s)
    (hstep : step s (.createTable ok errMsg) = some (t, os')) : Inv d (os ++ os') t := by
  have hat := h.place
  rw [At] at hat
  simp only [step] at hstep
  split at hstep
  · next hplace =>
    rw [hplace] at hat
    obtain ⟨hloop, hdb, hstmts⟩ := hat
    cases ok with
    | true =>
      obtain ⟨rfl, rfl⟩ := Prod.mk.inj (Option.some.inj hstep)
      refine h.outside rfl rfl h.once rfl ⟨rfl, ?_, hstmts, ?_⟩
      · rw [loopEvents_append, hloop]
        exact StorageLoop.Inv.start s.shutdownFlag
      · exact iff_of_true hdb fun he => by cases he
    | false =>
      obtain ⟨rfl, rfl⟩ := Prod.mk.inj (Option.some.inj hstep)
      refine h.outside rfl rfl h.once ?_ ⟨?_, rfl⟩
      · rw [hdb]
        rfl
      · rw [loopEvents_append, hloop]
        rfl
  · cases hstep

theorem step_inv {a : Act} (h : Inv d os s) (hstep : step s a = some (t, os')) :
    Inv d (os ++ os') t := by
  cases a with
  | access found => exact access_inv h hstep
  | mkdir result => exact mkdir_inv h hstep
  | sqliteOpen ok handle errmsg => exact sqliteOpen_inv h hstep
  | createTable ok errMsg => exact createTable_inv h hstep
  | loop a =>
    simp only [step] at hstep
    split at hstep
    · next u hplace => exact loopStep_inv h hplace hstep
    · cases hstep
  | shutdown =>
    simp only [step] at hstep
    split at hstep
    · next u hplace => exact loopStep_inv h hplace hstep
    · obtain ⟨rfl, rfl⟩ := Prod.mk.inj (Option.some.inj hstep)
      refine h.outside rfl rfl h.once rfl ?_
      rw [List.append_nil]
      exact h.place

theorem run_inv {as : List Act} (hrun : Machine.run step (boot d) as = some (t, os)) :
    Inv d os t :=
  Machine.run_induction (P := fun _ os t => Inv d os t) (Inv.start d)
    (fun _ _ _ _ _ _ _ h hstep => step_inv h hstep) hrun

/-! ## Sessions -/

theorem At.looping (h : At os s) (hloop : loopEvents os ≠ []) :
    ∃ u, s.place = .looping u ∧ StorageLoop.Inv (loopEvents os) u := by
  rw [At] at h
  cases hplace : s.place with
  | looping u =>
    rw [hplace] at h
    exact ⟨u, rfl, h.2.1⟩
  | returned => rw [hplace] at h; exact absurd h.1 hloop
  | creating => rw [hplace] at h; exact absurd h.1 hloop
  | start => rw [hplace] at h; exact absurd h.1 hloop
  | mkdir => rw [hplace] at h; exact absurd h.1 hloop
  | opening => rw [hplace] at h; exact absurd h.1 hloop

theorem At.returned (h : At os s) (hreturned : s.Returned) : s.db = false := by
  rw [At] at h
  rw [State.Returned] at hreturned
  cases hplace : s.place with
  | looping u =>
    rw [hplace] at h hreturned
    exact Bool.eq_false_iff.mpr fun hdb => h.2.2.2.mp hdb hreturned
  | returned => rw [hplace] at h; exact h.2
  | creating => rw [hplace] at hreturned; exact hreturned.elim
  | start => rw [hplace] at hreturned; exact hreturned.elim
  | mkdir => rw [hplace] at hreturned; exact hreturned.elim
  | opening => rw [hplace] at hreturned; exact hreturned.elim

theorem Inv.sound (h : Inv d os s) : Sound os s := by
  by_cases hloop : loopEvents os = []
  · refine ⟨?_, ?_, ?_, ?_, h.once, h.handles, h.place.returned, h.closes⟩
    · rw [hloop]
      exact List.nodup_nil
    · rw [hloop]
      exact List.Sublist.refl _
    · rw [hloop]
      exact fun p hp => absurd hp List.not_mem_nil
    · rw [hloop]
      exact fun hne => absurd rfl hne
  · obtain ⟨u, hplace, hu⟩ := h.place.looping hloop
    obtain ⟨hnumbers, hrows, hunstored⟩ := hu.readings_rows
    refine ⟨hnumbers, hrows, ?_, fun _ => ⟨u, hplace⟩, h.once, h.handles, h.place.returned,
      h.closes⟩
    intro p hp hrow
    rw [State.InHand, hplace]
    exact hunstored p hp hrow

/-- How a session ended. -/
structure End where
  events : List Event
  last : State

/-- One life of the gateway's thread, on the disk that the lives before it left. -/
def session (disk : Disk) (as : List Act) : Option (Disk × List End) :=
  (Machine.run step (boot disk) as).map fun r => (r.1.disk, [⟨r.2, r.1⟩])

/-- However often the gateway is started on a disk, whatever fails in a start or in the loop and
wherever each life ends: the table holds the rows it had and then those inserted in each life, in
order, and every life is sound. -/
theorem table_over_sessions {disk last : Disk} {lives : List (List Act)} {ends : List End}
    (hrun : Machine.run session disk lives = some (last, ends)) :
    last.rows = disk.rows ++ ends.flatMap (fun e => insertions e.events) ∧
      ∀ e ∈ ends, Sound e.events e.last := by
  refine Machine.run_induction (P := fun _ ends last =>
    last.rows = disk.rows ++ ends.flatMap (fun e => insertions e.events) ∧
      ∀ e ∈ ends, Sound e.events e.last) ?_ ?_ hrun
  · exact ⟨(List.append_nil _).symm, fun e he => absurd he List.not_mem_nil⟩
  · intro _ ends before life after ends' _ ih hsession
    obtain ⟨hrows, hsound⟩ := ih
    obtain ⟨⟨s, os⟩, hlife, heq⟩ := Option.map_eq_some_iff.mp hsession
    obtain ⟨rfl, rfl⟩ := Prod.mk.inj heq
    have hinv : Inv before os s := run_inv hlife
    refine ⟨?_, ?_⟩
    · rw [List.flatMap_append, ← List.append_assoc, ← hrows]
      show s.disk.rows = before.rows ++ (insertions os ++ [])
      rw [List.append_nil, hinv.rows]
    · intro e he
      rcases List.mem_append.mp he with he | he
      · exact hsound e he
      · rw [List.mem_singleton.mp he]
        exact hinv.sound

/- A first start that makes the directory and the table and is killed with a row stored and a
reading in hand, and a second one that cannot open the database. -/
def twoLives : List (List Act) :=
  [[.access false, .mkdir .made, .sqliteOpen true true "", .createTable true "", .loop .go,
      .loop .go, .loop (.popped ⟨1, 20, 3⟩), .loop (.prepare true), .loop (.bind true true true),
      .loop (.step true), .loop .go, .loop .go, .loop .go, .loop (.popped ⟨2, 25, 4⟩)],
    [.access true, .sqliteOpen false true "disk I/O error"]]

theorem table_over_sessions_two :
    ∃ last ends, Machine.run session ⟨false, none⟩ twoLives = some (last, ends) ∧
      last.rows = ends.flatMap (fun e => insertions e.events) ∧
      ∀ e ∈ ends, Sound e.events e.last := by
  obtain ⟨⟨last, ends⟩, hrun⟩ := Option.isSome_iff_exists.mp
    (show (Machine.run session ⟨false, none⟩ twoLives).isSome from rfl)
  exact ⟨last, ends, hrun, table_over_sessions hrun⟩

end StorageThread
end Gateway
end LinuxEmbedded
