import LinuxEmbedded.Gateway.Consumers

/-
What becomes of a reading that was pushed.

The ledger follows every reading from its push to the consumer that popped it.
Both consumers pop from one queue, so each surviving reading reaches one of them.
-/
namespace LinuxEmbedded
namespace Gateway
namespace Consumers

/-! ## The books of a run -/

def Event.stored? : Event → Option (DropOldest.Event (SensorData ℚ))
  | .buffer e => e.stored?
  | _ => none

def Event.processed? : Event → Option (Entry ℚ × Nat)
  | .processed entry stamp => some (entry, stamp)
  | _ => none

def Event.inserted? : Event → Option (SensorData ℚ × Nat)
  | .inserted data stamp => some (data, stamp)
  | _ => none

/-- What happened to stored readings, in order. -/
def history (os : List Event) : List (DropOldest.Event (SensorData ℚ)) :=
  os.filterMap Event.stored?

/-- The readings pushed and never overwritten, with the numbers of their pushes. -/
def survivors (os : List Event) : List (SensorData ℚ × Nat) :=
  DropOldest.survivors (history os)

def processed (os : List Event) : List (Entry ℚ × Nat) := os.filterMap Event.processed?

/-- The readings `data_manager` went through an iteration for. -/
def handled (os : List Event) : List (SensorData ℚ × Nat) :=
  (processed os).map fun p => (p.1.reading.data, p.2)

/-- The readings accumulated into the average of their sensor. -/
def accumulated (os : List Event) : List (SensorData ℚ × Nat) :=
  (handled os).filter fun p => ValidId p.1.sensorId.toInt

/-- The readings inserted into `measurements`. -/
def inserted (os : List Event) : List (SensorData ℚ × Nat) := os.filterMap Event.inserted?

theorem history_append (os os' : List Event) : history (os ++ os') = history os ++ history os' :=
  List.filterMap_append

theorem processed_append (os os' : List Event) :
    processed (os ++ os') = processed os ++ processed os' :=
  List.filterMap_append

theorem handled_append (os os' : List Event) : handled (os ++ os') = handled os ++ handled os' := by
  rw [handled, processed_append, List.map_append]
  rfl

theorem inserted_append (os os' : List Event) :
    inserted (os ++ os') = inserted os ++ inserted os' :=
  List.filterMap_append

/-- The events of a call on the buffer tell its history and nothing else. -/
theorem of_buffer (os : List (SbufferThreads.Event ℚ Thread)) :
    history (os.map .buffer) = os.filterMap SbufferThreads.Event.stored? ∧
      processed (os.map .buffer) = [] ∧ inserted (os.map .buffer) = [] := by
  refine ⟨List.filterMap_map, ?_, ?_⟩
  · rw [processed, List.filterMap_map]
    exact List.filterMap_eq_nil_iff.mpr fun _ _ => rfl
  · rw [inserted, List.filterMap_map]
    exact List.filterMap_eq_nil_iff.mpr fun _ _ => rfl

theorem of_logged (logs : List (Message ℚ)) :
    history (logs.map .logged) = [] ∧ processed (logs.map .logged) = [] ∧
      inserted (logs.map .logged) = [] := by
  refine ⟨?_, ?_, ?_⟩
  · rw [history, List.filterMap_map]
    exact List.filterMap_eq_nil_iff.mpr fun _ _ => rfl
  · rw [processed, List.filterMap_map]
    exact List.filterMap_eq_nil_iff.mpr fun _ _ => rfl
  · rw [inserted, List.filterMap_map]
    exact List.filterMap_eq_nil_iff.mpr fun _ _ => rfl

/-- The readings popped and not yet dealt with. -/
def State.held (s : State) : List (SensorData ℚ × Nat) :=
  (s.pc .dataManager).held ++ (s.pc .storageManager).held

theorem count_held_goto (s : State) (c : Consumer) (pc : Pc) (p : SensorData ℚ × Nat) :
    (s.goto c pc).held.count p + (s.pc c).held.count p =
      s.held.count p + pc.held.count p := by
  rw [State.held, State.held, List.count_append, List.count_append]
  cases c with
  | dataManager =>
    show pc.held.count p + (s.pc .storageManager).held.count p + _ = _
    omega
  | storageManager =>
    show (s.pc .dataManager).held.count p + pc.held.count p + _ = _
    omega

/-- The assumptions on a step: a pushed reading is valid, and SQLite does not fail. -/
def Act.Proper : Act → Prop
  | .push data => ValidId data.sensorId.toInt
  | .consume _ _ calls => calls.Succeed
  | .shutdown => True

instance : (a : Act) → Decidable a.Proper
  | .push data => inferInstanceAs (Decidable (ValidId data.sensorId.toInt))
  | .consume _ _ calls => inferInstanceAs (Decidable calls.Succeed)
  | .shutdown => isTrue trivial

/-- A popped reading is held, handled or inserted, and leaves a consumer's hands
only by being handled or inserted. -/
theorem Moves.balance {s t : State} {a : Act} {os : List Event} (h : Moves s a t os)
    (hproper : a.Proper) (p : SensorData ℚ × Nat) :
    (DropOldest.pops (history os)).count p + s.held.count p =
      (handled os).count p + (inserted os).count p + t.held.count p := by
  cases h with
  | @push data b osb call quiet frame =>
    obtain ⟨hhistory, hprocessed, hinserted⟩ := of_buffer osb
    rw [hhistory, quiet, handled, hprocessed, hinserted]
    show 0 + s.held.count p = 0 + 0 + s.held.count p
    omega
  | @pop c now calls b osb pc call free got sleep frame =>
    obtain ⟨hhistory, hprocessed, hinserted⟩ := of_buffer osb
    have hheld := count_held_goto { s with buffer := b } c pc p
    have hfree : (s.pc c).held.count p = 0 := by
      rw [free]
      rfl
    rw [hhistory, got, handled, hprocessed, hinserted]
    show pc.held.count p + s.held.count p =
      0 + 0 + (({ s with buffer := b }).goto c pc).held.count p
    have hheld : (({ s with buffer := b }).goto c pc).held.count p + (s.pc c).held.count p =
      s.held.count p + pc.held.count p := hheld
    omega
  | @test c now calls pc logs free free' awake =>
    obtain ⟨hhistory, hprocessed, hinserted⟩ := of_logged logs
    have hheld := count_held_goto s c pc p
    rw [free, free'] at hheld
    rw [hhistory, handled, hprocessed, hinserted]
    show 0 + s.held.count p = 0 + 0 + (s.goto c pc).held.count p
    have hheld : (s.goto c pc).held.count p + 0 = s.held.count p + 0 := hheld
    omega
  | @process data stamp now calls m entry at_ call =>
    obtain ⟨hhistory, hprocessed, hinserted⟩ := of_logged entry.logs
    have hreading := dataManager_reading call
    have hheld := count_held_goto { s with dataManager := m } .dataManager .head p
    have hheld : (({ s with dataManager := m }).goto .dataManager .head).held.count p +
      (s.pc .dataManager).held.count p = s.held.count p + 0 := hheld
    rw [at_] at hheld
    have hhandled : handled (.processed entry stamp :: entry.logs.map .logged) =
        [(data, stamp)] := by
      show (entry.reading.data, stamp) :: handled (entry.logs.map .logged) = _
      rw [handled, hprocessed, hreading]
      rfl
    show (DropOldest.pops (history (entry.logs.map .logged))).count p + s.held.count p =
      _ + (inserted (entry.logs.map .logged)).count p + _
    rw [hhistory, hhandled, hinserted]
    have hheld : _ + List.count p [(data, stamp)] = s.held.count p + 0 := hheld
    show 0 + s.held.count p = _ + 0 + _
    omega
  | @insert data stamp now calls row logs at_ call =>
    obtain ⟨hhistory, hprocessed, hinserted⟩ := of_logged logs
    have hheld := count_held_goto
      { s with measurements := s.measurements ++ [row] } .storageManager .head p
    have hheld : (({ s with measurements := s.measurements ++ [row] }).goto
        .storageManager .head).held.count p +
      (s.pc .storageManager).held.count p = s.held.count p + 0 := hheld
    rw [at_] at hheld
    have hins : inserted (.inserted data stamp :: logs.map .logged) = [(data, stamp)] := by
      show (data, stamp) :: inserted (logs.map .logged) = _
      rw [hinserted]
    show (DropOldest.pops (history (logs.map .logged))).count p + s.held.count p =
      (handled (logs.map .logged)).count p + _ + _
    rw [hhistory, handled, hprocessed, hins]
    have hheld : _ + List.count p [(data, stamp)] = s.held.count p + 0 := hheld
    show 0 + s.held.count p = 0 + _ + _
    omega
  | @skip data stamp now calls logs at_ call =>
    -- excluded: SQLite does not fail
    have hrow := storageManager_of_succeed hproper data
    rw [call] at hrow
    cases hrow
  | shutdown call =>
    show 0 + s.held.count p = 0 + 0 + s.held.count p
    omega

/-! ## Runs -/

theorem thread_ne {c c' : Consumer} (h : c' ≠ c) : c'.thread ≠ c.thread := by
  cases c with
  | dataManager =>
    cases c' with
    | dataManager => exact absurd rfl h
    | storageManager => exact nofun
  | storageManager =>
    cases c' with
    | dataManager => exact nofun
    | storageManager => exact absurd rfl h

/-- Moving a consumer that is awake, or into a place where it may sleep, keeps the
sleepers inside `sbuffer_pop`. -/
theorem asleep_goto {s : State} {c : Consumer} {pc : Pc}
    (h : ∀ c', c' ≠ c → s.buffer.asleep c'.thread = true → (s.pc c').MaySleep)
    (hc : s.buffer.asleep c.thread = true → pc.MaySleep) (c' : Consumer)
    (hsleep : (s.goto c pc).buffer.asleep c'.thread = true) :
    ((s.goto c pc).pc c').MaySleep := by
  show (Function.update s.pc c pc c').MaySleep
  by_cases he : c' = c
  · rw [he, Function.update_self]
    rw [he] at hsleep
    exact hc hsleep
  · rw [Function.update_of_ne he]
    exact h c' he hsleep

theorem WellFormed.awake_of_popped {N : Nat} {s : State} (h : WellFormed N s) {c : Consumer}
    {data : SensorData ℚ} {stamp : Nat} (hpc : s.pc c = .popped data stamp) :
    s.buffer.asleep c.thread = false := by
  apply Bool.eq_false_iff.mpr
  intro hsleep
  obtain ⟨n, -, he⟩ := h.asleep c hsleep
  rw [hpc] at he
  cases he

/-- A step of a consumer that is awake and leaves the buffer alone. -/
theorem refines_of_quiet {N : Nat} {s u : State} {c : Consumer} {pc : Pc} {os : List Event}
    {q : DropOldest.State (SensorData ℚ)} (hw : WellFormed N s)
    (hR : SbufferThreads.Refines N s.buffer q) (hbuffer : u.buffer = s.buffer)
    (hpc : u.pc = s.pc) (hawake : s.buffer.asleep c.thread = false) (hquiet : history os = []) :
    ∃ bs q', Machine.run (DropOldest.step N) q bs = some (q', history os) ∧
      WellFormed N (u.goto c pc) ∧ SbufferThreads.Refines N (u.goto c pc).buffer q' := by
  rw [← hbuffer] at hR hawake
  refine ⟨[], q, ?_, ⟨hR.inv, asleep_goto ?_ ?_⟩, hR⟩
  · rw [hquiet]
    rfl
  · intro c' _ hsleep
    rw [hpc]
    apply hw.asleep c'
    rw [← hbuffer]
    exact hsleep
  · intro hsleep
    rw [hawake] at hsleep
    cases hsleep

/-- The buffer of the system refines the queue machine, whatever the consumers do. -/
theorem Moves.refines {N : Nat} {s t : State} {a : Act} {os : List Event}
    {q : DropOldest.State (SensorData ℚ)} (h : Moves s a t os) (hw : WellFormed N s)
    (hR : SbufferThreads.Refines N s.buffer q) :
    ∃ bs q', Machine.run (DropOldest.step N) q bs = some (q', history os) ∧
      WellFormed N t ∧ SbufferThreads.Refines N t.buffer q' := by
  cases h with
  | @push data b osb call quiet frame =>
    obtain ⟨bs, q', hrun, hR'⟩ := SbufferThreads.step_refines hR call
    refine ⟨bs, q', ?_, ⟨hR'.inv, ?_⟩, hR'⟩
    · rw [(of_buffer osb).1]
      exact hrun
    · intro c hsleep
      apply hw.asleep c
      rw [← frame]
      exact hsleep
  | @pop c now calls b osb pc call free got sleep frame =>
    obtain ⟨bs, q', hrun, hR'⟩ := SbufferThreads.step_refines hR call
    refine ⟨bs, q', ?_, ⟨hR'.inv, asleep_goto ?_ sleep⟩, hR'⟩
    · rw [(of_buffer osb).1]
      exact hrun
    · intro c' hne hsleep
      apply hw.asleep c'
      rw [← frame _ (thread_ne hne)]
      exact hsleep
  | @test c now calls pc logs free free' awake =>
    exact refines_of_quiet hw hR rfl rfl awake (of_logged logs).1
  | @process data stamp now calls m entry at_ call =>
    exact refines_of_quiet (u := { s with dataManager := m }) hw hR rfl rfl
      (hw.awake_of_popped at_) (of_logged entry.logs).1
  | @insert data stamp now calls row logs at_ call =>
    exact refines_of_quiet (u := { s with measurements := s.measurements ++ [row] }) hw hR rfl
      rfl (hw.awake_of_popped at_) (of_logged logs).1
  | @skip data stamp now calls logs at_ call =>
    exact refines_of_quiet hw hR rfl rfl (hw.awake_of_popped at_) (of_logged logs).1
  | shutdown call =>
    obtain ⟨bs, q', hrun, hR'⟩ := SbufferThreads.step_refines hR call
    obtain ⟨rfl, -⟩ := Prod.mk.inj (Option.some.inj call)
    exact ⟨bs, q', hrun, ⟨hR'.inv, hw.asleep⟩, hR'⟩

/-- The readings pushed by a schedule. -/
def pushedReadings (as : List Act) : List (SensorData ℚ) :=
  as.filterMap fun
    | .push data => some data
    | _ => none

theorem pushes_of_quiet {os : List Event} {c : Consumer} {now : Int} {calls : SqliteCalls}
    (hquiet : history os = []) :
    (DropOldest.pushes (history os)).map Prod.fst = pushedReadings [.consume c now calls] := by
  rw [hquiet]
  rfl

theorem Moves.pushes {N : Nat} {s t : State} {a : Act} {os : List Event} (h : Moves s a t os)
    (hw : WellFormed N s) :
    (DropOldest.pushes (history os)).map Prod.fst = pushedReadings [a] := by
  cases h with
  | @push data b osb call quiet frame =>
    rw [(of_buffer osb).1, (SbufferThreads.step_adds hw.buffer call).pushes]
    rfl
  | @pop c now calls b osb pc call free got sleep frame =>
    rw [(of_buffer osb).1, (SbufferThreads.step_adds hw.buffer call).pushes]
    by_cases hc : s.buffer.asleep c.thread = true
    · rw [popAct, if_pos hc]
      rfl
    · rw [popAct, if_neg hc]
      rfl
  | @test c now calls pc logs free free' awake => exact pushes_of_quiet (of_logged logs).1
  | @process data stamp now calls m entry at_ call =>
    exact pushes_of_quiet (of_logged entry.logs).1
  | @insert data stamp now calls row logs at_ call => exact pushes_of_quiet (of_logged logs).1
  | @skip data stamp now calls logs at_ call => exact pushes_of_quiet (of_logged logs).1
  | shutdown call => rfl

/-- What holds after every run. -/
structure Ledger (N : Nat) (as : List Act) (os : List Event) (s : State) : Prop where
  wellFormed : WellFormed N s
  queue : ∃ bs q, Machine.run (DropOldest.step N) DropOldest.empty bs = some (q, history os) ∧
    SbufferThreads.Refines N s.buffer q
  pushes : (DropOldest.pushes (history os)).map Prod.fst = pushedReadings as
  balance : (∀ a ∈ as, a.Proper) → ∀ p, (DropOldest.pops (history os)).count p =
    (handled os).count p + (inserted os).count p + s.held.count p

theorem ledger_start {N : Nat} {sb : Sbuffer ℚ} (hN : 1 ≤ N)
    {block : Option (List (SensorData ℚ))} (hblock : ∀ b, block = some b → b.length = N)
    (hinit : sbufferInit .ok (N : Int) block = some sb) : Ledger N [] [] (start sb) := by
  obtain ⟨hinv, hempty⟩ := @SbufferThreads.inv_start ℚ Thread _ _ hN _ hblock hinit
  refine ⟨⟨hinv, ?_⟩, ⟨[], DropOldest.empty, rfl, hinv, hempty.symm, rfl⟩, rfl, ?_⟩
  · intro c hsleep
    cases hsleep
  · intro _ p
    rfl

theorem ledger_step {N : Nat} {as : List Act} {os os' : List Event} {s t : State} {a : Act}
    (h : Ledger N as os s) (hstep : step s a = some (t, os')) :
    Ledger N (as ++ [a]) (os ++ os') t := by
  have hmove := step_moves h.wellFormed hstep
  obtain ⟨bs, q, hrun, hR⟩ := h.queue
  obtain ⟨bs', q', hrun', hwt, hR'⟩ := hmove.refines h.wellFormed hR
  refine ⟨hwt, ⟨bs ++ bs', q', ?_, hR'⟩, ?_, ?_⟩
  · rw [history_append]
    exact Machine.run_append_eq_some.mpr ⟨q, _, _, hrun, hrun', rfl⟩
  · rw [history_append, DropOldest.pushes_append, List.map_append, h.pushes,
      hmove.pushes h.wellFormed]
    exact List.filterMap_append.symm
  · intro hproper p
    have hbefore := h.balance (fun a' ha' => hproper a' (List.mem_append_left _ ha')) p
    have hnow := hmove.balance
      (hproper a (List.mem_append_right _ (List.mem_singleton_self a))) p
    rw [history_append, DropOldest.pops_append, handled_append, inserted_append,
      List.count_append, List.count_append, List.count_append]
    omega

theorem ledger_of_run {N : Nat} {sb : Sbuffer ℚ} {as : List Act} {os : List Event} {s : State}
    (hstart : Ledger N [] [] (start sb)) (h : Machine.run step (start sb) as = some (s, os)) :
    Ledger N as os s :=
  Machine.run_induction (P := fun as os u => Ledger N as os u) hstart
    (fun _ _ _ _ _ _ _ hu ha => ledger_step hu ha) h

/-- The averages are those of the readings the data manager handled, in order, and
the table holds the rows of the readings the storage manager inserted. -/
theorem outputs_of_run {N : Nat} {sb : Sbuffer ℚ} {as : List Act} {os : List Event} {s : State}
    (hstart : Ledger N [] [] (start sb)) (h : Machine.run step (start sb) as = some (s, os)) :
    Machine.run dataManagerStep .start ((processed os).map fun p => p.1.reading) =
        some (s.dataManager, (processed os).map Prod.fst) ∧
      s.measurements = (inserted os).map fun p => measurement p.1 := by
  refine (Machine.run_induction
    (P := fun as os u => Ledger N as os u ∧
      (Machine.run dataManagerStep .start ((processed os).map fun p => p.1.reading) =
        some (u.dataManager, (processed os).map Prod.fst) ∧
      u.measurements = (inserted os).map fun p => measurement p.1))
    ⟨hstart, rfl, rfl⟩ ?_ h).2
  intro as os u a t os' hrun ⟨hledger, haverages, hrows⟩ hstep
  refine ⟨ledger_step hledger hstep, ?_⟩
  rw [processed_append, inserted_append]
  have hquiet : processed os' = [] → inserted os' = [] → t.dataManager = u.dataManager →
      t.measurements = u.measurements →
      Machine.run dataManagerStep .start ((processed os ++ processed os').map
          fun p => p.1.reading) =
        some (t.dataManager, (processed os ++ processed os').map Prod.fst) ∧
      t.measurements = (inserted os ++ inserted os').map fun p => measurement p.1 := by
    intro hp hi hd hm
    rw [hp, hi, hd, hm, List.append_nil, List.append_nil]
    exact ⟨haverages, hrows⟩
  cases step_moves hledger.wellFormed hstep with
  | @push data b osb call quiet frame =>
    exact hquiet (of_buffer osb).2.1 (of_buffer osb).2.2 rfl rfl
  | @pop c now calls b osb pc call free got sleep frame =>
    exact hquiet (of_buffer osb).2.1 (of_buffer osb).2.2 rfl rfl
  | @test c now calls pc logs free free' awake =>
    exact hquiet (of_logged logs).2.1 (of_logged logs).2.2 rfl rfl
  | @skip data stamp now calls logs at_ call =>
    exact hquiet (of_logged logs).2.1 (of_logged logs).2.2 rfl rfl
  | shutdown call => exact hquiet rfl rfl rfl rfl
  | @process data stamp now calls m entry at_ call =>
    have hprocessed : processed (.processed entry stamp :: entry.logs.map .logged) =
        [(entry, stamp)] := by
      show (entry, stamp) :: processed (entry.logs.map .logged) = _
      rw [(of_logged entry.logs).2.1]
    have hinserted : inserted (.processed entry stamp :: entry.logs.map .logged) = [] :=
      (of_logged entry.logs).2.2
    have hsingle : dataManagerStep u.dataManager entry.reading = some (m, [entry]) := by
      rw [dataManagerStep, dataManager_reading call, call]
      rfl
    rw [hprocessed, hinserted, List.append_nil, List.map_append, List.map_append]
    exact ⟨Machine.run_snoc_eq_some.mpr ⟨_, _, _, haverages, hsingle, rfl⟩, hrows⟩
  | @insert data stamp now calls row logs at_ call =>
    have hprocessed : processed (.inserted data stamp :: logs.map .logged) = [] :=
      (of_logged logs).2.1
    have hinserted : inserted (.inserted data stamp :: logs.map .logged) = [(data, stamp)] := by
      show (data, stamp) :: inserted (logs.map .logged) = _
      rw [(of_logged logs).2.2]
    have hrow : row = measurement data := by
      have hsome : (Gateway.storageManager calls data).1 = some row := by rw [call]
      exact (storageManager_inserts_iff.mp hsome).1
    rw [hprocessed, hinserted, List.append_nil, List.map_append]
    refine ⟨haverages, ?_⟩
    show u.measurements ++ [row] = _
    rw [hrows, hrow]
    rfl

/-! ## Where a reading ends up -/

/-- Both consumers wait on the empty buffer. -/
def State.Blocked (s : State) : Prop :=
  s.buffer.sb.count = 0 ∧ s.buffer.asleep .dataManager = true ∧
    s.buffer.asleep .storageManager = true

instance (s : State) : Decidable s.Blocked := inferInstanceAs (Decidable (_ ∧ _))

/-- The reading was accumulated once and inserted once. -/
def ReachedBoth (os : List Event) (p : SensorData ℚ × Nat) : Prop :=
  (accumulated os).count p = 1 ∧ (inserted os).count p = 1

instance (os : List Event) (p : SensorData ℚ × Nat) : Decidable (ReachedBoth os p) :=
  inferInstanceAs (Decidable (_ ∧ _))

theorem held_of_maySleep {pc : Pc} (h : pc.MaySleep) : pc.held = [] := by
  obtain ⟨n, -, rfl⟩ := h
  rfl

theorem WellFormed.held_of_blocked {N : Nat} {s : State} (h : WellFormed N s)
    (hblocked : s.Blocked) : s.held = [] := by
  obtain ⟨-, hdata, hstorage⟩ := hblocked
  rw [State.held, held_of_maySleep (h.asleep .dataManager hdata),
    held_of_maySleep (h.asleep .storageManager hstorage)]
  rfl

theorem mem_pushedReadings {as : List Act} {data : SensorData ℚ} :
    data ∈ pushedReadings as ↔ .push data ∈ as := by
  rw [pushedReadings, List.mem_filterMap]
  constructor
  · rintro ⟨a, ha, he⟩
    cases a with
    | push data' =>
      cases he
      exact ha
    | consume => cases he
    | shutdown => cases he
  · intro h
    exact ⟨_, h, rfl⟩

/-- When both consumers are blocked, what survived was popped. -/
theorem Ledger.survivors_eq {N : Nat} {as : List Act} {os : List Event} {s : State}
    (h : Ledger N as os s) (hblocked : s.Blocked) :
    survivors os = DropOldest.pops (history os) := by
  obtain ⟨bs, q, hrun, hR⟩ := h.queue
  have hempty : q.queue = [] := by
    apply List.eq_nil_of_length_eq_zero
    rw [hR.queue_eq, SbufferThreads.stampedQueue_length hR.inv]
    exact hblocked.1
  rw [survivors, (DropOldest.run_accounts hrun).kept, hempty, List.append_nil]

theorem Ledger.survivors_nodup {N : Nat} {as : List Act} {os : List Event} {s : State}
    (h : Ledger N as os s) : (survivors os).Nodup := by
  obtain ⟨bs, q, hrun, hR⟩ := h.queue
  exact List.Nodup.of_map Prod.snd (DropOldest.run_accounts hrun).survivors_nodup

theorem Ledger.valid_of_survivor {N : Nat} {as : List Act} {os : List Event} {s : State}
    (h : Ledger N as os s) (hproper : ∀ a ∈ as, a.Proper) {p : SensorData ℚ × Nat}
    (hp : p ∈ survivors os) : ValidId p.1.sensorId.toInt := by
  have hpushed : p.1 ∈ pushedReadings as := by
    rw [← h.pushes]
    exact List.mem_map_of_mem (List.mem_of_mem_filter hp)
  exact hproper _ (mem_pushedReadings.mp hpushed)

/-- A surviving reading reaches exactly one of the two consumers. -/
theorem Ledger.one_consumer {N : Nat} {as : List Act} {os : List Event} {s : State}
    (h : Ledger N as os s) (hproper : ∀ a ∈ as, a.Proper) (hblocked : s.Blocked)
    {p : SensorData ℚ × Nat} (hp : p ∈ survivors os) :
    (accumulated os).count p + (inserted os).count p = 1 := by
  have hvalid : decide (ValidId p.1.sensorId.toInt) = true :=
    decide_eq_true (h.valid_of_survivor hproper hp)
  have hcount : (accumulated os).count p = (handled os).count p :=
    List.count_filter
      (p := fun p : SensorData ℚ × Nat => decide (ValidId p.1.sensorId.toInt)) hvalid
  have hbalance := h.balance hproper p
  rw [← h.survivors_eq hblocked, List.count_eq_one_of_mem h.survivors_nodup hp,
    h.wellFormed.held_of_blocked hblocked] at hbalance
  have hbalance : 1 = (handled os).count p + (inserted os).count p + 0 := hbalance
  omega

/-- Once both consumers are blocked, every surviving reading is in the averages or
in the table but never in both, so readings reach both only when there are none. -/
theorem readings_reach_both_iff_none_pushed {N : Nat} {block : Option (List (SensorData ℚ))}
    {sb : Sbuffer ℚ} {as : List Act} {s : State} {os : List Event}
    (hN : 1 ≤ N) (hblock : ∀ b, block = some b → b.length = N)
    (hinit : sbufferInit .ok (N : Int) block = some sb)
    (hrun : Machine.run step (start sb) as = some (s, os))
    (hproper : ∀ a ∈ as, a.Proper) (hblocked : s.Blocked) :
    ((∀ p ∈ survivors os, ReachedBoth os p) ↔ ∀ data, .push data ∉ as) ∧
    ∀ p ∈ survivors os, (accumulated os).count p + (inserted os).count p = 1 := by
  have hledger := ledger_of_run (ledger_start hN hblock hinit) hrun
  have hone : ∀ p ∈ survivors os, (accumulated os).count p + (inserted os).count p = 1 :=
    fun p hp => hledger.one_consumer hproper hblocked hp
  refine ⟨?_, hone⟩
  constructor
  · intro hboth data hpush
    -- the reading, or a later one, survives
    have hpushes : DropOldest.pushes (history os) ≠ [] := by
      intro hnone
      have hmem : data ∈ pushedReadings as := mem_pushedReadings.mpr hpush
      rw [← hledger.pushes, hnone] at hmem
      cases hmem
    obtain ⟨bs, q, hq, -⟩ := hledger.queue
    obtain ⟨p, hp⟩ := List.exists_mem_of_ne_nil _ (DropOldest.survivors_ne_nil hq hpushes)
    obtain ⟨haccumulated, hinserted⟩ := hboth p hp
    have hsum := hone p hp
    omega
  · intro hnone p hp
    have hpushed : p.1 ∈ pushedReadings as := by
      rw [← hledger.pushes]
      exact List.mem_map_of_mem (List.mem_of_mem_filter hp)
    exact absurd (mem_pushedReadings.mp hpushed) (hnone p.1)

/-- A consumer comes back to its pop and falls asleep. -/
def blocks (c : Consumer) : List Act :=
  [.consume c 100 ⟨fun _ => true, true, fun _ => true⟩,
    .consume c 100 ⟨fun _ => true, true, fun _ => true⟩]

/-- A consumer comes back to its pop, takes a reading and goes through with it. -/
def takes (c : Consumer) : List Act :=
  blocks c ++ [.consume c 100 ⟨fun _ => true, true, fun _ => true⟩]

/-- Two readings, one for each consumer. -/
theorem readings_reach_both_iff_none_pushed_two_readings :
    ∃ (sb : Sbuffer ℚ) (s : State) (os : List Event),
      sbufferInit .ok 2 (some [⟨0, 0, 0⟩, ⟨0, 0, 0⟩]) = some sb ∧
      Machine.run step (start sb) ([.push ⟨1, 20, 100⟩, .push ⟨2, 30, 100⟩] ++
        takes .dataManager ++ takes .storageManager ++ blocks .dataManager ++
        blocks .storageManager) = some (s, os) ∧
      ∀ p ∈ survivors os, (accumulated os).count p + (inserted os).count p = 1 := by
  have hmap : (Machine.run step (start ⟨[⟨0, 0, 0⟩, ⟨0, 0, 0⟩], 2, 0, 0, 0⟩)
      ([.push ⟨1, 20, 100⟩, .push ⟨2, 30, 100⟩] ++
        takes .dataManager ++ takes .storageManager ++ blocks .dataManager ++
        blocks .storageManager)).map (fun q => decide q.1.Blocked) = some true := by
    decide +kernel
  obtain ⟨⟨s, os⟩, hrun, hblocked⟩ := Option.map_eq_some_iff.mp hmap
  refine ⟨⟨[⟨0, 0, 0⟩, ⟨0, 0, 0⟩], 2, 0, 0, 0⟩, s, os, rfl, hrun, ?_⟩
  have hblock := length_of_allocated (rfl : [(⟨0, 0, 0⟩ : SensorData ℚ), ⟨0, 0, 0⟩].length = 2)
  exact (readings_reach_both_iff_none_pushed (by decide) hblock rfl hrun (by decide +kernel)
    (of_decide_eq_true hblocked)).2

/-- One reading, popped by the data manager: no row is inserted for it. -/
theorem accumulated_reading_is_not_inserted :
    ∃ (sb : Sbuffer ℚ) (s : State) (os : List Event),
      sbufferInit .ok 2 (some [⟨0, 0, 0⟩, ⟨0, 0, 0⟩]) = some sb ∧
      Machine.run step (start sb) ([.push ⟨1, 20, 100⟩] ++ takes .dataManager ++
        blocks .dataManager ++ blocks .storageManager) = some (s, os) ∧
      s.Blocked ∧ (⟨1, 20, 100⟩, 0) ∈ survivors os ∧ ¬ReachedBoth os (⟨1, 20, 100⟩, 0) ∧
      s.measurements = [] := by
  have hmap : (Machine.run step (start ⟨[⟨0, 0, 0⟩, ⟨0, 0, 0⟩], 2, 0, 0, 0⟩)
      ([.push ⟨1, 20, 100⟩] ++ takes .dataManager ++ blocks .dataManager ++
        blocks .storageManager)).map
      (fun q => (decide q.1.Blocked, survivors q.2, (inserted q.2).length, q.1.measurements)) =
      some (true, [(⟨1, 20, 100⟩, 0)], 0, []) := by
    decide +kernel
  obtain ⟨⟨s, os⟩, hrun, heq⟩ := Option.map_eq_some_iff.mp hmap
  obtain ⟨hblocked, heq⟩ := Prod.mk.inj heq
  obtain ⟨hsurvivors, heq⟩ := Prod.mk.inj heq
  obtain ⟨hinserted, hrows⟩ := Prod.mk.inj heq
  refine ⟨⟨[⟨0, 0, 0⟩, ⟨0, 0, 0⟩], 2, 0, 0, 0⟩, s, os, rfl, hrun, of_decide_eq_true hblocked,
    ?_, ?_, hrows⟩
  · rw [show survivors os = [(⟨1, 20, 100⟩, 0)] from hsurvivors]
    exact List.mem_singleton_self _
  · intro hboth
    have hone := hboth.2
    rw [show inserted os = [] from List.eq_nil_of_length_eq_zero hinserted] at hone
    cases hone

end Consumers
end Gateway
end LinuxEmbedded
