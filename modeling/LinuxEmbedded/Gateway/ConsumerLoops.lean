import LinuxEmbedded.Gateway.FailedCalls
import LinuxEmbedded.Gateway.ReadingLedger
import LinuxEmbedded.Gateway.StorageLoop

/-
The loop of `storage_manager` beside the buffer and beside SQLite.

`Consumers` has the thread with the shared buffer and takes the rest of an iteration
as one step; `StorageLoop` has it call by call with outcomes of its own.  Here every
run of the consumers is a run of the loop that pops and inserts the same.
-/
namespace LinuxEmbedded
namespace Gateway
namespace ConsumerLoops

open StorageLoop (Params Stmt Moves step_of_moves)

/-- What both see of the thread. -/
inductive Seen where
  | popped (data : SensorData ℚ)
  | inserted (row : Params)
  deriving DecidableEq

def loopSeen? : StorageLoop.Event → Option Seen
  | .popped _ data => some (.popped data)
  | .inserted _ row => some (.inserted row)
  | _ => none

def consumersSeen? : Consumers.Event → Option Seen
  | .buffer (.popReturned .storageManager ret (some data)) =>
    if ret = 0 then some (.popped data) else none
  | .inserted data _ => some (.inserted (.of (measurement data)))
  | _ => none

def message? : StorageLoop.Event → Option (Message ℚ)
  | .logged m => some m
  | _ => none

/-- The messages of the loop. -/
def messages (os : List StorageLoop.Event) : List (Message ℚ) := os.filterMap message?

def seen (os : List StorageLoop.Event) : List Seen := os.filterMap loopSeen?

def Seen.row? : Seen → Option Params
  | .inserted row => some row
  | _ => none

variable {os os' : List StorageLoop.Event}

@[simp] theorem messages_append : messages (os ++ os') = messages os ++ messages os' :=
  List.filterMap_append

@[simp] theorem seen_append : seen (os ++ os') = seen os ++ seen os' := List.filterMap_append

/-- The loop goes from `u` to `t`, logs `logs` and shows `shown`. -/
def Goes (u t : StorageLoop.State) (logs : List (Message ℚ)) (shown : List Seen) : Prop :=
  ∃ ls, Machine.Reaches StorageLoop.step u t ls ∧ messages ls = logs ∧ seen ls = shown

theorem Goes.refl (u : StorageLoop.State) : Goes u u [] [] := ⟨[], .refl u, rfl, rfl⟩

theorem Goes.single {u t : StorageLoop.State} {a : StorageLoop.Act}
    (h : StorageLoop.step u a = some (t, os)) : Goes u t (messages os) (seen os) :=
  ⟨os, .single h, rfl, rfl⟩

theorem Goes.trans {u v t : StorageLoop.State} {logs logs' : List (Message ℚ)}
    {shown shown' : List Seen} (h : Goes u v logs shown) (h' : Goes v t logs' shown') :
    Goes u t (logs ++ logs') (shown ++ shown') := by
  obtain ⟨ls, hgo, rfl, rfl⟩ := h
  obtain ⟨ls', hgo', rfl, rfl⟩ := h'
  exact ⟨ls ++ ls', hgo.trans hgo', messages_append, seen_append⟩

/-! ## An iteration -/

/-- The attempts to prepare, with `left` of them left. -/
theorem prepare_goes (call : Nat → Bool) : ∀ (left retries : Nat) (u : StorageLoop.State),
    retries + left = maxRetries → u.pc = .preparing retries → u.stmt = none →
      ∃ n logs t, retryLoop call "Failed to prepare insert statement, retry %d/%d" retries left =
          (n, logs) ∧
        Goes u t logs [] ∧ t.shutdownFlag = u.shutdownFlag ∧ t.data = u.data ∧
        (n = maxRetries ∧ t.pc = .preparing maxRetries ∧ t.stmt = none ∨
          n ≠ maxRetries ∧ t.pc = .binding ∧ ∃ st, t.stmt = some st) := by
  intro left
  induction left with
  | zero =>
    intro retries u hsum hpc hstmt
    obtain rfl : retries = maxRetries := hsum
    exact ⟨_, _, u, rfl, .refl u, rfl, rfl, Or.inl ⟨rfl, hpc, hstmt⟩⟩
  | succ left ih =>
    intro retries u hsum hpc hstmt
    have hlt : retries < maxRetries := by omega
    by_cases hcall : call retries = true
    · have hgo := step_of_moves (Moves.prepared hpc hlt)
      rw [retryLoop, if_pos hcall]
      exact ⟨_, _, _, rfl, .single hgo, rfl, rfl, Or.inr ⟨Nat.ne_of_lt hlt, rfl, _, rfl⟩⟩
    · have hgo := step_of_moves (Moves.prepareFailed hpc hlt)
      obtain ⟨n, logs, t, hloop, hrest, hflag, hdata, hend⟩ := ih (retries + 1)
        { u with pc := .preparing (retries + 1), stmt := none } (by omega) rfl rfl
      rw [retryLoop, if_neg hcall, hloop]
      exact ⟨_, _, t, rfl, (Goes.single hgo).trans hrest, hflag, hdata, hend⟩

/-- The attempts to insert, with `left` of them left. -/
theorem step_goes (call : Nat → Bool) : ∀ (left retries : Nat) (u : StorageLoop.State) (st : Stmt),
    retries + left = maxRetries → u.pc = .stepping retries → u.stmt = some st →
      ∃ n logs t, retryLoop call "Failed to insert row, retry %d/%d" retries left = (n, logs) ∧
        t.shutdownFlag = u.shutdownFlag ∧ t.pc = .cleanupStmt ∧
        (n = maxRetries ∧ Goes u t (logs ++ [logEvent
            "Max retries reached for inserting row, skipping this data point." []]) [] ∨
          n ≠ maxRetries ∧ Goes u t (logs ++ [logEvent "Inserted a row to SQL table" []])
            [.inserted st.params]) := by
  intro left
  induction left with
  | zero =>
    intro retries u st hsum hpc hstmt
    obtain rfl : retries = maxRetries := hsum
    have hgo := step_of_moves (Moves.skipStep hpc (Nat.lt_irrefl _))
    exact ⟨_, _, { u with pc := .cleanupStmt }, rfl, rfl, rfl, Or.inl ⟨rfl, .single hgo⟩⟩
  | succ left ih =>
    intro retries u st hsum hpc hstmt
    have hlt : retries < maxRetries := by omega
    by_cases hcall : call retries = true
    · have hgo := step_of_moves (Moves.inserted hpc hstmt hlt)
      rw [retryLoop, if_pos hcall]
      exact ⟨_, _, { u with pc := .cleanupStmt }, rfl, rfl, rfl,
        Or.inr ⟨Nat.ne_of_lt hlt, .single hgo⟩⟩
    · have hgo := step_of_moves (Moves.stepFailed hpc hstmt hlt)
      obtain ⟨n, logs, t, hloop, hflag, hend, hrest⟩ := ih (retries + 1)
        { u with pc := .stepping (retries + 1) } st (by omega) rfl hstmt
      rw [retryLoop, if_neg hcall, hloop]
      refine ⟨_, _, t, rfl, hflag, hend, hrest.imp ?_ ?_⟩
      · rintro ⟨hall, hrest⟩
        exact ⟨hall, (Goes.single hgo).trans hrest⟩
      · rintro ⟨hsome, hrest⟩
        exact ⟨hsome, (Goes.single hgo).trans hrest⟩

/-- `cleanup_stmt`. -/
theorem cleanupStmt_goes {u : StorageLoop.State} (hpc : u.pc = .cleanupStmt) :
    Goes u { u with pc := .head, stmt := none } [] [] := by
  have hsingle := Goes.single (step_of_moves (Moves.cleanupStmt hpc))
  cases hst : u.stmt <;> rw [hst] at hsingle <;> exact hsingle

/-- The rest of an iteration, on the reading popped. -/
theorem iteration_goes {u : StorageLoop.State} {data : SensorData ℚ} (calls : SqliteCalls)
    (hpc : u.pc = .preparing 0) (hdata : u.data = some data) (hstmt : u.stmt = none) :
    ∃ t, Goes u t (storageManager calls data).2
        ((storageManager calls data).1.toList.map fun row => .inserted (.of row)) ∧
      t.pc = .head ∧ t.stmt = none ∧ t.shutdownFlag = u.shutdownFlag := by
  obtain ⟨n, logs, v, hprepare, hgo, hflag, hkept, hend⟩ :=
    prepare_goes calls.prepare maxRetries 0 u (Nat.zero_add _) hpc hstmt
  rw [storageManager, hprepare]
  rcases hend with ⟨rfl, hpc, hnone⟩ | ⟨hsome, hpc, st, hst⟩
  · have hskip := step_of_moves (Moves.skipPrepare hpc (Nat.lt_irrefl _))
    simp only [if_true]
    exact ⟨_, hgo.trans (.single hskip), rfl, hnone, hflag⟩
  · simp only [if_neg hsome]
    have hin : v.data = some data := hkept.trans hdata
    cases hbind : calls.bind with
    | false =>
      -- the first of the three binds fails
      have hfail : (!false || !true || !true) = true := rfl
      have hfail := step_of_moves (Moves.bindFailed hpc hst hin hfail)
      have hlast := (hgo.trans (.single hfail)).trans (cleanupStmt_goes rfl)
      rw [List.append_nil] at hlast
      exact ⟨_, hlast, rfl, rfl, hflag⟩
    | true =>
      let w : StorageLoop.State := { v with
        pc := .stepping 0
        stmt := some { st with params := .of (measurement data) } }
      have hbound : StorageLoop.step v (.bind true true true) = some (w, []) :=
        step_of_moves (.bound hpc hst hin)
      obtain ⟨m, logs', t, hstep, hflag', hend, hrest⟩ :=
        step_goes calls.step maxRetries 0 w _ (Nat.zero_add _) rfl rfl
      rw [hstep]
      refine ⟨{ t with pc := .head, stmt := none }, ?_, rfl, rfl, hflag'.trans hflag⟩
      have hstart := hgo.trans (.single hbound)
      rcases hrest with ⟨rfl, hrest⟩ | ⟨hsome, hrest⟩
      · have hlast := (hstart.trans hrest).trans (cleanupStmt_goes hend)
        simpa [messages, seen] using hlast
      · have hlast := (hstart.trans hrest).trans (cleanupStmt_goes hend)
        simpa [messages, seen, hsome] using hlast

/-! ## Beside the buffer -/

/-- The place of the loop, with a reading popped and not yet dealt with in `data`. -/
def At : Consumers.Pc → StorageLoop.State → Prop
  | .head, u => u.pc = .head
  | .popping popRetries, u => u.pc = .popping popRetries
  | .popped data _, u => u.pc = .preparing 0 ∧ u.data = some data
  | .stopped, u => u.pc = .cleanup

structure Follows (s : Consumers.State) (u : StorageLoop.State) : Prop where
  flag : u.shutdownFlag = s.buffer.shutdownFlag
  stmt : u.stmt = none
  place : At (s.pc .storageManager) u

theorem Follows.start (sb : Sbuffer ℚ) : Follows (Consumers.start sb) (StorageLoop.start false) :=
  ⟨rfl, rfl, rfl⟩

section Step

variable {N : Nat} {s t : Consumers.State} {u : StorageLoop.State} {es : List Consumers.Event}

/-- A step that `storage_manager` has no part in. -/
theorem Follows.other (h : Follows s u) (hflag : t.buffer.shutdownFlag = s.buffer.shutdownFlag)
    (hpc : t.pc .storageManager = s.pc .storageManager) : Follows t u :=
  ⟨h.flag.trans hflag.symm, h.stmt, hpc ▸ h.place⟩

theorem Follows.goto {pc : Consumers.Pc} (hflag : u.shutdownFlag = t.buffer.shutdownFlag)
    (hstmt : u.stmt = none) (hplace : At pc u) : Follows (t.goto .storageManager pc) u :=
  ⟨hflag, hstmt, (Consumers.goto_self t .storageManager pc).symm ▸ hplace⟩

/-- What the loop answers a step with. -/
def Answers (u : StorageLoop.State) (es : List Consumers.Event) (t : Consumers.State) : Prop :=
  ∃ u' ls, Machine.Reaches StorageLoop.step u u' ls ∧
    ls.filterMap loopSeen? = es.filterMap consumersSeen? ∧ Follows t u'

/-- The loop does not move. -/
theorem Answers.stay (h : Follows t u) (hquiet : es.filterMap consumersSeen? = []) :
    Answers u es t := ⟨u, [], .refl u, hquiet.symm, h⟩

theorem seen_logged (logs : List (Message ℚ)) :
    (logs.map Consumers.Event.logged).filterMap consumersSeen? = [] := by
  rw [List.filterMap_map]
  exact List.filterMap_eq_nil_iff.mpr fun _ _ => rfl

theorem push_answers {data : SensorData ℚ} (h : Consumers.WellFormed N s) (hf : Follows s u)
    (hstep : Consumers.step s (.push data) = some (t, es)) : Answers u es t := by
  obtain ⟨⟨b, osb⟩, hcall, hstep⟩ := Option.bind_eq_some_iff.mp hstep
  obtain ⟨rfl, rfl⟩ := Prod.mk.inj (Option.some.inj hstep)
  have hpush : SbufferThreads.pushStep s.buffer .connectionManager data = some (b, osb) :=
    (Option.ite_none_left_eq_some.mp hcall).2
  rcases SbufferThreads.pushStep_cases h.buffer.sb hpush with ⟨-, rfl, rfl⟩ | ⟨-, rfl, _, rfl⟩
  · exact .stay (hf.other rfl rfl) rfl
  · refine .stay (hf.other rfl rfl) ?_
    unfold SbufferThreads.overwritten
    split
    · split <;> rfl
    · rfl

/-- A step of `data_manager`. -/
theorem dataManager_answers {now : Int} {calls : SqliteCalls} (h : Consumers.WellFormed N s)
    (hf : Follows s u)
    (hstep : Consumers.step s (.consume .dataManager now calls) = some (t, es)) :
    Answers u es t := by
  have hother : ∀ (v : Consumers.State) (pc : Consumers.Pc),
      (v.goto .dataManager pc).pc .storageManager = v.pc .storageManager :=
    Consumers.goto_of_ne (by decide)
  simp only [Consumers.step] at hstep
  cases hpc : s.pc .dataManager with
  | head =>
    rw [hpc] at hstep
    obtain ⟨rfl, rfl⟩ := Prod.mk.inj (Option.some.inj hstep)
    exact .stay (hf.other rfl (hother s _)) rfl
  | popping n =>
    rw [hpc] at hstep
    by_cases hn : n < maxRetries
    · simp only [if_pos hn] at hstep
      obtain ⟨b, osb, -, rfl, hpops⟩ := Consumers.popStep_pops h.buffer hstep
      cases hpops with
      | sleeps frame =>
        subst frame
        exact .stay (hf.other rfl rfl) rfl
      | stops frame _ | takes frame =>
        subst frame
        exact .stay (hf.other rfl (hother _ _)) rfl
    · simp only [if_neg hn] at hstep
      obtain ⟨rfl, rfl⟩ := Prod.mk.inj (Option.some.inj hstep)
      exact .stay (hf.other rfl (hother s _)) rfl
  | popped data stamp =>
    rw [hpc] at hstep
    obtain ⟨⟨m, entry⟩, -, hstep⟩ := Option.bind_eq_some_iff.mp hstep
    obtain ⟨rfl, rfl⟩ := Prod.mk.inj (Option.some.inj hstep)
    exact .stay (hf.other rfl (hother _ _)) (seen_logged entry.logs)
  | stopped =>
    rw [hpc] at hstep
    cases hstep

/-- A test of the outer loop is two tests. -/
theorem head_answers (hf : Follows s u) (hu : u.pc = .head) :
    Answers u [] (s.goto .storageManager
      (if s.buffer.shutdownFlag then .stopped else .popping 0)) := by
  by_cases hflag : s.buffer.shutdownFlag = true
  · have hgo := step_of_moves (Moves.leave (Or.inl hu) (hf.flag.trans hflag))
    rw [if_pos hflag]
    exact ⟨_, [], .single hgo, rfl, .goto hf.flag hf.stmt rfl⟩
  · have hclear : u.shutdownFlag = false := hf.flag.trans (Bool.eq_false_iff.mpr hflag)
    have hgo := step_of_moves (Moves.enter hu hclear)
    rw [if_neg hflag]
    exact ⟨_, [], .head hgo (.single (step_of_moves (.startPop rfl hclear))), rfl,
      .goto hf.flag hf.stmt rfl⟩

/-- A section of the pop loop, and the test after a failed pop. -/
theorem pop_answers {popRetries : Nat} (h : Consumers.WellFormed N s) (hf : Follows s u)
    (hu : u.pc = .popping popRetries) (hn : popRetries < maxRetries)
    (hstep : Consumers.popStep s .storageManager popRetries = some (t, es)) :
    Answers u es t := by
  obtain ⟨b, osb, -, rfl, hpops⟩ := Consumers.popStep_pops h.buffer hstep
  cases hpops with
  | sleeps frame =>
    subst frame
    exact .stay (hf.other rfl rfl) rfl
  | stops frame flag =>
    subst frame
    have hflag : u.shutdownFlag = true := hf.flag.trans flag
    have hgo := step_of_moves (Moves.popFails none hu hn)
    have hgo' : StorageLoop.step { u with pc := .popFailed popRetries } .go =
        some ({ u with pc := .cleanup }, []) :=
      step_of_moves (.leave (Or.inr (Or.inr ⟨_, rfl⟩)) hflag)
    exact ⟨_, [], .head hgo (.single hgo'), rfl, .goto hf.flag hf.stmt rfl⟩
  | @takes data stamp frame =>
    subst frame
    have hgo := step_of_moves (Moves.popped data hu hn)
    exact ⟨_, _, .single hgo, rfl, .goto hf.flag hf.stmt ⟨rfl, rfl⟩⟩

/-- The rest of an iteration. -/
theorem insert_answers {data : SensorData ℚ} {stamp : Nat} (calls : SqliteCalls)
    (hf : Follows s u) (hu : u.pc = .preparing 0) (hdata : u.data = some data) :
    Answers u (Consumers.insertStep s data stamp calls).2
      (Consumers.insertStep s data stamp calls).1 := by
  obtain ⟨t, ⟨ls, hgo, -, hseen⟩, hpc, hstmt, hflag⟩ := iteration_goes calls hu hdata hf.stmt
  refine ⟨t, ls, hgo, ?_, ?_⟩
  · show seen ls = _
    rw [hseen, Consumers.insertStep]
    split
    · next row logs hcall =>
      obtain ⟨rfl, -⟩ := storageManager_inserts_iff.mp (congrArg Prod.fst hcall)
      rw [hcall]
      show _ = .inserted (.of (measurement data)) :: (logs.map _).filterMap consumersSeen?
      rw [seen_logged]
      rfl
    · next logs hcall =>
      rw [hcall]
      exact (seen_logged logs).symm
  · rw [Consumers.insertStep]
    split
    · exact .goto (hflag.trans hf.flag) hstmt hpc
    · exact .goto (hflag.trans hf.flag) hstmt hpc

theorem storageManager_answers {now : Int} {calls : SqliteCalls} (h : Consumers.WellFormed N s)
    (hf : Follows s u)
    (hstep : Consumers.step s (.consume .storageManager now calls) = some (t, es)) :
    Answers u es t := by
  have hplace := hf.place
  simp only [Consumers.step] at hstep
  cases hpc : s.pc .storageManager with
  | head =>
    rw [hpc] at hstep hplace
    obtain ⟨rfl, rfl⟩ := Prod.mk.inj (Option.some.inj hstep)
    exact head_answers hf hplace
  | popping n =>
    rw [hpc] at hstep hplace
    have hu : u.pc = .popping n := hplace
    by_cases hn : n < maxRetries
    · simp only [if_pos hn] at hstep
      exact pop_answers h hf hu hn hstep
    · simp only [if_neg hn] at hstep
      obtain ⟨rfl, rfl⟩ := Prod.mk.inj (Option.some.inj hstep)
      have hgo := step_of_moves (Moves.skipPop hu hn)
      exact ⟨_, _, .single hgo, rfl, .goto hf.flag hf.stmt rfl⟩
  | popped data stamp =>
    rw [hpc] at hstep hplace
    have hstep : Consumers.insertStep s data stamp calls = (t, es) := Option.some.inj hstep
    have hanswers : Answers u (Consumers.insertStep s data stamp calls).2
        (Consumers.insertStep s data stamp calls).1 := insert_answers calls hf hplace.1 hplace.2
    rwa [hstep] at hanswers
  | stopped =>
    rw [hpc] at hstep
    cases hstep

/-- Every step of the consumers is answered by the loop. -/
theorem step_answers {a : Consumers.Act} (h : Consumers.WellFormed N s) (hf : Follows s u)
    (hstep : Consumers.step s a = some (t, es)) : Answers u es t := by
  cases a with
  | push data => exact push_answers h hf hstep
  | consume c now calls =>
    cases c with
    | dataManager => exact dataManager_answers h hf hstep
    | storageManager => exact storageManager_answers h hf hstep
  | shutdown =>
    obtain ⟨rfl, rfl⟩ := Prod.mk.inj (Option.some.inj hstep)
    have hgo : StorageLoop.step u .shutdown = some ({ u with shutdownFlag := true }, []) := rfl
    refine ⟨_, [], .single hgo, rfl, rfl, hf.stmt, ?_⟩
    have hplace := hf.place
    show At (s.pc .storageManager) _
    cases hpc : s.pc .storageManager <;> rw [hpc] at hplace <;> exact hplace

end Step

/-- The rows, as both see them. -/
theorem rows_seen (ls : List StorageLoop.Event) (es : List Consumers.Event) :
    (ls.filterMap loopSeen?).filterMap Seen.row? =
        (StorageLoop.insertedRows ls).map Prod.snd ∧
      (es.filterMap consumersSeen?).filterMap Seen.row? =
        (Consumers.inserted es).map fun p => .of (measurement p.1) := by
  refine ⟨?_, ?_⟩
  · rw [List.filterMap_filterMap, StorageLoop.insertedRows, List.map_filterMap]
    refine congrArg (List.filterMap · ls) (funext fun e => ?_)
    cases e <;> rfl
  · rw [List.filterMap_filterMap, Consumers.inserted, List.map_filterMap]
    refine congrArg (List.filterMap · es) (funext fun e => ?_)
    cases e with
    | buffer e =>
      cases e with
      | popReturned t ret data =>
        cases t <;> cases data <;> try rfl
        show (if ret = 0 then _ else _ : Option Seen).bind Seen.row? = _
        split <;> rfl
      | _ => rfl
    | _ => rfl

/-- In every run of the consumers `storage_manager` pops and inserts, in the same order, what a run
of its loop call by call pops and inserts, and the table holds the rows of that run. -/
theorem storage_manager_follows {N : Nat} {sb : Sbuffer ℚ} (hN : 1 ≤ N)
    {block : Option (List (SensorData ℚ))} (hblock : ∀ b, block = some b → b.length = N)
    (hinit : sbufferInit .ok (N : Int) block = some sb) {as : List Consumers.Act}
    {s : Consumers.State} {es : List Consumers.Event}
    (hrun : Machine.run Consumers.step (Consumers.start sb) as = some (s, es)) :
    ∃ u ls, Machine.Reaches StorageLoop.step (StorageLoop.start false) u ls ∧
      ls.filterMap loopSeen? = es.filterMap consumersSeen? ∧ Follows s u ∧
      s.measurements.map Params.of = (StorageLoop.insertedRows ls).map Prod.snd := by
  have hsim : ∀ s u a t es, ((∃ as es, Consumers.Ledger N as es s) ∧ Follows s u) →
      Consumers.step s a = some (t, es) → ∃ u' ls, Machine.Reaches StorageLoop.step u u' ls ∧
        ls.filterMap loopSeen? = es.filterMap consumersSeen? ∧
        (∃ as es, Consumers.Ledger N as es t) ∧ Follows t u' := by
    rintro s u a t es ⟨⟨as, es', hledger⟩, hf⟩ hstep
    obtain ⟨u', ls, hgo, hseen, hf'⟩ := step_answers hledger.wellFormed hf hstep
    exact ⟨u', ls, hgo, hseen, ⟨_, _, Consumers.ledger_step hledger hstep⟩, hf'⟩
  have hstart := Consumers.ledger_start hN hblock hinit
  obtain ⟨u, ls, hgo, hseen, -, hf⟩ :=
    Machine.run_follows hsim ⟨⟨[], [], hstart⟩, Follows.start sb⟩ hrun
  refine ⟨u, ls, hgo, hseen, hf, ?_⟩
  rw [← (rows_seen ls es).1, hseen, (rows_seen ls es).2, (Consumers.outputs_of_run hstart hrun).2,
    List.map_map]
  rfl

/- A reading is stored, popped and inserted after a prepare that fails once, and the next test of
the loop finds the flag set. -/
def rowThenFlag : List Consumers.Act :=
  let calls : SqliteCalls := ⟨fun n => n == 1, true, fun _ => true⟩
  [.push ⟨1, 20, 3⟩, .consume .storageManager 0 calls, .consume .storageManager 0 calls,
    .consume .storageManager 0 calls, .shutdown, .consume .storageManager 0 calls]

theorem storage_manager_follows_rowThenFlag :
    ∃ s es u ls,
      Machine.run Consumers.step (Consumers.start ⟨[⟨0, 0, 0⟩], 1, 0, 0, 0⟩) rowThenFlag =
        some (s, es) ∧
      Machine.Reaches StorageLoop.step (StorageLoop.start false) u ls ∧
      ls.filterMap loopSeen? = es.filterMap consumersSeen? ∧ u.pc = .cleanup ∧
      (StorageLoop.insertedRows ls).map Prod.snd = [⟨some 1, some 20, some 3⟩] := by
  have hblock := length_of_allocated (rfl : [(⟨0, 0, 0⟩ : SensorData ℚ)].length = 1)
  have hends : ((Machine.run Consumers.step (Consumers.start ⟨[⟨0, 0, 0⟩], 1, 0, 0, 0⟩)
      rowThenFlag).map fun q => (q.1.pc .storageManager, q.1.measurements)) =
        some (.stopped, [⟨1, 20, 3⟩]) := by decide +kernel
  obtain ⟨⟨s, es⟩, hrun, hs⟩ := Option.map_eq_some_iff.mp hends
  obtain ⟨hpc, hrows⟩ := Prod.mk.inj hs
  obtain ⟨u, ls, hgo, hseen, hf, hmeasurements⟩ :=
    storage_manager_follows (Nat.le_refl 1) hblock rfl hrun
  have hplace := hf.place
  rw [show s.pc .storageManager = .stopped from hpc] at hplace
  rw [show s.measurements = _ from hrows] at hmeasurements
  exact ⟨s, es, u, ls, hrun, hgo, hseen, hplace, hmeasurements.symm⟩

/-! ## Beside calls that may fail -/

/-- The place in the loop that goes on with a reading at once. -/
def failedPc : Consumers.Pc → FailedCalls.Pc
  | .head | .popped _ _ => .head
  | .popping popRetries => .popping popRetries
  | .stopped => .stopped

def failedState (s : Consumers.State) : FailedCalls.State ℚ where
  buffer := s.buffer
  pc c := failedPc (s.pc c)

/-- Every call of the step succeeds. -/
def Succeeds : FailedCalls.Act ℚ → Prop
  | .push calls _ => calls = .ok
  | .consume _ waited calls => waited = true ∧ calls = .ok
  | .shutdown => True

def buffer? : Consumers.Event → Option (SbufferThreads.Event ℚ Consumers.Thread)
  | .buffer e => some e
  | _ => none

def failedBuffer? : FailedCalls.Event ℚ → Option (SbufferThreads.Event ℚ Consumers.Thread)
  | .buffer e => some e
  | _ => none

theorem failedState_goto (s : Consumers.State) (c : Consumers.Consumer) (pc : Consumers.Pc) :
    failedState (s.goto c pc) = (failedState s).goto c (failedPc pc) := by
  unfold failedState Consumers.State.goto FailedCalls.State.goto
  congr 1
  funext c'
  exact Function.apply_update (fun _ => failedPc) s.pc c pc c'

theorem popAct_ok (s : Consumers.State) (c : Consumers.Consumer) :
    SbufferCalls.step (failedState s).buffer (FailedCalls.popAct (failedState s) c true .ok) =
      SbufferThreads.step s.buffer (Consumers.popAct s c) := by
  show SbufferCalls.step s.buffer (if s.buffer.asleep c.thread then _ else _) = _
  rw [Consumers.popAct]
  by_cases hasleep : s.buffer.asleep c.thread = true
  · rw [if_pos hasleep, if_pos hasleep, SbufferCalls.wake_ok]
  · rw [if_neg hasleep, if_neg hasleep, SbufferCalls.pop_ok]

theorem buffer_logged (logs : List (Message ℚ)) :
    (logs.map Consumers.Event.logged).filterMap buffer? = [] := by
  rw [List.filterMap_map]
  exact List.filterMap_eq_nil_iff.mpr fun _ _ => rfl

theorem buffer_map (osb : List (SbufferThreads.Event ℚ Consumers.Thread)) :
    (osb.map Consumers.Event.buffer).filterMap buffer? = osb ∧
      (osb.map FailedCalls.Event.buffer).filterMap failedBuffer? = osb := by
  constructor
  · rw [List.filterMap_map]
    exact List.filterMap_some
  · rw [List.filterMap_map]
    exact List.filterMap_some

section Failed

variable {N : Nat} {s t : Consumers.State} {es : List Consumers.Event}

/-- What the loops with failing calls answer a step with: a step whose calls succeed, or none. -/
def FailedAnswers (s : Consumers.State) (es : List Consumers.Event) (t : Consumers.State) : Prop :=
  ∃ bs ls, (∀ b ∈ bs, Succeeds b) ∧
    Machine.run FailedCalls.step (failedState s) bs = some (failedState t, ls) ∧
    ls.filterMap failedBuffer? = es.filterMap buffer?

theorem FailedAnswers.single {b : FailedCalls.Act ℚ} {u : FailedCalls.State ℚ}
    {ls : List (FailedCalls.Event ℚ)}
    (hstep : FailedCalls.step (failedState s) b = some (u, ls)) (hu : failedState t = u)
    (hb : Succeeds b) (hview : ls.filterMap failedBuffer? = es.filterMap buffer?) :
    FailedAnswers s es t :=
  ⟨[b], ls, List.forall_mem_singleton.mpr hb, hu ▸ Machine.run_single hstep, hview⟩

/-- The rest of an iteration is no step there. -/
theorem FailedAnswers.stay (hu : failedState t = failedState s)
    (hquiet : es.filterMap buffer? = []) : FailedAnswers s es t :=
  ⟨[], [], fun _ hb => absurd hb List.not_mem_nil, hu ▸ rfl, hquiet.symm⟩

theorem push_failedAnswers {data : SensorData ℚ} (h : Consumers.WellFormed N s)
    (hstep : Consumers.step s (.push data) = some (t, es)) : FailedAnswers s es t := by
  obtain ⟨⟨b, osb⟩, hcall, hstep⟩ := Option.bind_eq_some_iff.mp hstep
  obtain ⟨rfl, rfl⟩ := Prod.mk.inj (Option.some.inj hstep)
  have hpush : SbufferThreads.pushStep s.buffer .connectionManager data = some (b, osb) :=
    (Option.ite_none_left_eq_some.mp hcall).2
  have hret : osb.findSome? FailedCalls.pushRet? = some 0 := by
    rcases SbufferThreads.pushStep_cases h.buffer.sb hpush with ⟨-, -, rfl⟩ | ⟨-, -, _, rfl⟩
    · rfl
    · unfold SbufferThreads.overwritten
      split
      · split <;> rfl
      · rfl
  have hgo : FailedCalls.step (failedState s) (.push .ok data) = some
      (failedState { s with buffer := b },
        osb.map .buffer ++ [.logged (FailedCalls.pushReport 0)]) := by
    rw [FailedCalls.step, FailedCalls.pushStep, SbufferCalls.push_ok]
    show (SbufferThreads.step s.buffer _).bind _ = _
    rw [hcall]
    show (osb.findSome? FailedCalls.pushRet?).bind _ = _
    rw [hret]
    rfl
  refine .single hgo rfl rfl ?_
  rw [List.filterMap_append, (buffer_map osb).1, (buffer_map osb).2]
  exact List.append_nil osb

theorem pop_failedAnswers {c : Consumers.Consumer} {popRetries : Nat}
    (h : Consumers.WellFormed N s) (hpc : s.pc c = .popping popRetries)
    (hn : popRetries < maxRetries) (hstep : Consumers.popStep s c popRetries = some (t, es)) :
    FailedAnswers s es t := by
  obtain ⟨b, osb, hcall, rfl, hpops⟩ := Consumers.popStep_pops h.buffer hstep
  have hat : (failedState s).pc c = .popping popRetries := congrArg failedPc hpc
  have hgo : FailedCalls.step (failedState s) (.consume c true .ok) =
      FailedCalls.popStep (failedState s) c popRetries true .ok := by
    simp only [FailedCalls.step, hat, if_pos hn]
  rw [FailedCalls.popStep, popAct_ok, hcall] at hgo
  cases hpops with
  | sleeps frame => exact .single hgo rfl ⟨rfl, rfl⟩ rfl
  | stops frame flag =>
    have hflag : b.shutdownFlag = true := by rw [frame]; exact flag
    have hgo : FailedCalls.step (failedState s) (.consume c true .ok) =
        if b.shutdownFlag = true then _ else _ := hgo
    rw [if_pos hflag] at hgo
    exact .single hgo (failedState_goto _ c _) ⟨rfl, rfl⟩ rfl
  | takes frame => exact .single hgo (failedState_goto _ c _) ⟨rfl, rfl⟩ rfl

theorem insert_failedState (s : Consumers.State) (data : SensorData ℚ) (stamp : Nat)
    (calls : SqliteCalls) :
    failedState (Consumers.insertStep s data stamp calls).1 =
        (failedState s).goto .storageManager .head ∧
      (Consumers.insertStep s data stamp calls).2.filterMap buffer? = [] := by
  rw [Consumers.insertStep]
  split
  · exact ⟨failedState_goto _ _ _, buffer_logged _⟩
  · exact ⟨failedState_goto _ _ _, buffer_logged _⟩

theorem consume_failedAnswers {c : Consumers.Consumer} {now : Int} {calls : SqliteCalls}
    (h : Consumers.WellFormed N s)
    (hstep : Consumers.step s (.consume c now calls) = some (t, es)) :
    FailedAnswers s es t := by
  simp only [Consumers.step] at hstep
  have hat : (failedState s).pc c = failedPc (s.pc c) := rfl
  cases hpc : s.pc c with
  | head =>
    rw [hpc] at hstep hat
    obtain ⟨rfl, rfl⟩ := Prod.mk.inj (Option.some.inj hstep)
    have hgo : FailedCalls.step (failedState s) (.consume c true .ok) = some ((failedState s).goto c
        (if s.buffer.shutdownFlag then .stopped else .popping 0), []) := by
      simp only [FailedCalls.step, hat, failedPc]
      rfl
    refine .single hgo ?_ ⟨rfl, rfl⟩ rfl
    rw [failedState_goto, apply_ite failedPc]
    rfl
  | popping n =>
    rw [hpc] at hstep hat
    by_cases hn : n < maxRetries
    · simp only [if_pos hn] at hstep
      exact pop_failedAnswers h hpc hn hstep
    · simp only [if_neg hn] at hstep
      obtain ⟨rfl, rfl⟩ := Prod.mk.inj (Option.some.inj hstep)
      have hgo : FailedCalls.step (failedState s) (.consume c true .ok) = some
          ((failedState s).goto c .head,
            [.logged (logEvent "Max retries reached for popping data, skipping..." [])]) := by
        simp only [FailedCalls.step, hat, failedPc, if_neg hn]
      exact .single hgo (failedState_goto _ c _) ⟨rfl, rfl⟩ rfl
  | popped data stamp =>
    rw [hpc] at hstep hat
    have hhead : FailedCalls.Pc.head = (failedState s).pc c := hat.symm
    have hstay : (failedState s).goto c .head = failedState s := by
      rw [FailedCalls.State.goto, hhead, Function.update_eq_self]
    cases c with
    | dataManager =>
      obtain ⟨⟨m, entry⟩, -, hstep⟩ := Option.bind_eq_some_iff.mp hstep
      obtain ⟨rfl, rfl⟩ := Prod.mk.inj (Option.some.inj hstep)
      exact .stay ((failedState_goto _ _ _).trans hstay) (buffer_logged entry.logs)
    | storageManager =>
      have hstep : Consumers.insertStep s data stamp calls = (t, es) := Option.some.inj hstep
      obtain ⟨hstate, hquiet⟩ := insert_failedState s data stamp calls
      rw [hstep] at hstate hquiet
      exact .stay (hstate.trans hstay) hquiet
  | stopped =>
    rw [hpc] at hstep
    cases hstep

theorem step_failedAnswers {a : Consumers.Act} (h : Consumers.WellFormed N s)
    (hstep : Consumers.step s a = some (t, es)) : FailedAnswers s es t := by
  cases a with
  | push data => exact push_failedAnswers h hstep
  | consume c now calls => exact consume_failedAnswers h hstep
  | shutdown =>
    obtain ⟨rfl, rfl⟩ := Prod.mk.inj (Option.some.inj hstep)
    have hgo : FailedCalls.step (failedState s) .shutdown =
        some (failedState { s with buffer := { s.buffer with shutdownFlag := true } }, []) := rfl
    exact .single hgo rfl trivial rfl

end Failed

/-- Every run of the consumers is a run of the loops whose calls may fail, in which none does, and
which does the same to the buffer. -/
theorem failed_calls_cover {N : Nat} {sb : Sbuffer ℚ} (hN : 1 ≤ N)
    {block : Option (List (SensorData ℚ))} (hblock : ∀ b, block = some b → b.length = N)
    (hinit : sbufferInit .ok (N : Int) block = some sb) {as : List Consumers.Act}
    {s : Consumers.State} {es : List Consumers.Event}
    (hrun : Machine.run Consumers.step (Consumers.start sb) as = some (s, es)) :
    ∃ bs ls, (∀ b ∈ bs, Succeeds b) ∧
      Machine.run FailedCalls.step (FailedCalls.start sb) bs = some (failedState s, ls) ∧
      ls.filterMap failedBuffer? = es.filterMap buffer? := by
  have hstart := Consumers.ledger_start hN hblock hinit
  refine Machine.run_induction (P := fun _ es s => ∃ bs ls, (∀ b ∈ bs, Succeeds b) ∧
    Machine.run FailedCalls.step (FailedCalls.start sb) bs = some (failedState s, ls) ∧
    ls.filterMap failedBuffer? = es.filterMap buffer?) ?_ ?_ hrun
  · exact ⟨[], [], fun _ hb => absurd hb List.not_mem_nil, rfl, rfl⟩
  · rintro as es u a t es' hu ⟨bs, ls, hbs, hrun, hview⟩ hstep
    have hledger := Consumers.ledger_of_run hstart hu
    obtain ⟨cs, ls', hcs, hrun', hview'⟩ := step_failedAnswers hledger.wellFormed hstep
    refine ⟨bs ++ cs, ls ++ ls', List.forall_mem_append.mpr ⟨hbs, hcs⟩,
      Machine.run_append_eq_some.mpr ⟨_, _, _, hrun, hrun', rfl⟩, ?_⟩
    rw [List.filterMap_append, List.filterMap_append, hview, hview']

end ConsumerLoops
end Gateway
end LinuxEmbedded
