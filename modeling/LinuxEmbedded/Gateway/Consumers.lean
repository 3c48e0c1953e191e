import LinuxEmbedded.Gateway.DataManager
import LinuxEmbedded.Gateway.SbufferFifo
import LinuxEmbedded.Gateway.StorageManager

/-
The two consumers of the shared buffer.

`connection_manager` pushes readings, `data_manager` and `storage_manager` run
their pop loops.  A step of a consumer is one section of `sbuffer_pop`, one test
of `shutdown_flag`, or the rest of an iteration after a successful pop.
`storage_manager` tests the flag once more before its pop loop, with nothing between
the two tests; here the two are one.
-/
namespace LinuxEmbedded
namespace Gateway
namespace Consumers

inductive Thread where
  | connectionManager
  | dataManager
  | storageManager
  deriving DecidableEq

inductive Consumer where
  | dataManager
  | storageManager
  deriving DecidableEq

def Consumer.thread : Consumer → Thread
  | .dataManager => .dataManager
  | .storageManager => .storageManager

/-- Where a consumer is in its loop. -/
inductive Pc where
  /-- At the test of the outer loop. -/
  | head
  /-- At the test of the pop loop, or asleep in `sbuffer_pop`. -/
  | popping (popRetries : Nat)
  /-- The pop returned `data`; `stamp` is the number of its push (ghost). -/
  | popped (data : SensorData ℚ) (stamp : Nat)
  /-- After the loop. -/
  | stopped
  deriving DecidableEq

structure State where
  buffer : SbufferThreads.State ℚ Thread
  pc : Consumer → Pc
  dataManager : DataManager ℚ
  /-- The table `measurements`. -/
  measurements : List Measurement

def start (sb : Sbuffer ℚ) : State where
  buffer := SbufferThreads.start sb
  pc _ := .head
  dataManager := .start
  measurements := []

inductive Act where
  /-- `handle_client_data` pushes a reading. -/
  | push (data : SensorData ℚ)
  /-- The consumer takes its next step, with these answers of `time` and SQLite. -/
  | consume (c : Consumer) (now : Int) (calls : SqliteCalls)
  | shutdown

inductive Event where
  | buffer (e : SbufferThreads.Event ℚ Thread)
  | logged (m : Message ℚ)
  /-- `data_manager` went through its iteration for the push with this number. -/
  | processed (entry : Entry ℚ) (stamp : Nat)
  /-- `storage_manager` inserted the row of the push with this number. -/
  | inserted (data : SensorData ℚ) (stamp : Nat)

/-- What `sbuffer_pop` returned, if it did. -/
def returned? (os : List (SbufferThreads.Event ℚ Thread)) : Option Int :=
  os.findSome? fun
    | .popReturned _ ret _ => some ret
    | _ => none

def popped? (os : List (SbufferThreads.Event ℚ Thread)) : Option (SensorData ℚ × Nat) :=
  os.findSome? fun
    | .stored (.popped data stamp) => some (data, stamp)
    | _ => none

/-- One section of `sbuffer_pop`: its entry, or a wakeup. -/
def popAct (s : State) (c : Consumer) : SbufferThreads.Act ℚ Thread :=
  if s.buffer.asleep c.thread then .wake c.thread else .pop c.thread

def State.goto (s : State) (c : Consumer) (pc : Pc) : State :=
  { s with pc := Function.update s.pc c pc }

@[simp] theorem goto_self (s : State) (c : Consumer) (pc : Pc) : (s.goto c pc).pc c = pc :=
  Function.update_self ..

@[simp] theorem goto_of_ne {c c' : Consumer} (h : c' ≠ c) (s : State) (pc : Pc) :
    (s.goto c pc).pc c' = s.pc c' := Function.update_of_ne h ..

def popStep (s : State) (c : Consumer) (popRetries : Nat) : Option (State × List Event) := do
  let (buffer, os) ← SbufferThreads.step s.buffer (popAct s c)
  match returned? os with
  | none => some ({ s with buffer }, os.map .buffer)
  | some ret =>
    if ret = 0 then do
      let (data, stamp) ← popped? os
      some (({ s with buffer }).goto c (.popped data stamp), os.map .buffer)
    else if buffer.shutdownFlag then some (({ s with buffer }).goto c .stopped, os.map .buffer)
    else
      some (({ s with buffer }).goto c (.popping (popRetries + 1)),
        os.map .buffer ++ [.logged (logEvent "Failed to pop data from sbuffer, retry %d/%d"
          [.int (popRetries + 1), .int maxRetries])])

/-- The rest of an iteration of `data_manager`. -/
def processStep (s : State) (data : SensorData ℚ) (stamp : Nat) (now : Int) :
    Option (State × List Event) := do
  let (dataManager, entry) ← Gateway.dataManager .ok s.dataManager ⟨data, now⟩
  some (({ s with dataManager }).goto .dataManager .head,
    .processed entry stamp :: entry.logs.map .logged)

/-- The rest of an iteration of `storage_manager`. -/
def insertStep (s : State) (data : SensorData ℚ) (stamp : Nat) (calls : SqliteCalls) :
    State × List Event :=
  match Gateway.storageManager calls data with
  | (some row, logs) =>
    (({ s with measurements := s.measurements ++ [row] }).goto .storageManager .head,
      .inserted data stamp :: logs.map .logged)
  | (none, logs) => (s.goto .storageManager .head, logs.map .logged)

def step (s : State) : Act → Option (State × List Event)
  | .push data => do
    let (buffer, os) ← SbufferThreads.step s.buffer (.push .connectionManager data)
    some ({ s with buffer }, os.map .buffer)
  | .consume c now calls =>
    match s.pc c with
    | .head =>
      some (s.goto c (if s.buffer.shutdownFlag then .stopped else .popping 0), [])
    | .popping popRetries =>
      if popRetries < maxRetries then popStep s c popRetries
      else
        some (s.goto c .head,
          [.logged (logEvent "Max retries reached for popping data, skipping..." [])])
    | .popped data stamp =>
      match c with
      | .dataManager => processStep s data stamp now
      | .storageManager => some (insertStep s data stamp calls)
    | .stopped => none
  | .shutdown => do
    let (buffer, os) ← SbufferThreads.step s.buffer .shutdown
    some ({ s with buffer }, os.map .buffer)

/-! ## What one step can do -/

/-- The reading a consumer has popped and not yet dealt with. -/
def Pc.held : Pc → List (SensorData ℚ × Nat)
  | .popped data stamp => [(data, stamp)]
  | _ => []

def Pc.MaySleep (pc : Pc) : Prop := ∃ n < maxRetries, pc = .popping n

inductive Moves (s : State) : Act → State → List Event → Prop where
  | push {data b os}
      (call : SbufferThreads.step s.buffer (.push .connectionManager data) = some (b, os))
      (quiet : DropOldest.pops (os.filterMap SbufferThreads.Event.stored?) = [])
      (frame : b.asleep = s.buffer.asleep) :
    Moves s (.push data) { s with buffer := b } (os.map .buffer)
  /-- A section of `sbuffer_pop`, after which the consumer is at `pc`. -/
  | pop {c now calls b os pc}
      (call : SbufferThreads.step s.buffer (popAct s c) = some (b, os))
      (free : (s.pc c).held = [])
      (got : DropOldest.pops (os.filterMap SbufferThreads.Event.stored?) = pc.held)
      (sleep : b.asleep c.thread = true → pc.MaySleep)
      (frame : ∀ t, t ≠ c.thread → b.asleep t = s.buffer.asleep t) :
    Moves s (.consume c now calls) (({ s with buffer := b }).goto c pc) (os.map .buffer)
  /-- A test of a loop. -/
  | test {c now calls pc} {logs : List (Message ℚ)} (free : (s.pc c).held = [])
      (free' : pc.held = []) (awake : s.buffer.asleep c.thread = false) :
    Moves s (.consume c now calls) (s.goto c pc) (logs.map .logged)
  | process {data stamp now calls m entry} (at_ : s.pc .dataManager = .popped data stamp)
      (call : Gateway.dataManager .ok s.dataManager ⟨data, now⟩ = some (m, entry)) :
    Moves s (.consume .dataManager now calls)
      (({ s with dataManager := m }).goto .dataManager .head)
      (.processed entry stamp :: entry.logs.map .logged)
  | insert {data stamp now calls row logs} (at_ : s.pc .storageManager = .popped data stamp)
      (call : Gateway.storageManager calls data = (some row, logs)) :
    Moves s (.consume .storageManager now calls)
      (({ s with measurements := s.measurements ++ [row] }).goto .storageManager .head)
      (.inserted data stamp :: logs.map .logged)
  | skip {data stamp now calls logs} (at_ : s.pc .storageManager = .popped data stamp)
      (call : Gateway.storageManager calls data = (none, logs)) :
    Moves s (.consume .storageManager now calls) (s.goto .storageManager .head)
      (logs.map .logged)
  | shutdown {b} (call : SbufferThreads.step s.buffer .shutdown = some (b, [])) :
    Moves s .shutdown { s with buffer := b } []

theorem step_popAct (s : State) (c : Consumer) :
    SbufferThreads.step s.buffer (popAct s c) = SbufferThreads.popStep s.buffer c.thread := by
  unfold popAct
  by_cases hc : s.buffer.asleep c.thread = true
  · rw [if_pos hc, SbufferThreads.step, if_pos hc]
  · rw [if_neg hc, SbufferThreads.step, if_neg hc]

theorem goto_same {s : State} {c : Consumer} {pc : Pc} (h : s.pc c = pc)
    (b : SbufferThreads.State ℚ Thread) :
    ({ s with buffer := b }).goto c pc = { s with buffer := b } := by
  rw [State.goto, ← h]
  simp only [Function.update_eq_self]

/-- The outcomes of one section of the pop loop. -/
inductive Pops (s : State) (c : Consumer) :
    SbufferThreads.State ℚ Thread → List (SbufferThreads.Event ℚ Thread) → State → Prop where
  | sleeps {b} (frame : b = { s.buffer with
      asleep := Function.update s.buffer.asleep c.thread true }) :
    Pops s c b [.slept c.thread] { s with buffer := b }
  | stops {b} (frame : b = { s.buffer with
      asleep := Function.update s.buffer.asleep c.thread false })
      (flag : s.buffer.shutdownFlag = true) :
    Pops s c b [.popReturned c.thread (-1) none] (({ s with buffer := b }).goto c .stopped)
  | takes {b data stamp} (frame : b = { s.buffer with
      sb := s.buffer.sb.takeTail
      asleep := Function.update s.buffer.asleep c.thread false }) :
    Pops s c b [.stored (.popped data stamp), .logged (logEvent "Data popped from buffer" []),
      .popReturned c.thread 0 (some data)] (({ s with buffer := b }).goto c (.popped data stamp))

/-- A pop sleeps, meets the flag, or takes the oldest reading. -/
theorem popStep_pops {N : Nat} {s t : State} {c : Consumer} {n : Nat} {os : List Event}
    (h : SbufferThreads.Inv N s.buffer) (hstep : popStep s c n = some (t, os)) :
    ∃ b osb, SbufferThreads.step s.buffer (popAct s c) = some (b, osb) ∧ os = osb.map .buffer ∧
      Pops s c b osb t := by
  unfold popStep at hstep
  obtain ⟨⟨b, osb⟩, hcall, hstep⟩ := Option.bind_eq_some_iff.mp hstep
  refine ⟨b, osb, hcall, ?_⟩
  have hpop := hcall
  rw [step_popAct] at hpop
  rcases SbufferThreads.popStep_cases h.sb hpop with ⟨-, -, rfl, rfl⟩ | ⟨-, hflag, rfl, rfl⟩ |
    ⟨hc, data, hdata, rfl, rfl⟩
  · obtain ⟨rfl, rfl⟩ := Prod.mk.inj (Option.some.inj hstep)
    exact ⟨rfl, .sleeps rfl⟩
  · have hfailed : ¬(-1 : Int) = 0 := by decide
    simp only [returned?, List.findSome?_cons, if_neg hfailed] at hstep
    rw [if_pos hflag] at hstep
    obtain ⟨rfl, rfl⟩ := Prod.mk.inj (Option.some.inj hstep)
    exact ⟨rfl, .stops rfl hflag⟩
  · obtain ⟨stamp, hstamp⟩ := SbufferThreads.exists_tail_stamp h
    have hgone : SbufferThreads.removed s.buffer (some data) =
        [.stored (.popped data stamp)] := by
      simp only [SbufferThreads.removed, hstamp]
    rw [hgone] at hstep ⊢
    obtain ⟨rfl, rfl⟩ := Prod.mk.inj (Option.some.inj hstep)
    exact ⟨rfl, .takes rfl⟩

theorem popStep_moves {N : Nat} {s t : State} {c : Consumer} {n : Nat} {now : Int}
    {calls : SqliteCalls} {os : List Event} (h : SbufferThreads.Inv N s.buffer)
    (hpc : s.pc c = .popping n) (hn : n < maxRetries) (hstep : popStep s c n = some (t, os)) :
    Moves s (.consume c now calls) t os := by
  have hfree : (s.pc c).held = [] := by
    rw [hpc]
    rfl
  obtain ⟨b, osb, hcall, rfl, hpops⟩ := popStep_pops h hstep
  cases hpops with
  | sleeps frame =>
    subst frame
    have hmove := @Moves.pop s c now calls _ _ (.popping n) hcall hfree rfl
      (fun _ => ⟨n, hn, rfl⟩) (fun t ht => Function.update_of_ne ht ..)
    rwa [goto_same hpc] at hmove
  | stops frame _ | takes frame =>
    subst frame
    refine .pop hcall hfree rfl ?_ (fun t ht => Function.update_of_ne ht ..)
    intro hsleep
    simp at hsleep

structure WellFormed (N : Nat) (s : State) : Prop where
  buffer : SbufferThreads.Inv N s.buffer
  /-- Only a consumer inside `sbuffer_pop` sleeps. -/
  asleep : ∀ c, s.buffer.asleep c.thread = true → (s.pc c).MaySleep

/-- Every step is one of the moves. -/
theorem step_moves {N : Nat} {s t : State} {a : Act} {os : List Event} (h : WellFormed N s)
    (hstep : step s a = some (t, os)) : Moves s a t os := by
  cases a with
  | push data =>
    obtain ⟨⟨b, osb⟩, hcall, hstep⟩ := Option.bind_eq_some_iff.mp hstep
    obtain ⟨rfl, rfl⟩ := Prod.mk.inj (Option.some.inj hstep)
    have hpush : SbufferThreads.pushStep s.buffer .connectionManager data = some (b, osb) :=
      (Option.ite_none_left_eq_some.mp hcall).2
    refine .push hcall (SbufferThreads.pops_push h.buffer.sb hpush) ?_
    rcases SbufferThreads.pushStep_cases h.buffer.sb hpush with ⟨-, rfl, -⟩ | ⟨-, rfl, -⟩
    · rfl
    · rfl
  | shutdown =>
    obtain ⟨rfl, rfl⟩ := Prod.mk.inj (Option.some.inj hstep)
    exact .shutdown rfl
  | consume c now calls =>
    -- a consumer outside the pop loop is awake
    have hawake : ¬(s.pc c).MaySleep → s.buffer.asleep c.thread = false := by
      intro hpc
      apply Bool.eq_false_iff.mpr
      intro hsleep
      exact hpc (h.asleep c hsleep)
    simp only [step] at hstep
    cases hpc : s.pc c with
    | head =>
      rw [hpc] at hstep hawake
      obtain ⟨rfl, rfl⟩ := Prod.mk.inj (Option.some.inj hstep)
      refine @Moves.test s c now calls _ [] ?_ ?_ (hawake ?_)
      · rw [hpc]
        rfl
      · by_cases hflag : s.buffer.shutdownFlag = true
        · rw [if_pos hflag]
          rfl
        · rw [if_neg hflag]
          rfl
      · rintro ⟨n, -, he⟩
        cases he
    | popping n =>
      rw [hpc] at hstep hawake
      by_cases hn : n < maxRetries
      · simp only [if_pos hn] at hstep
        exact popStep_moves h.buffer hpc hn hstep
      · simp only [if_neg hn] at hstep
        obtain ⟨rfl, rfl⟩ := Prod.mk.inj (Option.some.inj hstep)
        refine @Moves.test s c now calls _ [_] ?_ rfl (hawake ?_)
        · rw [hpc]
          rfl
        · rintro ⟨m, hm, he⟩
          cases he
          exact hn hm
    | popped data stamp =>
      rw [hpc] at hstep
      cases c with
      | dataManager =>
        obtain ⟨⟨m, entry⟩, hcall, hstep⟩ := Option.bind_eq_some_iff.mp hstep
        obtain ⟨rfl, rfl⟩ := Prod.mk.inj (Option.some.inj hstep)
        exact .process hpc hcall
      | storageManager =>
        have hstep : insertStep s data stamp calls = (t, os) := Option.some.inj hstep
        unfold insertStep at hstep
        split at hstep
        · next row logs hcall =>
          obtain ⟨rfl, rfl⟩ := Prod.mk.inj hstep
          exact .insert hpc hcall
        · next logs hcall =>
          obtain ⟨rfl, rfl⟩ := Prod.mk.inj hstep
          exact .skip hpc hcall
    | stopped =>
      rw [hpc] at hstep
      cases hstep

end Consumers
end Gateway
end LinuxEmbedded
