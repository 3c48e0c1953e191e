import LinuxEmbedded.Gateway.LogStream
import LinuxEmbedded.Lib.Machine

/-
The life of the log process, `main.c` and `log.c`.

`main` forks the log process, and from then on the gateway and its child only
share the FIFO, if there is one yet.  A call of `log_event` is one step: its
mutex is held throughout.  The child can die at any moment, of the SIGTERM `main`
sends it, of a SIGINT that the terminal sends to both, or by `exit(1)` after a
failed call.
-/
namespace LinuxEmbedded
namespace Gateway
namespace LogProcess

open Framing (Byte)

/-- Where the log process is in `log_process_run`. -/
inductive LogProcessPc where
  | starting
  /-- In `open(fifo_path, O_RDONLY)`, which waits for a writer. -/
  | opening
  | reading
  /-- These lines of the last read are not in the file yet. -/
  | writing (lines : List (List LogStream.Cell))
  | dead
  deriving DecidableEq

/-- Where `main` is, from the fork on. -/
inductive MainPc where
  | forked
  | running
  | stopping
  | killed
  /-- `waitpid` has returned; the argument says whether it succeeded. -/
  | reaped (ok : Bool)
  | finishing
  | exiting
  | exited
  deriving DecidableEq

structure State where
  /-- `/tmp/logFifo` is there. -/
  fifoExists : Bool
  /-- The gateway has it open, `fifo_fd != -1`. -/
  fifoFd : Bool
  fifo : List LogStream.Cell
  main : MainPc
  logProcess : LogProcessPc
  seqNum : BitVec 32
  /-- What this run appended to the log file. -/
  file : List (LogStream.Entry LogStream.Cell)
  /-- The number of calls of `log_event` so far (ghost). -/
  calls : Nat

/-- The FIFO of an earlier run may still be there. -/
def start (fifoExists : Bool) : State where
  fifoExists := fifoExists
  fifoFd := false
  fifo := []
  main := .forked
  logProcess := .starting
  seqNum := 1
  file := []
  calls := 0

inductive Act where
  /-- `main` takes its next step; `waitpid` succeeds or not. -/
  | main (ok : Bool)
  /-- Some thread of the gateway logs a message. -/
  | log (msg : List Byte)
  /-- The log process takes its next step; a read returns `n` bytes. -/
  | logProcess (n : Nat)
  | dies

inductive Event where
  /-- The call with this number was given this message. -/
  | passed (call : Nat) (msg : List Byte)
  deriving DecidableEq

def text (s : String) : List Byte := s.toList.map fun c => BitVec.ofNat 8 c.toNat

def finalMessage : List Byte := text "Sensor gateway shut down successfully"

/-- `log_event`.  The FIFO is opened by the first call that finds it; a write that
does not fit into a FIFO of `capacity` bytes fails with `EAGAIN`. -/
def logEvent (capacity : Nat) (s : State) (msg : List Byte) : State × List Event :=
  let call := s.calls
  let s := { s with calls := call + 1 }
  if s.fifoFd || s.fifoExists then
    let bytes := LogStream.msgWithNewline (call, LogStream.newline)
      (LogStream.numbered call msg)
    let s := { s with fifoFd := true }
    if s.fifo.length + bytes.length ≤ capacity then
      ({ s with fifo := s.fifo ++ bytes }, [.passed call msg])
    else (s, [.passed call msg])
  else (s, [.passed call msg])

/-- Log a message and go on to `pc`. -/
def logAndGo (capacity : Nat) (s : State) (msg : List Byte) (pc : MainPc) :
    State × List Event :=
  let q := logEvent capacity s msg
  ({ q.1 with main := pc }, q.2)

def mainStep (capacity portNum : Nat) (s : State) (ok : Bool) : Option (State × List Event) :=
  match s.main with
  | .forked =>
    some (logAndGo capacity s (text s!"Sensor gateway started on port {portNum}") .running)
  | .running => some (logAndGo capacity s (text "Shutdown") .stopping)
  | .stopping => some ({ s with main := .killed }, [])
  | .killed =>
    -- with or without an error, `waitpid` returns when the child is gone
    if s.logProcess = .dead then some ({ s with main := .reaped ok }, []) else none
  | .reaped true => some (logAndGo capacity s (text "Log process terminated") .finishing)
  | .reaped false =>
    some (logAndGo capacity s (text "Failed to wait for log process") .finishing)
  | .finishing => some (logAndGo capacity s finalMessage .exiting)
  | .exiting => some ({ s with main := .exited }, [])
  | .exited => none

def logProcessStep (s : State) (n : Nat) : Option State :=
  match s.logProcess with
  | .starting => some { s with fifoExists := true, logProcess := .opening }
  | .opening => if s.fifoFd then some { s with logProcess := .reading } else none
  | .reading =>
    if 1 ≤ n ∧ n ≤ 4095 ∧ n ≤ s.fifo.length then
      some { s with
        fifo := s.fifo.drop n
        logProcess := .writing (LogStream.lines Prod.snd (s.fifo.take n)) }
    else none
  | .writing [] => some { s with logProcess := .reading }
  | .writing (line :: rest) =>
    some { s with
      file := s.file ++ [⟨s.seqNum, line⟩]
      seqNum := s.seqNum + 1
      logProcess := .writing rest }
  | .dead => none

def step (capacity portNum : Nat) (s : State) : Act → Option (State × List Event)
  | .main ok => mainStep capacity portNum s ok
  | .log msg =>
    if s.main = .forked ∨ s.main = .exited then none else some (logEvent capacity s msg)
  | .logProcess n =>
    if s.main = .exited then none else (logProcessStep s n).map fun t => (t, [])
  | .dies =>
    if s.main = .exited ∨ s.logProcess = .dead then none
    else some ({ s with logProcess := .dead }, [])

/-- Some entry of the log file holds something of the message. -/
def InFile (file : List (LogStream.Entry LogStream.Cell)) (call : Nat) : Prop :=
  ∃ entry ∈ file, ∃ cell ∈ entry.line, cell.1 = call

instance (file : List (LogStream.Entry LogStream.Cell)) (call : Nat) :
    Decidable (InFile file call) :=
  inferInstanceAs (Decidable (∃ entry ∈ file, _))

/-- Every message passed to `log_event` is in the log file. -/
def AllLogged (os : List Event) (file : List (LogStream.Entry LogStream.Cell)) : Prop :=
  ∀ call msg, .passed call msg ∈ os → InFile file call

/-! ## What one step can do -/

theorem logEvent_spec (capacity : Nat) (s : State) (msg : List Byte) :
    ∃ fifo fifoFd, logEvent capacity s msg =
        ({ s with fifo, fifoFd, calls := s.calls + 1 }, [.passed s.calls msg]) ∧
      ∀ cell ∈ fifo, cell ∈ s.fifo ∨ cell.1 = s.calls := by
  have hbytes : ∀ cell ∈ LogStream.msgWithNewline (s.calls, LogStream.newline)
      (LogStream.numbered s.calls msg), cell.1 = s.calls := by
    intro cell hcell
    rcases List.mem_append.mp (List.mem_of_mem_take hcell) with hcell | hcell
    · exact LogStream.numbered_fst hcell
    · rw [List.mem_singleton.mp hcell]
  unfold logEvent
  by_cases hopen : (s.fifoFd || s.fifoExists) = true
  · simp only [if_pos hopen]
    split
    · refine ⟨_, true, rfl, ?_⟩
      intro cell hcell
      rcases List.mem_append.mp hcell with hcell | hcell
      · exact Or.inl hcell
      · exact Or.inr (hbytes cell hcell)
    · exact ⟨s.fifo, true, rfl, fun cell hcell => Or.inl hcell⟩
  · simp only [if_neg hopen]
    exact ⟨s.fifo, s.fifoFd, rfl, fun cell hcell => Or.inl hcell⟩

/-- The child is known to be dead. -/
def MainPc.pastWait : MainPc → Bool
  | .reaped _ | .finishing | .exiting | .exited => true
  | _ => false

/-- The last message has been logged. -/
def MainPc.pastFinal : MainPc → Bool
  | .exiting | .exited => true
  | _ => false

/-- The moves of the gateway and of its child. -/
inductive Moves (s : State) : State → List Event → Prop where
  /-- A call of `log_event`, after which `main` is at `pc`. -/
  | log {fifo fifoFd msg pc}
      (bytes : ∀ cell ∈ fifo, cell ∈ s.fifo ∨ cell.1 = s.calls)
      (wait : pc.pastWait = s.main.pastWait)
      (final : pc.pastFinal = true → s.main.pastFinal = true ∨ msg = finalMessage) :
    Moves s { s with fifo, fifoFd, calls := s.calls + 1, main := pc } [.passed s.calls msg]
  | main {pc} (wait : pc.pastWait = true → s.main.pastWait = true ∨ s.logProcess = .dead)
      (final : pc.pastFinal = s.main.pastFinal) :
    Moves s { s with main := pc } []
  | opens {fifoExists pc} (alive : s.logProcess ≠ .dead)
      (quiet : ∀ lines, pc ≠ .writing lines) :
    Moves s { s with fifoExists, logProcess := pc } []
  | read {n} (alive : s.logProcess ≠ .dead) :
    Moves s { s with
      fifo := s.fifo.drop n
      logProcess := .writing (LogStream.lines Prod.snd (s.fifo.take n)) } []
  | write {line rest} (at_ : s.logProcess = .writing (line :: rest)) :
    Moves s { s with
      file := s.file ++ [⟨s.seqNum, line⟩]
      seqNum := s.seqNum + 1
      logProcess := .writing rest } []

theorem logAndGo_moves {capacity : Nat} {s t : State} {msg : List Byte} {pc : MainPc}
    {os : List Event} (hstep : logAndGo capacity s msg pc = (t, os))
    (wait : pc.pastWait = s.main.pastWait)
    (final : pc.pastFinal = true → s.main.pastFinal = true ∨ msg = finalMessage) :
    Moves s t os := by
  obtain ⟨fifo, fifoFd, hlog, hbytes⟩ := logEvent_spec capacity s msg
  rw [logAndGo, hlog] at hstep
  obtain ⟨rfl, rfl⟩ := Prod.mk.inj hstep
  exact .log hbytes wait final

theorem step_moves {capacity portNum : Nat} {s t : State} {a : Act} {os : List Event}
    (hstep : step capacity portNum s a = some (t, os)) : Moves s t os := by
  cases a with
  | main ok =>
    have hstep : mainStep capacity portNum s ok = some (t, os) := hstep
    unfold mainStep at hstep
    split at hstep
    · next h =>
      exact logAndGo_moves (Option.some.inj hstep) (by rw [h]; rfl) (by simp [MainPc.pastFinal])
    · next h =>
      exact logAndGo_moves (Option.some.inj hstep) (by rw [h]; rfl) (by simp [MainPc.pastFinal])
    · next h =>
      obtain ⟨rfl, rfl⟩ := Prod.mk.inj (Option.some.inj hstep)
      exact .main (by simp [MainPc.pastWait]) (by rw [h]; rfl)
    · next h =>
      obtain ⟨hdead, ht⟩ := Option.ite_none_right_eq_some.mp hstep
      obtain ⟨rfl, rfl⟩ := Prod.mk.inj (Option.some.inj ht)
      exact .main (fun _ => Or.inr hdead) (by rw [h]; rfl)
    · next h =>
      exact logAndGo_moves (Option.some.inj hstep) (by rw [h]; rfl) (by simp [MainPc.pastFinal])
    · next h =>
      exact logAndGo_moves (Option.some.inj hstep) (by rw [h]; rfl) (by simp [MainPc.pastFinal])
    · next h =>
      exact logAndGo_moves (Option.some.inj hstep) (by rw [h]; rfl) (fun _ => Or.inr rfl)
    · next h =>
      obtain ⟨rfl, rfl⟩ := Prod.mk.inj (Option.some.inj hstep)
      exact .main (fun _ => Or.inl (by rw [h]; rfl)) (by rw [h]; rfl)
    · cases hstep
  | log msg =>
    obtain ⟨_, ht⟩ := Option.ite_none_left_eq_some.mp hstep
    obtain ⟨fifo, fifoFd, hlog, hbytes⟩ := logEvent_spec capacity s msg
    rw [hlog] at ht
    obtain ⟨rfl, rfl⟩ := Prod.mk.inj (Option.some.inj ht)
    exact .log hbytes rfl Or.inl
  | logProcess n =>
    obtain ⟨_, ht⟩ := Option.ite_none_left_eq_some.mp hstep
    obtain ⟨u, hu, ht⟩ := Option.map_eq_some_iff.mp ht
    obtain ⟨rfl, rfl⟩ := Prod.mk.inj ht
    unfold logProcessStep at hu
    split at hu
    · next h =>
      rw [← Option.some.inj hu]
      exact .opens (by rw [h]; simp) (by simp)
    · next h =>
      obtain ⟨_, hu⟩ := Option.ite_none_right_eq_some.mp hu
      rw [← Option.some.inj hu]
      exact @Moves.opens s s.fifoExists .reading (by rw [h]; simp) (by simp)
    · next h =>
      obtain ⟨_, hu⟩ := Option.ite_none_right_eq_some.mp hu
      rw [← Option.some.inj hu]
      exact .read (by rw [h]; simp)
    · next h =>
      rw [← Option.some.inj hu]
      exact @Moves.opens s s.fifoExists .reading (by rw [h]; simp) (by simp)
    · next line rest h =>
      rw [← Option.some.inj hu]
      exact .write h
    · cases hu
  | dies =>
    obtain ⟨halive, ht⟩ := Option.ite_none_left_eq_some.mp hstep
    obtain ⟨rfl, rfl⟩ := Prod.mk.inj (Option.some.inj ht)
    exact @Moves.opens s s.fifoExists .dead (fun h => halive (Or.inr h)) (by simp)

/-! ## What is in the file -/

def LogProcessPc.pending : LogProcessPc → List (List LogStream.Cell)
  | .writing lines => lines
  | _ => []

/-- Only bytes of calls that have been made are under way, and once the child is
dead nothing reaches the file. -/
structure Inv (s : State) : Prop where
  fifo : ∀ cell ∈ s.fifo, cell.1 < s.calls
  pending : ∀ line ∈ s.logProcess.pending, ∀ cell ∈ line, cell.1 < s.calls
  file : ∀ entry ∈ s.file, ∀ cell ∈ entry.line, cell.1 < s.calls
  dead : s.main.pastWait = true → s.logProcess = .dead

theorem inv_start (fifoExists : Bool) : Inv (start fifoExists) where
  fifo := by simp [start]
  pending := by simp [start, LogProcessPc.pending]
  file := by simp [start]
  dead := by simp [start, MainPc.pastWait]

/-- The cells of a line are among those read. -/
theorem mem_of_mem_lines {buffer line : List LogStream.Cell} {cell : LogStream.Cell}
    (hline : line ∈ LogStream.lines Prod.snd buffer) (hcell : cell ∈ line) : cell ∈ buffer := by
  have hmem : cell ∈ (LogStream.lines Prod.snd buffer).flatten :=
    List.mem_flatten_of_mem hline hcell
  rw [LogStream.lines, Tokens.tokens_flatten] at hmem
  exact (List.takeWhile_sublist _).subset (List.mem_of_mem_filter hmem)

theorem Inv.moves {s t : State} {os : List Event} (h : Inv s) (hmove : Moves s t os) : Inv t := by
  cases hmove with
  | log bytes wait final =>
    refine ⟨?_, ?_, ?_, ?_⟩
    · intro cell hcell
      rcases bytes cell hcell with hcell | hcell
      · exact Nat.lt_succ_of_lt (h.fifo cell hcell)
      · rw [hcell]
        exact Nat.lt_succ_self _
    · intro line hline cell hcell
      exact Nat.lt_succ_of_lt (h.pending line hline cell hcell)
    · intro entry hentry cell hcell
      exact Nat.lt_succ_of_lt (h.file entry hentry cell hcell)
    · intro hw
      exact h.dead (wait ▸ hw)
  | main wait final =>
    refine ⟨h.fifo, h.pending, h.file, ?_⟩
    intro hw
    rcases wait hw with hw | hdead
    · exact h.dead hw
    · exact hdead
  | @opens fifoExists pc alive quiet =>
    refine ⟨h.fifo, ?_, h.file, fun hw => absurd (h.dead hw) alive⟩
    cases pc with
    | writing lines => exact absurd rfl (quiet lines)
    | _ => simp [LogProcessPc.pending]
  | read alive =>
    refine ⟨?_, ?_, h.file, fun hw => absurd (h.dead hw) alive⟩
    · intro cell hcell
      exact h.fifo cell (List.mem_of_mem_drop hcell)
    · intro line hline cell hcell
      exact h.fifo cell (List.mem_of_mem_take (mem_of_mem_lines hline hcell))
  | write at_ =>
    have hpending := h.pending
    rw [at_] at hpending
    refine ⟨h.fifo, ?_, ?_, ?_⟩
    · intro line hline
      exact hpending line (List.mem_cons_of_mem _ hline)
    · intro entry hentry
      rcases List.mem_append.mp hentry with hentry | hentry
      · exact h.file entry hentry
      · rw [List.mem_singleton.mp hentry]
        exact hpending _ List.mem_cons_self
    · intro hw
      have hdead := h.dead hw
      rw [at_] at hdead
      cases hdead

/-- The message of this call will not come into the file any more. -/
def Lost (os : List Event) (s : State) : Prop :=
  ∃ call, .passed call finalMessage ∈ os ∧ call < s.calls ∧ ¬InFile s.file call

theorem Lost.moves {os os' : List Event} {s t : State} (hdead : s.logProcess = .dead)
    (hlost : Lost os s)
    (hmove : Moves s t os') : Lost (os ++ os') t := by
  obtain ⟨call, hpassed, hcall, hnot⟩ := hlost
  have hpassed : Event.passed call finalMessage ∈ os ++ os' := List.mem_append_left _ hpassed
  cases hmove with
  | log _ _ _ => exact ⟨call, hpassed, Nat.lt_succ_of_lt hcall, hnot⟩
  | main _ _ => exact ⟨call, hpassed, hcall, hnot⟩
  | opens alive _ => exact absurd hdead alive
  | read alive => exact absurd hdead alive
  | write at_ =>
    rw [at_] at hdead
    cases hdead

/-- The last message is logged when the child is dead. -/
theorem lost_of_moves {os os' : List Event} {s t : State} (h : Inv s)
    (hlost : s.main.pastFinal = true → Lost os s) (hmove : Moves s t os')
    (hfinal : t.main.pastFinal = true) : Lost (os ++ os') t := by
  by_cases hpast : s.main.pastFinal = true
  · have hwait : s.main.pastWait = true := by
      cases hm : s.main <;> simp [hm, MainPc.pastFinal] at hpast <;> rfl
    exact (hlost hpast).moves (h.dead hwait) hmove
  · cases hmove with
    | log _ _ final =>
      rcases final hfinal with hs | rfl
      · exact absurd hs hpast
      · refine ⟨s.calls, by simp, Nat.lt_succ_self _, ?_⟩
        intro ⟨entry, hentry, cell, hcell, he⟩
        have hlt := h.file entry hentry cell hcell
        omega
    | main _ final => exact absurd (final ▸ hfinal) hpast
    | opens _ _ => exact absurd hfinal hpast
    | read _ => exact absurd hfinal hpast
    | write _ => exact absurd hfinal hpast

/-- In every run to the normal exit of `main`, some message is not in the log
file: the last one is written after the log process has been waited for. -/
theorem exit_loses_message {capacity portNum : Nat} {fifoExists : Bool} {as : List Act}
    {t : State} {os : List Event}
    (hrun : Machine.run (step capacity portNum) (start fifoExists) as = some (t, os))
    (hexit : t.main = .exited) : ¬AllLogged os t.file := by
  have hinv : Inv t ∧ (t.main.pastFinal = true → Lost os t) := by
    refine Machine.run_induction
      (P := fun _ os t => Inv t ∧ (t.main.pastFinal = true → Lost os t)) ?_ ?_ hrun
    · refine ⟨inv_start fifoExists, ?_⟩
      intro hfinal
      cases hfinal
    · intro _ os u a v os' _ ⟨hinv, hlost⟩ hstep
      have hmove := step_moves hstep
      exact ⟨hinv.moves hmove, lost_of_moves hinv hlost hmove⟩
  intro hall
  obtain ⟨call, hpassed, _, hnot⟩ := hinv.2 (by rw [hexit]; rfl)
  exact hnot (hall call finalMessage hpassed)

/-- The child makes the FIFO before the first message, reads and writes the second,
and is killed with nothing left to read; only then do the last messages come. -/
theorem exit_loses_message_late :
    ∃ as t os, Machine.run (step 65536 1234) (start false) as = some (t, os) ∧
      t.main = .exited ∧ ¬AllLogged os t.file := by
  let as : List Act := [.logProcess 0, .main true, .logProcess 0, .logProcess 36, .logProcess 0,
    .logProcess 0, .main true, .logProcess 9, .logProcess 0, .logProcess 0, .main true, .dies,
    .main true, .main true, .main true, .main true]
  have hsome : ((Machine.run (step 65536 1234) (start false) as).map fun q =>
      (q.1.main, q.1.file.length)) = some (.exited, 2) := by decide +kernel
  obtain ⟨⟨t, os⟩, hrun, ht⟩ := Option.map_eq_some_iff.mp hsome
  have hexit : t.main = .exited := (Prod.mk.inj ht).1
  exact ⟨as, t, os, hrun, hexit, exit_loses_message hrun hexit⟩

/-- `main` logs its first message before the child has made the FIFO. -/
theorem first_message_lost :
    ∃ as t os, Machine.run (step 65536 1234) (start false) as = some (t, os) ∧
      t.main = .exited ∧ .passed 0 (text "Sensor gateway started on port 1234") ∈ os ∧
      ¬AllLogged os t.file := by
  let as : List Act := [.main true, .logProcess 0, .main true, .logProcess 0, .logProcess 9,
    .logProcess 0, .logProcess 0, .main true, .dies, .main true, .main true, .main true,
    .main true]
  have hsome : ((Machine.run (step 65536 1234) (start false) as).map fun q =>
      (q.1.main, decide (.passed 0 (text "Sensor gateway started on port 1234") ∈ q.2),
        decide (InFile q.1.file 0))) = some (.exited, true, false) := by decide +kernel
  obtain ⟨⟨t, os⟩, hrun, ht⟩ := Option.map_eq_some_iff.mp hsome
  obtain ⟨hexit, hmem, hnot⟩ : t.main = .exited ∧
      decide (.passed 0 (text "Sensor gateway started on port 1234") ∈ os) = true ∧
      decide (InFile t.file 0) = false := by simpa using ht
  refine ⟨as, t, os, hrun, hexit, of_decide_eq_true hmem, ?_⟩
  intro hall
  exact of_decide_eq_false hnot (hall 0 _ (of_decide_eq_true hmem))

end LogProcess
end Gateway
end LinuxEmbedded
