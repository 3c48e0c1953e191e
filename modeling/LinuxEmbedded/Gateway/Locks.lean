import LinuxEmbedded.Lib.LockOrder

/-
The mutexes of the gateway: who takes what, and in which order.

Each function of the source is the program of its lock operations, with every
branch and every loop of the function; which branch runs is left to the schedule.
Pthread calls succeed.  `shift_clients`, `remove_connection` and the SQLite
calls themselves take no mutex of the gateway; SQLite may call its log callback.
`pthread_mutex_destroy` leaves the owner as it is.
-/
namespace LinuxEmbedded
namespace Gateway
namespace Locks

open LockOrder

inductive Mutex where
  /-- `conn_mutex`. -/
  | conn
  /-- `sb->mutex`. -/
  | sb
  /-- `avg_mutex`. -/
  | avg
  /-- `log_mutex` of `log_event`. -/
  | log
  deriving DecidableEq

inductive Thread where
  | main
  | connectionManager
  | dataManager
  | storageManager
  deriving DecidableEq

abbrev Code := Prog Mutex Thread

open Prog (block optional wait)

/-! ## log.c -/

/-- The early return is that of a FIFO that does not open. -/
def logEvent : Code := block [.lock .log, .alt (.unlock .log) (.unlock .log)]

/-! ## sbuffer.c -/

def sbufferInit : Code := .init .sb

def sbufferPush : Code := block [.lock .sb, optional logEvent, logEvent, .unlock .sb]

def sbufferPop : Code :=
  block [.lock .sb, .loop (wait .sb), .alt (.unlock .sb) (block [logEvent, .unlock .sb])]

def sbufferCount : Code := block [.lock .sb, .unlock .sb]

/-- The loop is that of the attempts at `pthread_mutex_destroy`. -/
def sbufferFree : Code := block [.lock .sb, .unlock .sb, .loop logEvent, optional logEvent]

/-! ## connection_manager.c -/

/-- A failure is logged once. -/
def setupSocket : Code := optional logEvent

def handleNewConnection : Code :=
  optional (.alt logEvent (.alt (block [.lock .conn, .unlock .conn, logEvent]) logEvent))

/-- For each client: data, the end of the stream, an error, or nothing. -/
def handleClientData : Code :=
  .loop (optional (.alt
    (block [logEvent, sbufferPush, .alt logEvent logEvent, .lock .conn, .unlock .conn])
    (.alt (block [logEvent, .lock .conn, .unlock .conn])
      (block [logEvent, .lock .conn, .unlock .conn]))))

def cleanupConnections : Code := block [.lock .conn, .unlock .conn, logEvent]

def connectionManager : Code :=
  block [logEvent, setupSocket, optional (block [logEvent, .exit]),
    .loop (.alt (block [handleNewConnection, handleClientData]) (optional logEvent)),
    cleanupConnections]

/-! ## data_manager.c and storage_manager.c -/

/-- The failed turns of a pop loop. -/
def popRetries : Code := .loop (block [sbufferPop, logEvent])

/-- A pop loop that ends with a record, or without one after `MAX_RETRIES`. -/
def popLoop : Code := block [popRetries, optional sbufferPop]

/-- An iteration ends without a record, with an invalid sensor, or with the update of
its average.  `goto cleanup` leaves the loop after a failed pop. -/
def dataManager : Code :=
  block [
    .loop (block [popLoop,
      .alt logEvent (.alt logEvent (block [logEvent, .lock .avg, optional logEvent,
        .alt logEvent logEvent, .unlock .avg, optional logEvent]))]),
    optional (block [popRetries, sbufferPop]),
    logEvent]

/-- A call of SQLite, which may report errors through `sqlite_error_log_callback`. -/
def sqliteCall : Code := .loop logEvent

/-- A call that is tried again after each failure. -/
def sqliteRetries : Code := block [.loop (block [sqliteCall, logEvent]), optional sqliteCall]

/-- Each call that fails is logged and ends the iteration. -/
def storageLoop : Code :=
  .loop (block [popLoop,
    .alt logEvent (block [sqliteRetries,
      .alt logEvent (block [sqliteCall,
        .alt logEvent (block [sqliteRetries, .alt logEvent logEvent]), sqliteCall])])])

def storageManager : Code :=
  block [sqliteCall, logEvent,
    .alt logEvent (block [sqliteCall,
      .alt (block [logEvent, sqliteCall]) (block [logEvent, sqliteCall,
        .alt (block [logEvent, sqliteCall]) (block [logEvent, storageLoop,
          optional (block [popRetries, sbufferPop]), sqliteCall, optional logEvent,
          logEvent])])])]

/-! ## keep_alive.c -/

def sigintHandler : Code := block [.lock .conn, .unlock .conn, logEvent]

def initKeepAlive : Code := block [.init .conn, .arm]

/-- Each connection found dead is logged under the mutex. -/
def runKeepAlive : Code :=
  .loop (block [.lock .conn, .loop (optional logEvent), .unlock .conn])

/-! ## threads.c and main.c -/

def initThreads : Code :=
  block [optional (block [logEvent, .exit]), .spawn .connectionManager, .spawn .dataManager,
    .spawn .storageManager]

def main : Code :=
  block [optional (block [logEvent, .exit]), logEvent, optional (block [logEvent, .exit]),
    optional (block [logEvent, .exit]), sbufferInit, initThreads, initKeepAlive, runKeepAlive,
    logEvent, .lock .conn, .unlock .conn, .lock .sb, .unlock .sb, .loop sbufferCount,
    optional logEvent, sbufferFree, optional logEvent, .alt logEvent logEvent, logEvent, .exit]

def gateway : System Mutex Thread where
  root := .main
  program
    | .main => main
    | .connectionManager => connectionManager
    | .dataManager => dataManager
    | .storageManager => storageManager
  handler := sigintHandler

/-! ## The order -/

/-- `log_mutex` comes last, `conn_mutex` before it, and the other two first. -/
def rank : Mutex → Nat
  | .sb => 0
  | .avg => 0
  | .conn => 1
  | .log => 2

theorem gateway_ordered : gateway.Ordered rank [.sb, .avg] where
  program t := by
    cases t <;> decide +kernel
  handler := by decide
  balanced := by decide

/-! ## Deadlocks -/

/-- SIGINT is not delivered to a thread that holds `conn_mutex` or `log_mutex`. -/
def HandlerLocksFree (s : State Mutex Thread) : Act Thread → Prop
  | .run _ _ => True
  | .signal t => s.owner .conn ≠ some t ∧ s.owner .log ≠ some t

instance (s : State Mutex Thread) : (a : Act Thread) → Decidable (HandlerLocksFree s a)
  | .run _ _ => isTrue trivial
  | .signal t => inferInstanceAs (Decidable (s.owner .conn ≠ some t ∧ s.owner .log ≠ some t))

theorem signalsLow_of_handlerLocksFree {s : State Mutex Thread} {a : Act Thread}
    (h : HandlerLocksFree s a) : SignalsLow [.sb, .avg] s a := by
  cases a with
  | run t left => trivial
  | signal t =>
    intro m hm
    cases m with
    | conn => exact absurd hm h.1
    | log => exact absurd hm h.2
    | sb => decide
    | avg => decide

/-- After a signal the thread is at the first lock of the handler. -/
theorem signal_eq {s u : State Mutex Thread} {t : Thread} {os : List Empty}
    (hstep : gateway.step s (.signal t) = some (u, os)) :
    u.owner = s.owner ∧ u.started t = true ∧ u.halted = false ∧
      ∃ k, u.code t = sigintHandler :: k := by
  obtain ⟨hready, hstep⟩ := Option.ite_none_right_eq_some.mp hstep
  obtain ⟨rfl, -⟩ := Prod.mk.inj (Option.some.inj hstep)
  exact ⟨rfl, hready.2.1, hready.1, _, Function.update_self ..⟩

theorem deadlocked_of_self {s : State Mutex Thread} {t : Thread} {m : Mutex}
    (hawaits : s.awaits t = some m) (howner : s.owner m = some t) : s.Deadlocked :=
  ⟨t, Relation.TransGen.single ⟨m, hawaits, howner⟩⟩

/-- A thread interrupted with `conn_mutex` waits for itself at once. -/
theorem deadlocked_of_conn {s u : State Mutex Thread} {t : Thread} {os : List Empty}
    (hstep : gateway.step s (.signal t) = some (u, os)) (howner : s.owner .conn = some t) :
    u.Deadlocked := by
  obtain ⟨hsame, hstarted, -, k, hcode⟩ := signal_eq hstep
  apply deadlocked_of_self (m := .conn)
  · rw [State.awaits, if_pos hstarted, hcode]
    rfl
  · rw [hsame]
    exact howner

/-- A thread interrupted with `log_mutex` takes `conn_mutex`, lets it go, and waits
for itself in `log_event`. -/
theorem deadlocked_of_log {s u : State Mutex Thread} {t : Thread} {os : List Empty}
    (hstep : gateway.step s (.signal t) = some (u, os)) (howner : s.owner .log = some t)
    (hconn : s.owner .conn = none) :
    ∃ v os', Machine.run gateway.step u (List.replicate 4 (.run t true)) = some (v, os') ∧
      v.Deadlocked := by
  obtain ⟨hsame, hstarted, hhalted, k, hcode⟩ := signal_eq hstep
  have hconn : u.owner .conn = none := by
    rw [hsame]
    exact hconn
  let s₁ := u.goto t (.lock .conn :: .seq (.unlock .conn) logEvent :: k)
  let s₂ := (s₁.setOwner .conn (some t)).goto t (.seq (.unlock .conn) logEvent :: k)
  let s₃ := s₂.goto t (.unlock .conn :: logEvent :: k)
  let s₄ := (s₃.setOwner .conn none).goto t (logEvent :: k)
  have h₁ : gateway.step u (.run t true) = some (s₁, []) :=
    step_run hhalted hstarted hcode rfl
  have h₂ : gateway.step s₁ (.run t true) = some (s₂, []) :=
    step_run hhalted hstarted (Function.update_self ..) (if_pos hconn)
  have h₃ : gateway.step s₂ (.run t true) = some (s₃, []) :=
    step_run hhalted hstarted (Function.update_self ..) rfl
  have h₄ : gateway.step s₃ (.run t true) = some (s₄, []) :=
    step_run hhalted hstarted (Function.update_self ..) rfl
  have hlog : s₄.owner .log = some t := by
    rw [← howner, ← hsame]
    rfl
  have hcode₄ : s₄.code t = logEvent :: k := Function.update_self ..
  refine ⟨s₄, [], ?_, deadlocked_of_self ?_ hlog⟩
  · have hlast := Machine.run_single h₄
    have hlast := Machine.run_cons_eq_some.mpr ⟨s₃, [], [], h₃, hlast, rfl⟩
    have hlast := Machine.run_cons_eq_some.mpr ⟨s₂, [], [], h₂, hlast, rfl⟩
    exact Machine.run_cons_eq_some.mpr ⟨s₁, [], [], h₁, hlast, rfl⟩
  · have hstarted₄ : s₄.started t = true := hstarted
    rw [State.awaits, if_pos hstarted₄, hcode₄]
    rfl

/-- The gateway has no deadlock in a run whose SIGINTs spare the threads that hold
`conn_mutex` or `log_mutex`; a SIGINT that does not leads to one. -/
theorem gateway_not_deadlocked {as : List (Act Thread)} {s : State Mutex Thread}
    {os : List Empty} (hrun : Machine.run gateway.step gateway.start as = some (s, os)) :
    (Machine.Meets gateway.step HandlerLocksFree gateway.start as → ¬s.Deadlocked) ∧
    (∀ t u os', gateway.step s (.signal t) = some (u, os') → s.owner .conn = some t →
      u.Deadlocked) ∧
    (∀ t u os', gateway.step s (.signal t) = some (u, os') → s.owner .log = some t →
      s.owner .conn = none →
      ∃ bs v os'', Machine.run gateway.step u bs = some (v, os'') ∧ v.Deadlocked) := by
  refine ⟨?_, fun t u os' hstep howner => deadlocked_of_conn hstep howner, ?_⟩
  · intro hmeets
    have hlow := Machine.meets_mono (fun _ _ h => signalsLow_of_handlerLocksFree h) hmeets
    exact not_deadlocked gateway_ordered hlow hrun
  · intro t u os' hstep howner hconn
    obtain ⟨v, os'', hrun', hdead⟩ := deadlocked_of_log hstep howner hconn
    exact ⟨_, v, os'', hrun', hdead⟩

/-- The steps of a thread with these choices. -/
def runs (t : Thread) (choices : List Bool) : List (Act Thread) := choices.map (.run t)

/-- The data manager takes SIGINT inside `sbuffer_pop`, with `sb->mutex` held. -/
theorem gateway_not_deadlocked_signal_in_pop :
    ∃ s os, Machine.run gateway.step gateway.start
        (runs .main (List.replicate 30 false) ++
          runs .dataManager [false, true, false, false, false, true, false, false] ++
          [.signal .dataManager] ++ runs .dataManager [false, false]) = some (s, os) ∧
      ¬s.Deadlocked := by
  have hsome : (Machine.run gateway.step gateway.start
      (runs .main (List.replicate 30 false) ++
        runs .dataManager [false, true, false, false, false, true, false, false] ++
        [.signal .dataManager] ++ runs .dataManager [false, false])).isSome = true := by
    decide +kernel
  obtain ⟨⟨s, os⟩, hrun⟩ := Option.isSome_iff_exists.mp hsome
  exact ⟨s, os, hrun, (gateway_not_deadlocked hrun).1 (by decide +kernel)⟩

/-- Main takes SIGINT in its sweep, with `conn_mutex` held, and waits for itself. -/
theorem signal_in_sweep_deadlocks :
    ∃ s os, Machine.run gateway.step gateway.start
        (runs .main (List.replicate 30 false ++ [true, false, false]) ++ [.signal .main]) =
          some (s, os) ∧
      s.Deadlocked := by
  have hmap : (Machine.run gateway.step gateway.start
      (runs .main (List.replicate 30 false ++ [true, false, false]) ++ [.signal .main])).map
      (fun q => (q.1.awaits .main, q.1.owner .conn)) = some (some .conn, some .main) := by
    decide +kernel
  obtain ⟨⟨s, os⟩, hrun, heq⟩ := Option.map_eq_some_iff.mp hmap
  obtain ⟨hawaits, howner⟩ := Prod.mk.inj heq
  exact ⟨s, os, hrun, deadlocked_of_self hawaits howner⟩

end Locks
end Gateway
end LinuxEmbedded
