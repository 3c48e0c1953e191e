import LinuxEmbedded.Gateway.ReadingLedger
import LinuxEmbedded.Gateway.SensorStream

/-
The whole path of a reading, from the bytes on a connection to the table.

The connection manager and the two consumers run side by side.  Each record that
`handle_client_data` hands to `sbuffer_push` is pushed to the buffer the consumers
pop from.  `value` is the number that the bit pattern of a `float` stands for.
-/
namespace LinuxEmbedded
namespace Gateway
namespace Consumers

/-! ## What becomes of a popped reading -/

/-- The readings whose row a step of `storage_manager` gives up. -/
def refusedBy (s : State) : Act → List (SensorData ℚ × Nat)
  | .consume .storageManager _ calls =>
    match s.pc .storageManager with
    | .popped data stamp =>
      if (Gateway.storageManager calls data).1.isNone then [(data, stamp)] else []
    | _ => []
  | _ => []

/-- The readings a consumer went through with. -/
def dealt : Consumer → List Event → List (SensorData ℚ × Nat)
  | .dataManager, os => handled os
  | .storageManager, os => inserted os

theorem dealt_append (c : Consumer) (os os' : List Event) :
    dealt c (os ++ os') = dealt c os ++ dealt c os' := by
  cases c with
  | dataManager => exact handled_append os os'
  | storageManager => exact inserted_append os os'

theorem dealt_buffer (c : Consumer) (os : List (SbufferThreads.Event ℚ Thread)) :
    dealt c (os.map .buffer) = [] := by
  obtain ⟨-, hprocessed, hinserted⟩ := of_buffer os
  cases c with
  | dataManager =>
    show handled _ = []
    rw [handled, hprocessed]
    rfl
  | storageManager => exact hinserted

theorem dealt_logged (c : Consumer) (logs : List (Message ℚ)) :
    dealt c (logs.map .logged) = [] := by
  obtain ⟨-, hprocessed, hinserted⟩ := of_logged logs
  cases c with
  | dataManager =>
    show handled _ = []
    rw [handled, hprocessed]
    rfl
  | storageManager => exact hinserted

theorem dealt_processed {r : Entry ℚ} {data : SensorData ℚ} (hdata : r.reading.data = data)
    (stamp : Nat) (logs : List (Message ℚ)) (c : Consumer) :
    dealt c (.processed r stamp :: logs.map .logged) =
      if c = .dataManager then [(data, stamp)] else [] := by
  cases c with
  | dataManager =>
    show (r.reading.data, stamp) :: dealt .dataManager (logs.map .logged) = _
    rw [dealt_logged, hdata]
    rfl
  | storageManager => exact dealt_logged .storageManager logs

theorem dealt_inserted (data : SensorData ℚ) (stamp : Nat) (logs : List (Message ℚ))
    (c : Consumer) :
    dealt c (.inserted data stamp :: logs.map .logged) =
      if c = .storageManager then [(data, stamp)] else [] := by
  cases c with
  | dataManager => exact dealt_logged .dataManager logs
  | storageManager =>
    show (data, stamp) :: dealt .storageManager (logs.map .logged) = _
    rw [dealt_logged]
    rfl

/-- What a consumer has dealt with and what it holds, as one list. -/
theorem goto_held (s : State) (c c' : Consumer) (pc : Pc) :
    ((s.goto c pc).pc c').held = if c' = c then pc.held else (s.pc c').held := by
  show (Function.update s.pc c pc c').held = _
  by_cases hc : c' = c
  · rw [hc, Function.update_self, if_pos rfl]
  · rw [Function.update_of_ne hc, if_neg hc]

def Act.consumer? : Act → Option Consumer
  | .consume c _ _ => some c
  | _ => none

/-- What consumer `c` has in hand, before a step and popped in it, it deals with, gives up
or still has in hand. -/
def Hands (s t : State) (a : Act) (os : List Event) (c : Consumer) : Prop :=
  dealt c os ++ (if c = .storageManager then refusedBy s a else []) ++ (t.pc c).held =
    (s.pc c).held ++ (if a.consumer? = some c then DropOldest.pops (history os) else [])

theorem refusedBy_of_free {s : State} {c : Consumer} {now : Int} {calls : SqliteCalls}
    (h : (s.pc c).held = []) : refusedBy s (.consume c now calls) = [] := by
  cases c with
  | dataManager => rfl
  | storageManager =>
    rw [refusedBy]
    split
    · next data stamp hpc =>
      rw [hpc] at h
      cases h
    · rfl

theorem Moves.hands {s t : State} {a : Act} {os : List Event} (h : Moves s a t os)
    (c : Consumer) : Hands s t a os c := by
  unfold Hands
  cases h with
  | @push data b osb call quiet frame =>
    show dealt c (osb.map .buffer) ++ (if c = .storageManager then [] else []) ++ (s.pc c).held =
      (s.pc c).held ++ []
    rw [dealt_buffer, ite_self]
    simp only [List.nil_append, List.append_nil]
  | shutdown call =>
    show dealt c (([] : List (SbufferThreads.Event ℚ Thread)).map .buffer) ++
      (if c = .storageManager then [] else []) ++ (s.pc c).held = (s.pc c).held ++ []
    rw [dealt_buffer, ite_self]
    simp only [List.nil_append, List.append_nil]
  | @pop c' now calls b osb pc call free got sleep frame =>
    rw [dealt_buffer, refusedBy_of_free free, ite_self, goto_held, (of_buffer osb).1, got]
    by_cases hc : c = c'
    · rw [hc, if_pos rfl, free]
      show [] ++ [] ++ pc.held = [] ++ if some c' = some c' then pc.held else []
      rw [if_pos rfl]
      rfl
    · rw [if_neg hc]
      show [] ++ [] ++ (s.pc c).held = (s.pc c).held ++ if some c' = some c then _ else []
      rw [if_neg fun he => hc (Option.some.inj he).symm]
      simp only [List.nil_append, List.append_nil]
  | @test c' now calls pc logs free free' awake =>
    rw [dealt_logged, refusedBy_of_free free, ite_self, goto_held, (of_logged logs).1]
    show [] ++ [] ++ _ = (s.pc c).held ++ if some c' = some c then [] else []
    rw [ite_self]
    by_cases hc : c = c'
    · rw [hc, if_pos rfl, free, free']
      rfl
    · rw [if_neg hc]
      simp only [List.nil_append, List.append_nil]
  | @process data stamp now calls m entry at_ call =>
    have hdata : entry.reading.data = data := by rw [dataManager_reading call]
    have hquiet : DropOldest.pops (history (.processed entry stamp :: entry.logs.map .logged)) =
        [] := by
      show DropOldest.pops (history (entry.logs.map .logged)) = []
      rw [(of_logged entry.logs).1]
      rfl
    rw [dealt_processed hdata, goto_held, hquiet, ite_self, List.append_nil]
    cases c with
    | dataManager =>
      rw [at_]
      rfl
    | storageManager => rfl
  | @insert data stamp now calls row logs at_ call =>
    have hquiet : DropOldest.pops (history (.inserted data stamp :: logs.map .logged)) = [] := by
      show DropOldest.pops (history (logs.map .logged)) = []
      rw [(of_logged logs).1]
      rfl
    have hkept : refusedBy s (.consume .storageManager now calls) = [] := by
      simp only [refusedBy, at_, call, Option.isNone_some, Bool.false_eq_true, if_false]
    rw [dealt_inserted, goto_held, hquiet, ite_self, List.append_nil, hkept]
    cases c with
    | dataManager => rfl
    | storageManager =>
      rw [at_]
      rfl
  | @skip data stamp now calls logs at_ call =>
    have hgone : refusedBy s (.consume .storageManager now calls) = [(data, stamp)] := by
      simp only [refusedBy, at_, call, Option.isNone_none, if_true]
    rw [dealt_logged, goto_held, (of_logged logs).1, hgone]
    cases c with
    | dataManager =>
      show [] ++ [] ++ (s.pc .dataManager).held = (s.pc .dataManager).held ++ []
      simp only [List.nil_append, List.append_nil]
    | storageManager =>
      rw [at_]
      rfl

/-- Only a consumer pops. -/
theorem Moves.pops_eq {s t : State} {a : Act} {os : List Event} (h : Moves s a t os) :
    DropOldest.pops (history os) =
      (if a.consumer? = some .dataManager then DropOldest.pops (history os) else []) ++
        (if a.consumer? = some .storageManager then DropOldest.pops (history os) else []) := by
  cases a with
  | push data =>
    cases h with
    | @push data b osb call quiet frame =>
      rw [(of_buffer osb).1, quiet]
      rfl
  | shutdown =>
    cases h with
    | shutdown call => rfl
  | consume c now calls =>
    cases c with
    | dataManager => exact (List.append_nil _).symm
    | storageManager => rfl

theorem Moves.wellFormed {N : Nat} {s t : State} {a : Act} {os : List Event}
    (h : Moves s a t os) (hw : WellFormed N s) : WellFormed N t := by
  have hR : SbufferThreads.Refines N s.buffer
      ⟨SbufferThreads.stampedQueue s.buffer, s.buffer.pushCount⟩ := ⟨hw.buffer, rfl, rfl⟩
  obtain ⟨bs, q, -, hwt, -⟩ := h.refines hw hR
  exact hwt

/-- Along a run: each consumer deals with what it pops in the order of the pops, and what
was popped is dealt with, given up or in hand. -/
structure Accounted (os : List Event) (rs : List (SensorData ℚ × Nat)) (s : State) : Prop where
  order : ∀ c, (dealt c os ++ (s.pc c).held).Sublist (DropOldest.pops (history os))
  all : (dealt .dataManager os ++ dealt .storageManager os ++ rs ++ s.held).Perm
    (DropOldest.pops (history os))

theorem accounted_start (sb : Sbuffer ℚ) : Accounted [] [] (start sb) where
  order c := by cases c <;> exact List.Sublist.refl []
  all := List.Perm.refl []

theorem Accounted.step {os os' : List Event} {rs : List (SensorData ℚ × Nat)} {s t : State}
    {a : Act} (h : Accounted os rs s) (hmove : Moves s a t os') :
    Accounted (os ++ os') (rs ++ refusedBy s a) t := by
  have hpops : DropOldest.pops (history (os ++ os')) =
      DropOldest.pops (history os) ++ DropOldest.pops (history os') := by
    rw [history_append, DropOldest.pops_append]
  constructor
  · intro c
    have hhands : Hands s t a os' c := hmove.hands c
    have hnew : (dealt c os' ++ (t.pc c).held).Sublist
        ((s.pc c).held ++ DropOldest.pops (history os')) := by
      have hall : (dealt c os' ++ (t.pc c).held).Sublist
          ((s.pc c).held ++
            if a.consumer? = some c then DropOldest.pops (history os') else []) := by
        rw [← hhands]
        exact (List.sublist_append_left ..).append_right _
      refine hall.trans (List.Sublist.append_left ?_ _)
      by_cases ha : a.consumer? = some c
      · rw [if_pos ha]
      · rw [if_neg ha]
        exact List.nil_sublist _
    rw [dealt_append, hpops, List.append_assoc]
    have hbefore := List.Sublist.append_right (h.order c) (DropOldest.pops (history os'))
    rw [List.append_assoc] at hbefore
    exact (List.Sublist.append_left hnew _).trans hbefore
  · rw [hpops, List.perm_iff_count]
    intro p
    have hdata := congrArg (List.count p) (hmove.hands .dataManager)
    have hstorage := congrArg (List.count p) (hmove.hands .storageManager)
    have hsplit := congrArg (List.count p) hmove.pops_eq
    have hbefore := h.all.count_eq p
    simp only [State.held, dealt_append, List.count_append, reduceCtorEq, if_false, if_true,
      List.count_nil] at hdata hstorage hsplit hbefore ⊢
    omega

/-- Pushes alone change no hand. -/
theorem Accounted.run_pushes {N : Nat} {os os' : List Event} {rs : List (SensorData ℚ × Nat)}
    {s t : State} {as : List Act} (h : Accounted os rs s) (hw : WellFormed N s)
    (hpush : ∀ a ∈ as, a.consumer? = none)
    (hrun : Machine.run Consumers.step s as = some (t, os')) :
    Accounted (os ++ os') rs t := by
  refine (Machine.run_induction
    (P := fun as os' u => (∀ a ∈ as, a.consumer? = none) →
      WellFormed N u ∧ Accounted (os ++ os') rs u) ?_ ?_ hrun hpush).2
  · intro _
    rw [List.append_nil]
    exact ⟨hw, h⟩
  · intro as os₁ u a v os₂ _ ih hstep hpush
    obtain ⟨hwu, hu⟩ := ih fun b hb => hpush b (List.mem_append_left _ hb)
    have hmove := step_moves hwu hstep
    have hnone : refusedBy u a = [] := by
      have ha := hpush a (List.mem_append_right _ (List.mem_singleton_self a))
      cases a with
      | push data => rfl
      | shutdown => rfl
      | consume c now calls => cases ha
    have hv := hu.step hmove
    rw [hnone, List.append_nil, List.append_assoc] at hv
    exact ⟨hmove.wellFormed hwu, hv⟩

end Consumers

namespace EndToEnd

structure State where
  manager : ConnectionManager.State
  consumers : Consumers.State

def start (sb : Sbuffer ℚ) : State where
  manager := ConnectionManager.start
  consumers := Consumers.start sb

inductive Act where
  | manager (a : ConnectionManager.Act)
  | consume (c : Consumers.Consumer) (now : Int) (calls : SqliteCalls)

inductive Event where
  | manager (e : ConnectionManager.Event)
  | consumers (e : Consumers.Event)
  /-- `storage_manager` gave up the row of the push with this number. -/
  | refused (data : SensorData ℚ) (stamp : Nat)

variable (value : FloatBits → ℚ) (socketFd : Int)

def reading (r : SensorRecord) : SensorData ℚ where
  sensorId := r.sensorId
  temperature := value r.temperature
  timestamp := r.timestamp

def record? : ConnectionManager.Event → Option (Int × SensorRecord)
  | .pushed fd data => some (fd, data)
  | _ => none

/-- The calls of `sbuffer_push` in a step of the connection manager. -/
def pushes (os : List ConnectionManager.Event) : List Consumers.Act :=
  (os.filterMap record?).map fun p => .push (reading value p.2)

def pushReturns (os : List Consumers.Event) : List Int :=
  os.filterMap fun
    | .buffer (.pushReturned _ ret) => some ret
    | _ => none

/-- What `handle_client_data` tests after its push. -/
def testedReturn : ConnectionManager.Act → Option Int
  | .read _ _ ret _ => some ret
  | _ => none

def step (s : State) : Act → Option (State × List Event)
  | .manager a => do
    let (manager, os) ← ConnectionManager.step socketFd s.manager a
    let (consumers, os') ← Machine.run Consumers.step s.consumers (pushes value os)
    if ∀ ret ∈ pushReturns os', testedReturn a = some ret then
      some (⟨manager, consumers⟩, os.map .manager ++ os'.map .consumers)
    else none
  | .consume c now calls => do
    let (consumers, os) ← Consumers.step s.consumers (.consume c now calls)
    some ({ s with consumers }, os.map .consumers ++
      (Consumers.refusedBy s.consumers (.consume c now calls)).map fun p => .refused p.1 p.2)

/-! ## The parts of a run -/

def Event.manager? : Event → Option ConnectionManager.Event
  | .manager e => some e
  | _ => none

def Event.consumers? : Event → Option Consumers.Event
  | .consumers e => some e
  | _ => none

def Event.refused? : Event → Option (SensorData ℚ × Nat)
  | .refused data stamp => some (data, stamp)
  | _ => none

def managerEvents (os : List Event) : List ConnectionManager.Event :=
  os.filterMap Event.manager?

def consumerEvents (os : List Event) : List Consumers.Event := os.filterMap Event.consumers?

/-- The readings whose row SQLite refused. -/
def refused (os : List Event) : List (SensorData ℚ × Nat) := os.filterMap Event.refused?

/-- The records handed to `sbuffer_push`, in order, with their connections. -/
def records (os : List Event) : List (Int × SensorRecord) := (managerEvents os).filterMap record?

theorem of_manager (os : List ConnectionManager.Event) :
    managerEvents (os.map .manager) = os ∧ consumerEvents (os.map .manager) = [] ∧
      refused (os.map .manager) = [] := by
  refine ⟨?_, ?_, ?_⟩
  · rw [managerEvents, List.filterMap_map]
    exact List.filterMap_some
  · rw [consumerEvents, List.filterMap_map]
    exact List.filterMap_eq_nil_iff.mpr fun _ _ => rfl
  · rw [refused, List.filterMap_map]
    exact List.filterMap_eq_nil_iff.mpr fun _ _ => rfl

theorem of_consumers (os : List Consumers.Event) :
    managerEvents (os.map .consumers) = [] ∧ consumerEvents (os.map .consumers) = os ∧
      refused (os.map .consumers) = [] := by
  refine ⟨?_, ?_, ?_⟩
  · rw [managerEvents, List.filterMap_map]
    exact List.filterMap_eq_nil_iff.mpr fun _ _ => rfl
  · rw [consumerEvents, List.filterMap_map]
    exact List.filterMap_some
  · rw [refused, List.filterMap_map]
    exact List.filterMap_eq_nil_iff.mpr fun _ _ => rfl

theorem of_refused (ps : List (SensorData ℚ × Nat)) :
    managerEvents (ps.map fun p => .refused p.1 p.2) = [] ∧
      consumerEvents (ps.map fun p => .refused p.1 p.2) = [] ∧
      refused (ps.map fun p => .refused p.1 p.2) = ps := by
  refine ⟨?_, ?_, ?_⟩
  · rw [managerEvents, List.filterMap_map]
    exact List.filterMap_eq_nil_iff.mpr fun _ _ => rfl
  · rw [consumerEvents, List.filterMap_map]
    exact List.filterMap_eq_nil_iff.mpr fun _ _ => rfl
  · rw [refused, List.filterMap_map]
    exact List.filterMap_some

theorem managerEvents_append (os os' : List Event) :
    managerEvents (os ++ os') = managerEvents os ++ managerEvents os' :=
  List.filterMap_append

theorem consumerEvents_append (os os' : List Event) :
    consumerEvents (os ++ os') = consumerEvents os ++ consumerEvents os' :=
  List.filterMap_append

theorem refused_append (os os' : List Event) : refused (os ++ os') = refused os ++ refused os' :=
  List.filterMap_append

theorem records_append (os os' : List Event) : records (os ++ os') = records os ++ records os' := by
  rw [records, managerEvents_append, List.filterMap_append]
  rfl

/-! ## What holds after every run -/

/-- A run of the system is a run of the connection manager and a run of the consumers that
pushes its records. -/
structure Books (sb : Sbuffer ℚ) (os : List Event) (s : State) : Prop where
  manager : ∃ as, Machine.run (ConnectionManager.step socketFd) ConnectionManager.start as =
    some (s.manager, managerEvents os)
  consumers : ∃ as, Machine.run Consumers.step (Consumers.start sb) as =
      some (s.consumers, consumerEvents os) ∧
    Consumers.pushedReadings as = (records os).map fun p => reading value p.2
  accounted : Consumers.Accounted (consumerEvents os) (refused os) s.consumers

theorem pushedReadings_append (as bs : List Consumers.Act) :
    Consumers.pushedReadings (as ++ bs) =
      Consumers.pushedReadings as ++ Consumers.pushedReadings bs :=
  List.filterMap_append

theorem pushedReadings_pushes (os : List ConnectionManager.Event) :
    Consumers.pushedReadings (pushes value os) =
      (os.filterMap record?).map fun p => reading value p.2 := by
  rw [Consumers.pushedReadings, pushes, List.filterMap_map, ← List.filterMap_eq_map]
  rfl

variable {value} {socketFd}

theorem step_manager {s t : State} {a : ConnectionManager.Act} {os : List Event}
    (h : step value socketFd s (.manager a) = some (t, os)) :
    ∃ os₁ os₂, ConnectionManager.step socketFd s.manager a = some (t.manager, os₁) ∧
      Machine.run Consumers.step s.consumers (pushes value os₁) = some (t.consumers, os₂) ∧
      os = os₁.map .manager ++ os₂.map .consumers := by
  obtain ⟨⟨manager, os₁⟩, hmanager, h⟩ := Option.bind_eq_some_iff.mp h
  obtain ⟨⟨consumers, os₂⟩, hconsumers, h⟩ := Option.bind_eq_some_iff.mp h
  obtain ⟨-, h⟩ := Option.ite_none_right_eq_some.mp h
  obtain ⟨rfl, rfl⟩ := Prod.mk.inj (Option.some.inj h)
  exact ⟨os₁, os₂, hmanager, hconsumers, rfl⟩

theorem step_consume {s t : State} {c : Consumers.Consumer} {now : Int} {calls : SqliteCalls}
    {os : List Event} (h : step value socketFd s (.consume c now calls) = some (t, os)) :
    ∃ os₁, Consumers.step s.consumers (.consume c now calls) = some (t.consumers, os₁) ∧
      t.manager = s.manager ∧
      os = os₁.map .consumers ++ (Consumers.refusedBy s.consumers (.consume c now calls)).map
        fun p => .refused p.1 p.2 := by
  obtain ⟨⟨consumers, os₁⟩, hconsumers, h⟩ := Option.bind_eq_some_iff.mp h
  obtain ⟨rfl, rfl⟩ := Prod.mk.inj (Option.some.inj h)
  exact ⟨os₁, hconsumers, rfl, rfl⟩

theorem books_step {N : Nat} {sb : Sbuffer ℚ} {s t : State} {a : Act} {os os' : List Event}
    (hstart : Consumers.Ledger N [] [] (Consumers.start sb)) (h : Books value socketFd sb os s)
    (hstep : step value socketFd s a = some (t, os')) :
    Books value socketFd sb (os ++ os') t := by
  obtain ⟨mas, hmanager⟩ := h.manager
  obtain ⟨cas, hconsumers, hpushed⟩ := h.consumers
  have hwell := (Consumers.ledger_of_run hstart hconsumers).wellFormed
  cases a with
  | manager a =>
    obtain ⟨os₁, os₂, hm, hc, rfl⟩ := step_manager hstep
    obtain ⟨hm₁, hc₁, hr₁⟩ := of_manager os₁
    obtain ⟨hm₂, hc₂, hr₂⟩ := of_consumers os₂
    have hquiet : ∀ a ∈ pushes value os₁, a.consumer? = none := by
      intro a ha
      obtain ⟨p, -, rfl⟩ := List.mem_map.mp ha
      rfl
    have hnow := h.accounted.run_pushes hwell hquiet hc
    constructor
    · rw [managerEvents_append, managerEvents_append, hm₁, hm₂, List.append_nil]
      exact ⟨mas ++ [a], Machine.run_snoc_eq_some.mpr ⟨_, _, _, hmanager, hm, rfl⟩⟩
    · rw [consumerEvents_append, consumerEvents_append, hc₁, hc₂, List.nil_append, records,
        managerEvents_append, managerEvents_append, hm₁, hm₂, List.append_nil,
        List.filterMap_append, List.map_append]
      refine ⟨cas ++ pushes value os₁,
        Machine.run_append_eq_some.mpr ⟨_, _, _, hconsumers, hc, rfl⟩, ?_⟩
      rw [pushedReadings_append, hpushed, pushedReadings_pushes]
      rfl
    · rw [consumerEvents_append, consumerEvents_append, hc₁, hc₂, List.nil_append,
        refused_append, refused_append, hr₁, hr₂, List.append_nil, List.append_nil]
      exact hnow
  | consume c now calls =>
    obtain ⟨os₁, hc, hm, rfl⟩ := step_consume hstep
    obtain ⟨hm₁, hc₁, hr₁⟩ := of_consumers os₁
    obtain ⟨hm₂, hc₂, hr₂⟩ := of_refused (Consumers.refusedBy s.consumers (.consume c now calls))
    have hnow := h.accounted.step (Consumers.step_moves hwell hc)
    constructor
    · rw [managerEvents_append, managerEvents_append, hm₁, hm₂, List.append_nil,
        List.append_nil, hm]
      exact ⟨mas, hmanager⟩
    · rw [consumerEvents_append, consumerEvents_append, hc₁, hc₂, List.append_nil, records,
        managerEvents_append, managerEvents_append, hm₁, hm₂, List.append_nil,
        List.append_nil]
      refine ⟨cas ++ [.consume c now calls],
        Machine.run_snoc_eq_some.mpr ⟨_, _, _, hconsumers, hc, rfl⟩, ?_⟩
      rw [pushedReadings_append, hpushed]
      exact List.append_nil _
    · rw [consumerEvents_append, consumerEvents_append, hc₁, hc₂, List.append_nil,
        refused_append, refused_append, hr₁, hr₂, List.nil_append]
      exact hnow

theorem books_of_run {N : Nat} {sb : Sbuffer ℚ} {as : List Act} {s : State} {os : List Event}
    (hstart : Consumers.Ledger N [] [] (Consumers.start sb))
    (hrun : Machine.run (step value socketFd) (start sb) as = some (s, os)) :
    Books value socketFd sb os s := by
  have hempty : Books value socketFd sb [] (start sb) :=
    ⟨⟨[], rfl⟩, ⟨[], rfl, rfl⟩, Consumers.accounted_start sb⟩
  exact Machine.run_induction (P := fun _ os u => Books value socketFd sb os u) hempty
    (fun _ _ _ _ _ _ _ hu hstep => books_step hstart hu hstep) hrun

/-! ## The readings of one connection -/

/-- The readings that were pushed for a connection, of those in a list. -/
def ofConnection (fd : Int) (os : List Event) (l : List (SensorData ℚ × Nat)) :
    List (SensorData ℚ) :=
  (l.filter fun p => (records os)[p.2]?.any fun q => q.1 = fd).map Prod.fst

/-- The rows of `measurements` that come from a connection. -/
def rows (fd : Int) (os : List Event) : List (SensorData ℚ) :=
  ofConnection fd os (Consumers.inserted (consumerEvents os))

/-- The readings of a connection that `data_manager` went through an iteration for. -/
def handled (fd : Int) (os : List Event) : List (SensorData ℚ) :=
  ofConnection fd os (Consumers.handled (consumerEvents os))

/-- The readings of a connection that were overwritten in the full buffer. -/
def overwritten (fd : Int) (os : List Event) : List (SensorData ℚ) :=
  ofConnection fd os (DropOldest.overwritten (Consumers.history (consumerEvents os)))

/-- The readings of a connection in the buffer or in the hands of a consumer. -/
def underway (fd : Int) (os : List Event) (s : State) : List (SensorData ℚ) :=
  ofConnection fd os
    (SbufferThreads.stampedQueue s.consumers.buffer ++ s.consumers.held)

theorem ofConnection_perm (fd : Int) (os : List Event) {l l' : List (SensorData ℚ × Nat)}
    (h : l.Perm l') : (ofConnection fd os l).Perm (ofConnection fd os l') :=
  (h.filter _).map _

theorem ofConnection_sublist (fd : Int) (os : List Event) {l l' : List (SensorData ℚ × Nat)}
    (h : l.Sublist l') : (ofConnection fd os l).Sublist (ofConnection fd os l') :=
  (h.filter _).map _

theorem ofConnection_append (fd : Int) (os : List Event) (l l' : List (SensorData ℚ × Nat)) :
    ofConnection fd os (l ++ l') = ofConnection fd os l ++ ofConnection fd os l' := by
  rw [ofConnection, List.filter_append, List.map_append]
  rfl

/-- The pushes of a run are the records of the connection manager, numbered. -/
theorem pushes_eq {N : Nat} {sb : Sbuffer ℚ} {os : List Event} {s : State}
    (hstart : Consumers.Ledger N [] [] (Consumers.start sb))
    (h : Books value socketFd sb os s) :
    DropOldest.pushes (Consumers.history (consumerEvents os)) =
      ((records os).map fun p => reading value p.2).zipIdx := by
  obtain ⟨as, hrun, hpushed⟩ := h.consumers
  have hledger := Consumers.ledger_of_run hstart hrun
  obtain ⟨bs, q, hq, -⟩ := hledger.queue
  have hnumbered := (DropOldest.run_accounts hq).numbered
  have hpushes := hledger.pushes
  have hlength := congrArg List.length (hnumbered.trans rfl)
  rw [List.length_map, List.length_range] at hlength
  rw [← hpushed, ← hpushes, List.zipIdx_eq_zip_range', List.length_map, hlength,
    ← List.range_eq_range', ← hnumbered]
  exact List.zip_of_prod rfl rfl

/-- The numbers of a numbered list lead back to its elements. -/
theorem filter_zipIdx {α β : Type} (f : α → β) (q : α → Bool) (xs : List α) :
    ((xs.map f).zipIdx.filter fun p => xs[p.2]?.any q).map Prod.fst = (xs.filter q).map f := by
  have hindex : ∀ p ∈ xs.zipIdx, (xs[p.2]?.any q) = q p.1 := by
    intro p hp
    rw [List.mem_zipIdx_iff_getElem?.mp hp]
    rfl
  calc ((xs.map f).zipIdx.filter fun p => xs[p.2]?.any q).map Prod.fst
      = (xs.zipIdx.filter fun p => xs[p.2]?.any q).map (f ∘ Prod.fst) := by
        rw [List.zipIdx_map, List.filter_map, List.map_map]
        rfl
    _ = (xs.zipIdx.filter (q ∘ Prod.fst)).map (f ∘ Prod.fst) := by
        rw [List.filter_congr hindex]
        rfl
    _ = ((xs.zipIdx.map Prod.fst).filter q).map f := by
        rw [List.filter_map, List.map_map]
    _ = (xs.filter q).map f := by
        rw [List.zipIdx_map_fst]

/-- Of the pushes, those of a connection are what the connection manager pushed for it. -/
theorem ofConnection_pushes {N : Nat} {sb : Sbuffer ℚ} {os : List Event} {s : State}
    (hstart : Consumers.Ledger N [] [] (Consumers.start sb))
    (h : Books value socketFd sb os s) (fd : Int) :
    ofConnection fd os (DropOldest.pushes (Consumers.history (consumerEvents os))) =
      (ConnectionManager.pushed fd (managerEvents os)).map (reading value) := by
  have hfilter := filter_zipIdx (fun p : Int × SensorRecord => reading value p.2)
    (fun q => decide (q.1 = fd)) (records os)
  have hpart : ConnectionManager.pushed fd (managerEvents os) =
      ((records os).filter fun q => decide (q.1 = fd)).map Prod.snd := by
    rw [records, ConnectionManager.pushed, List.filter_filterMap, List.map_filterMap]
    apply List.filterMap_congr
    intro e _
    cases e with
    | pushed fd' data =>
      by_cases hfd : fd' = fd
      · simp [record?, hfd]
      · simp [record?, hfd]
    | _ => rfl
  rw [pushes_eq hstart h, ofConnection, hfilter, hpart, List.map_map]
  rfl

/-- What both consumers do is a part of the pops, and so of the pushes. -/
theorem dealt_sublist {N : Nat} {sb : Sbuffer ℚ} {os : List Event} {s : State}
    (hstart : Consumers.Ledger N [] [] (Consumers.start sb))
    (h : Books value socketFd sb os s) (c : Consumers.Consumer) :
    (Consumers.dealt c (consumerEvents os)).Sublist
      (DropOldest.pushes (Consumers.history (consumerEvents os))) := by
  obtain ⟨as, hrun, -⟩ := h.consumers
  obtain ⟨bs, q, hq, -⟩ := (Consumers.ledger_of_run hstart hrun).queue
  have hkept := (DropOldest.run_accounts hq).kept
  have hpops : (DropOldest.pops (Consumers.history (consumerEvents os))).Sublist
      (DropOldest.survivors (Consumers.history (consumerEvents os))) := by
    rw [hkept]
    exact List.sublist_append_left ..
  have hdealt := (List.sublist_append_left ..).trans (h.accounted.order c)
  exact hdealt.trans (hpops.trans List.filter_sublist)

/-- Every pushed reading is somewhere, once. -/
theorem pushes_perm {N : Nat} {sb : Sbuffer ℚ} {os : List Event} {s : State}
    (hstart : Consumers.Ledger N [] [] (Consumers.start sb))
    (h : Books value socketFd sb os s) :
    (Consumers.handled (consumerEvents os) ++ Consumers.inserted (consumerEvents os) ++
        refused os ++ DropOldest.overwritten (Consumers.history (consumerEvents os)) ++
        (SbufferThreads.stampedQueue s.consumers.buffer ++ s.consumers.held)).Perm
      (DropOldest.pushes (Consumers.history (consumerEvents os))) := by
  obtain ⟨as, hrun, -⟩ := h.consumers
  obtain ⟨bs, q, hq, hR⟩ := (Consumers.ledger_of_run hstart hrun).queue
  rw [List.perm_iff_count]
  intro p
  have hpops : List.count p (Consumers.handled (consumerEvents os) ++
      Consumers.inserted (consumerEvents os) ++ refused os ++ s.consumers.held) = _ :=
    h.accounted.all.count_eq p
  have hpushes := (DropOldest.run_accounts hq).perm.count_eq p
  rw [hR.queue_eq] at hpushes
  simp only [List.count_append] at hpops hpushes ⊢
  omega

/-- A consumer comes to its pop, takes a reading and goes through with it. -/
def takes (c : Consumers.Consumer) : List Act :=
  List.replicate 3 (.consume c 100 ⟨fun _ => true, true, fun _ => true⟩)

end EndToEnd
end Gateway
end LinuxEmbedded
