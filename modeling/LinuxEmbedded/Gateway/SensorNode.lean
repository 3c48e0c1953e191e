import LinuxEmbedded.Gateway.CommandLine
import LinuxEmbedded.Gateway.SensorStream
import Mathlib.Algebra.Order.Ring.Rat
import Mathlib.Data.Rat.Floor

/-
A sensor node, `sensor_node.c`, and what the gateway makes of it.

The draws of `rand`, the clock and the results of the system calls come with the
labels.  The sum in `sensor_send_data` is a `double`, in which it is exact, and is then
rounded to a `float`; the rounding is a parameter.  A signal ends the process where it
stands.
-/
namespace LinuxEmbedded
namespace Gateway
namespace SensorNode

open Framing (Byte)
open CommandLine (Simulation NodeMain nodeMain)

def minTemp : Nat := 0

def maxTemp : Nat := 100

/-- `RAND_MAX`. -/
def randMax : Nat := 2147483647

abbrev Draw := Fin (randMax + 1)

/-- `MIN_TEMP + (rand() % (int)(MAX_TEMP - MIN_TEMP + 1)) + (rand() / (RAND_MAX + 1.0))`. -/
def temperature (first second : Draw) : ℚ :=
  ((minTemp + first.val % (maxTemp - minTemp + 1) : Nat) : ℚ) + second.val / (randMax + 1 : Nat)

/-- Where `sensor_node_simulate` is. -/
inductive Place where
  | socket
  | connect
  | register
  /-- At the head of its loop, after so many records. -/
  | sending (sent : Nat)
  /-- Past `close`. -/
  | finished
  | exited (status : Int)
  deriving DecidableEq, Repr

structure Node where
  place : Place
  data : SensorRecord
  deriving DecidableEq, Repr

inductive Act where
  | socket (ok : Bool)
  | connect (ok : Bool)
  /-- `time`, `srand` and `signal`. -/
  | register (now : Int64) (ok : Bool)
  /-- One call of `sensor_send_data`; `write` returns -1 or a number of bytes. -/
  | send (first second : Draw) (now : Int64) (wrote : Option Nat)
  /-- The loop is over. -/
  | finish
  | sigint

inductive Event where
  | connected (port : BitVec 16)
  /-- A record was written as a whole. -/
  | sent (data : SensorRecord)
  /-- The bytes a `write` took. -/
  | wrote (bytes : List Byte)
  deriving DecidableEq, Repr

def start : Node := ⟨.socket, ⟨0, 0, 0⟩⟩

/-- The condition of the loop: for ever, or `send_count` times. -/
def GoesOn (sim : Simulation) (sent : Nat) : Prop := sim.sendCount = -1 ∨ sent < sim.sendCount

instance (sim : Simulation) (sent : Nat) : Decidable (GoesOn sim sent) :=
  inferInstanceAs (Decidable (_ ∨ _))

section Run

variable (toFloat : ℚ → FloatBits) (sim : Simulation)

/-- The record that the next call of `sensor_send_data` writes. -/
def update (data : SensorRecord) (first second : Draw) (now : Int64) : SensorRecord :=
  { data with temperature := toFloat (temperature first second), timestamp := now }

def step (n : Node) : Act → Option (Node × List Event)
  | .socket ok =>
    match n.place with
    | .socket => some ({ n with place := if ok then .connect else .exited 1 }, [])
    | _ => none
  | .connect ok =>
    match n.place with
    | .connect =>
      if ok then
        some ({ n with place := .register }, [.connected (BitVec.ofInt 16 sim.port)])
      else some ({ n with place := .exited 1 }, [])
    | _ => none
  | .register now ok =>
    match n.place with
    | .register =>
      some (⟨if ok then .sending 0 else .exited 1, ⟨Int32.ofInt sim.sensorId, 0, now⟩⟩, [])
    | _ => none
  | .send first second now wrote =>
    match n.place with
    | .sending sent =>
      if GoesOn sim sent then
        let data := update toFloat n.data first second now
        match wrote with
        | none => some (⟨.exited 1, data⟩, [])
        | some count =>
          if count = recordSize then
            some (⟨.sending (sent + 1), data⟩, [.sent data, .wrote (recordBytes data)])
          else if count < recordSize then
            some (⟨.exited 1, data⟩, [.wrote ((recordBytes data).take count)])
          else none
      else none
    | _ => none
  | .finish =>
    match n.place with
    | .sending sent =>
      if GoesOn sim sent then none else some ({ n with place := .finished }, [])
    | _ => none
  | .sigint =>
    match n.place with
    | .exited _ => none
    | .finished => none
    | _ => some ({ n with place := .exited 0 }, [])

end Run

/-! ## What a node writes -/

/-- The bytes on its socket. -/
def wire (os : List Event) : List Byte :=
  os.flatMap fun
    | .wrote bytes => bytes
    | _ => []

/-- The records written as a whole. -/
def records (os : List Event) : List SensorRecord :=
  os.filterMap fun
    | .sent data => some data
    | _ => none

/-- A record of this node: its own id, and a temperature from `MIN_TEMP` to below
`MAX_TEMP + 1` before it is rounded. -/
def Own (toFloat : ℚ → FloatBits) (sim : Simulation) (data : SensorRecord) : Prop :=
  data.sensorId = Int32.ofInt sim.sensorId ∧
    ∃ x : ℚ, minTemp ≤ x ∧ x < maxTemp + 1 ∧ data.temperature = toFloat x

/-- The loop has not begun. -/
def Place.Before : Place → Prop
  | .socket | .connect | .register => True
  | _ => False

/-- What holds after every run. -/
structure Inv (toFloat : ℚ → FloatBits) (sim : Simulation) (os : List Event) (n : Node) :
    Prop where
  own : ∀ data ∈ records os, Own toFloat sim data
  within : sim.sendCount = -1 ∨ ((records os).length : Int) ≤ max sim.sendCount 0
  /-- What follows the records is less than one, and the last a node writes. -/
  stream : ∃ tail, wire os = recordCodec.stream (records os) ++ tail ∧
    tail.length < recordSize ∧ (tail = [] ∨ n.place = .exited 1)
  before : n.place.Before → records os = []
  sending : ∀ sent, n.place = .sending sent →
    (records os).length = sent ∧ n.data.sensorId = Int32.ofInt sim.sensorId
  finished : n.place = .finished → ((records os).length : Int) = max sim.sendCount 0

variable {toFloat : ℚ → FloatBits} {sim : Simulation} {n m : Node} {os os' : List Event}

theorem temperature_bounds (first second : Draw) :
    (minTemp : ℚ) ≤ temperature first second ∧ temperature first second < maxTemp + 1 := by
  have hfirst : first.val % (maxTemp - minTemp + 1) ≤ maxTemp := by
    have hlt := Nat.mod_lt first.val (show 0 < maxTemp - minTemp + 1 by decide)
    have hrange : maxTemp - minTemp + 1 = maxTemp + 1 := rfl
    omega
  have hpos : (0 : ℚ) < (randMax + 1 : Nat) := by
    exact_mod_cast Nat.succ_pos randMax
  have hlow : (0 : ℚ) ≤ second.val / (randMax + 1 : Nat) :=
    div_nonneg (Nat.cast_nonneg _) (le_of_lt hpos)
  have hhigh : (second.val : ℚ) / (randMax + 1 : Nat) < 1 := by
    rw [div_lt_one hpos]
    exact_mod_cast second.isLt
  have hzero : minTemp = 0 := rfl
  rw [temperature, hzero, Nat.zero_add]
  constructor
  · have hcast : (0 : ℚ) ≤ ((first.val % (maxTemp - 0 + 1) : Nat) : ℚ) := Nat.cast_nonneg _
    rw [Nat.cast_zero]
    linarith
  · have hcast : ((first.val % (maxTemp - 0 + 1) : Nat) : ℚ) ≤ (maxTemp : ℚ) := by
      exact_mod_cast hfirst
    linarith

theorem wire_append : wire (os ++ os') = wire os ++ wire os' := List.flatMap_append

theorem records_append : records (os ++ os') = records os ++ records os' :=
  List.filterMap_append

theorem inv_start : Inv toFloat sim [] start where
  own := fun _ hdata => absurd hdata List.not_mem_nil
  within := Or.inr (le_max_right ..)
  stream := ⟨[], rfl, by decide, Or.inl rfl⟩
  before := fun _ => rfl
  sending := fun _ h => by cases h
  finished := fun h => by cases h

/-- A step that writes nothing, from a place where nothing is half written. -/
theorem Inv.silent (h : Inv toFloat sim os n) (hwhole : n.place ≠ .exited 1)
    (hwire : wire os' = []) (hrecords : records os' = [])
    (hbefore : m.place.Before → records os = [])
    (hsending : ∀ sent, m.place = .sending sent →
      (records os).length = sent ∧ m.data.sensorId = Int32.ofInt sim.sensorId)
    (hfinished : m.place = .finished → ((records os).length : Int) = max sim.sendCount 0) :
    Inv toFloat sim (os ++ os') m := by
  have hw : wire (os ++ os') = wire os := by rw [wire_append, hwire, List.append_nil]
  have hr : records (os ++ os') = records os := by
    rw [records_append, hrecords, List.append_nil]
  obtain ⟨tail, hstream, hlt, htail⟩ := h.stream
  refine ⟨?_, ?_, ⟨tail, ?_, hlt, Or.inl ?_⟩, ?_, ?_, ?_⟩
  · rw [hr]
    exact h.own
  · rw [hr]
    exact h.within
  · rw [hw, hr]
    exact hstream
  · exact htail.resolve_right hwhole
  · rw [hr]
    exact hbefore
  · rw [hr]
    exact hsending
  · rw [hr]
    exact hfinished

theorem own_update {data : SensorRecord} (h : data.sensorId = Int32.ofInt sim.sensorId)
    (first second : Draw) (now : Int64) :
    Own toFloat sim (update toFloat data first second now) :=
  ⟨h, temperature first second, (temperature_bounds first second).1,
    (temperature_bounds first second).2, rfl⟩

/-- A record more, as a whole. -/
theorem Inv.sent {data : SensorRecord} {sent : Nat} (h : Inv toFloat sim os n)
    (hplace : n.place = .sending sent) (hgoes : GoesOn sim sent) (hown : Own toFloat sim data) :
    Inv toFloat sim (os ++ [.sent data, .wrote (recordBytes data)])
      ⟨.sending (sent + 1), data⟩ := by
  obtain ⟨tail, hstream, -, htail⟩ := h.stream
  obtain ⟨hlength, -⟩ := h.sending sent hplace
  have hnil : tail = [] := by
    refine htail.resolve_right ?_
    rw [hplace]
    exact fun he => by cases he
  have hr : records (os ++ [.sent data, .wrote (recordBytes data)]) = records os ++ [data] :=
    records_append
  have hlast : wire [.sent data, .wrote (recordBytes data)] = recordBytes data :=
    List.append_nil _
  refine ⟨?_, ?_, ⟨[], ?_, by decide, Or.inl rfl⟩, fun he => he.elim, ?_, fun he => by cases he⟩
  · rw [hr]
    intro data' hdata'
    rcases List.mem_append.mp hdata' with hdata' | hdata'
    · exact h.own data' hdata'
    · rw [List.mem_singleton.mp hdata']
      exact hown
  · rw [hr, List.length_append, hlength]
    rcases hgoes with hforever | hlt
    · exact Or.inl hforever
    · refine Or.inr ?_
      rw [List.length_singleton]
      omega
  · rw [wire_append, hlast, hr, hstream, hnil, List.append_nil, List.append_nil,
      Framing.Codec.stream, Framing.Codec.stream, List.map_append, List.flatten_append,
      List.map_singleton, List.flatten_singleton]
    rfl
  · intro sent' he
    cases he
    rw [hr, List.length_append, hlength]
    exact ⟨rfl, hown.1⟩

/-- A write that fails or is short ends the process. -/
theorem Inv.broke {data : SensorRecord} {bytes : List Byte} (h : Inv toFloat sim os n)
    (hplace : n.place ≠ .exited 1) (hwire : wire os' = bytes) (hrecords : records os' = [])
    (hlt : bytes.length < recordSize) : Inv toFloat sim (os ++ os') ⟨.exited 1, data⟩ := by
  obtain ⟨tail, hstream, -, htail⟩ := h.stream
  have hnil : tail = [] := htail.resolve_right hplace
  have hr : records (os ++ os') = records os := by
    rw [records_append, hrecords, List.append_nil]
  refine ⟨?_, ?_, ⟨bytes, ?_, hlt, Or.inr rfl⟩, fun he => he.elim, fun _ he => (by cases he),
    fun he => by cases he⟩
  · rw [hr]
    exact h.own
  · rw [hr]
    exact h.within
  · rw [wire_append, hwire, hr, hstream, hnil, List.append_nil]

theorem step_inv {a : Act} (h : Inv toFloat sim os n)
    (hstep : step toFloat sim n a = some (m, os')) : Inv toFloat sim (os ++ os') m := by
  cases a with
  | socket ok =>
    simp only [step] at hstep
    split at hstep
    · next hplace =>
      obtain ⟨rfl, rfl⟩ := Prod.mk.inj (Option.some.inj hstep)
      have hnone : records os = [] := h.before (by rw [hplace]; trivial)
      refine h.silent (by rw [hplace]; exact fun he => by cases he) rfl rfl (fun _ => hnone) ?_ ?_
      · intro sent he
        cases ok <;> cases he
      · intro he
        cases ok <;> cases he
    · cases hstep
  | connect ok =>
    simp only [step] at hstep
    split at hstep
    · next hplace =>
      have hwhole : n.place ≠ .exited 1 := by
        rw [hplace]
        exact fun he => by cases he
      have hnone : records os = [] := h.before (by rw [hplace]; trivial)
      cases ok with
      | true =>
        obtain ⟨rfl, rfl⟩ := Prod.mk.inj (Option.some.inj hstep)
        exact h.silent hwhole rfl rfl (fun _ => hnone) (fun _ he => by cases he)
          fun he => by cases he
      | false =>
        obtain ⟨rfl, rfl⟩ := Prod.mk.inj (Option.some.inj hstep)
        exact h.silent hwhole rfl rfl (fun _ => hnone) (fun _ he => by cases he)
          fun he => by cases he
    · cases hstep
  | register now ok =>
    simp only [step] at hstep
    split at hstep
    · next hplace =>
      have hwhole : n.place ≠ .exited 1 := by
        rw [hplace]
        exact fun he => by cases he
      have hnone : records os = [] := h.before (by rw [hplace]; trivial)
      cases ok with
      | true =>
        obtain ⟨rfl, rfl⟩ := Prod.mk.inj (Option.some.inj hstep)
        refine h.silent hwhole rfl rfl (fun _ => hnone) ?_ fun he => by cases he
        intro sent he
        cases he
        rw [hnone]
        exact ⟨rfl, rfl⟩
      | false =>
        obtain ⟨rfl, rfl⟩ := Prod.mk.inj (Option.some.inj hstep)
        exact h.silent hwhole rfl rfl (fun _ => hnone) (fun _ he => by cases he)
          fun he => by cases he
    · cases hstep
  | send first second now wrote =>
    simp only [step] at hstep
    split at hstep
    · next sent hplace =>
      obtain ⟨hgoes, hstep⟩ := Option.ite_none_right_eq_some.mp hstep
      obtain ⟨-, hid⟩ := h.sending sent hplace
      have hwhole : n.place ≠ .exited 1 := by
        rw [hplace]
        exact fun he => by cases he
      cases wrote with
      | none =>
        obtain ⟨rfl, rfl⟩ := Prod.mk.inj (Option.some.inj hstep)
        exact h.broke hwhole rfl rfl (by decide)
      | some count =>
        dsimp only at hstep
        by_cases hfull : count = recordSize
        · rw [if_pos hfull] at hstep
          obtain ⟨rfl, rfl⟩ := Prod.mk.inj (Option.some.inj hstep)
          exact h.sent hplace hgoes (own_update hid first second now)
        · rw [if_neg hfull] at hstep
          obtain ⟨hshort, hstep⟩ := Option.ite_none_right_eq_some.mp hstep
          obtain ⟨rfl, rfl⟩ := Prod.mk.inj (Option.some.inj hstep)
          refine h.broke hwhole (List.append_nil _) rfl ?_
          exact Nat.lt_of_le_of_lt (List.length_take_le ..) hshort
    · cases hstep
  | finish =>
    simp only [step] at hstep
    split at hstep
    · next sent hplace =>
      obtain ⟨hgoes, hstep⟩ := Option.ite_none_left_eq_some.mp hstep
      obtain ⟨rfl, rfl⟩ := Prod.mk.inj (Option.some.inj hstep)
      obtain ⟨hlength, -⟩ := h.sending sent hplace
      refine h.silent (by rw [hplace]; exact fun he => by cases he) rfl rfl (fun he => he.elim)
        (fun _ he => by cases he) ?_
      -- the loop is over with as many records as were asked for
      intro _
      have hstop : sim.sendCount ≠ -1 ∧ ¬(sent : Int) < sim.sendCount := not_or.mp hgoes
      rcases h.within with hforever | hle
      · exact absurd hforever hstop.1
      · rw [hlength] at hle ⊢
        omega
    · cases hstep
  | sigint =>
    simp only [step] at hstep
    split at hstep
    · cases hstep
    · cases hstep
    · next hplace _ =>
      obtain ⟨rfl, rfl⟩ := Prod.mk.inj (Option.some.inj hstep)
      exact h.silent (hplace 1) rfl rfl (fun he => he.elim) (fun _ he => by cases he)
        fun he => by cases he

theorem run_inv {as : List Act} (hrun : Machine.run (step toFloat sim) start as = some (n, os)) :
    Inv toFloat sim os n :=
  Machine.run_induction (P := fun _ os n => Inv toFloat sim os n) inv_start
    (fun _ _ _ _ _ _ _ h hstep => step_inv h hstep) hrun

/-! ## From the command line to the buffer -/

/-- What the checks of `main` leave. -/
theorem nodeMain_simulates {args : List (List Byte)} (h : nodeMain args = .simulates sim) :
    0 ≤ sim.sensorId ∧ sim.sensorId < 2 ^ 31 ∧ -1 ≤ sim.sendCount := by
  unfold nodeMain at h
  split at h
  · next portArg idArg more =>
    split at h
    · cases h
    · next port hport =>
      by_cases hid : Strtol.atoi idArg < 0
      · rw [if_pos hid] at h
        cases h
      · rw [if_neg hid] at h
        split at h
        · cases h
        · next countArg more =>
          by_cases hcount : Strtol.atoi countArg < -1
          · rw [if_pos hcount] at h
            cases h
          · rw [if_neg hcount] at h
            obtain rfl := NodeMain.simulates.inj h
            refine ⟨Int.not_lt.mp hid, ?_, Int.not_lt.mp hcount⟩
            have hlt : Strtol.atoi idArg < ((2 ^ 32 : Nat) + 1) / 2 :=
              Int.bmod_lt (by decide)
            show Strtol.atoi idArg < 2 ^ 31
            omega
  · cases h

theorem toInt_sensorId {args : List (List Byte)} (h : nodeMain args = .simulates sim) :
    (Int32.ofInt sim.sensorId).toInt = sim.sensorId := by
  obtain ⟨hlow, hhigh, -⟩ := nodeMain_simulates h
  have hsize : Int32.size = 2 ^ 32 := rfl
  rw [Int32.toInt_ofInt, hsize]
  exact Int.bmod_eq_of_le (by omega) (by omega)

/-- What a gateway has of a connection whose reads were full, when the bytes are a node's. -/
theorem pushed_of_wire {socketFd fd : Int} {as : List ConnectionManager.Act}
    {s : ConnectionManager.State} {es : List ConnectionManager.Event}
    (h : Inv toFloat sim os n)
    (hrun : Machine.run (ConnectionManager.step socketFd) ConnectionManager.start as =
      some (s, es))
    (hwire : (ConnectionManager.received fd es).flatten <+: wire os)
    (hfull : ∀ bytes ∈ ConnectionManager.received fd es, bytes.length = recordSize) :
    ConnectionManager.pushed fd es =
      (records os).take (ConnectionManager.received fd es).length := by
  have hdecoded := ConnectionManager.decoded_of_run hrun fd
  obtain ⟨tail, hstream, htail, -⟩ := h.stream
  rw [hstream] at hwire
  have hprefix := recordCodec.prefix_of_full hfull hwire htail
  rw [hdecoded.full hfull]
  exact recordCodec.decode_of_full hfull hprefix

/- Two records of node 7, and the rounding of their temperatures. -/
def roundTwo (x : ℚ) : FloatBits := if x = 21 then 0x41A80000 else 0x41A00000

def nodeArgs : List (List Byte) := [[0x35, 0x30, 0x30, 0x30], [0x37], [0x32]]

def nodeActs : List Act :=
  [.socket true, .connect true, .register 99 true, .send 20 0 100 (some 16),
    .send 21 0 101 (some 16), .finish]

end SensorNode
end Gateway
end LinuxEmbedded
