import Mathlib.Data.Int.Notation

/-
Data shared by the parts of the sensor gateway.

Temperatures are a parameter: bit patterns of a C `float` on the wire, exact
rationals in the running averages.  Messages to the log process are modelled,
terminal output is not.
-/
namespace LinuxEmbedded
namespace Gateway

def maxSensors : Nat := 50

def timeoutSeconds : Int64 := 15

def maxRetries : Nat := 3

/-- One record of a sensor, `sensor_data_t`. -/
structure SensorData (T : Type) where
  sensorId : Int32
  temperature : T
  timestamp : Int64
  deriving DecidableEq, Repr

/-- An argument of a formatted message. -/
inductive Arg (T : Type) where
  | int (n : Int)
  | temp (t : T)
  deriving DecidableEq, Repr

/-- A message handed to `log_event`: the format given to `snprintf` and its
arguments. -/
structure Message (T : Type) where
  format : String
  args : List (Arg T)
  deriving DecidableEq, Repr

def logEvent {T : Type} (format : String) (args : List (Arg T)) : Message T :=
  { format, args }

/-! ## Undefined behaviour

An access outside an array and a remainder by zero are `none`. -/

/-- `a % b`. -/
def cMod (a b : Nat) : Option Nat := if b = 0 then none else some (a % b)

/-- The cell of an access `cells[i]` with an `int` index. -/
def cIndex (i : Int) : Option Nat := if 0 ≤ i then some i.toNat else none

/-- `cells[i] = x`. -/
def cStore {α : Type} (cells : List α) (i : Nat) (x : α) : Option (List α) :=
  if i < cells.length then some (cells.set i x) else none

theorem cMod_of_pos {a b : Nat} (h : 0 < b) : cMod a b = some (a % b) :=
  if_neg (Nat.ne_of_gt h)

theorem cIndex_of_nonneg {i : Int} (h : 0 ≤ i) : cIndex i = some i.toNat := if_pos h

theorem cStore_of_lt {α : Type} {cells : List α} {i : Nat} (h : i < cells.length) (x : α) :
    cStore cells i x = some (cells.set i x) := if_pos h

end Gateway
end LinuxEmbedded
