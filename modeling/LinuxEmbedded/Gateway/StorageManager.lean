import LinuxEmbedded.Gateway.Common
import Mathlib.Algebra.Order.Ring.Rat

/-
The storage manager, `storage_manager.c`: one row of `measurements` for a record.

SQLite is a list of answers.  A call that fails is made again, at most
`MAX_RETRIES` times in all.
-/
namespace LinuxEmbedded
namespace Gateway

/-- A row of the table `measurements`. -/
structure Measurement where
  id : Int32
  temp : ℚ
  time : Int64
  deriving DecidableEq, Repr

/-- The values bound to `INSERT INTO measurements VALUES (?, ?, ?);`. -/
def measurement (data : SensorData ℚ) : Measurement where
  id := data.sensorId
  temp := data.temperature
  time := data.timestamp

structure SqliteCalls where
  /-- Whether the attempt with this number returns `SQLITE_OK`. -/
  prepare : Nat → Bool
  bind : Bool
  /-- Whether the attempt with this number returns `SQLITE_DONE`. -/
  step : Nat → Bool

/-- No call that is made fails: each retried one succeeds at its first attempt. -/
def SqliteCalls.Succeed (calls : SqliteCalls) : Prop :=
  calls.prepare 0 = true ∧ calls.bind = true ∧ calls.step 0 = true

instance (calls : SqliteCalls) : Decidable calls.Succeed :=
  inferInstanceAs (Decidable (_ ∧ _))

/-- A retry loop with `left` attempts left: the value of its counter at the end. -/
def retryLoop (call : Nat → Bool) (format : String) (retries : Nat) :
    Nat → Nat × List (Message ℚ)
  | 0 => (retries, [])
  | left + 1 =>
    if call retries then (retries, [])
    else
      let (n, logs) := retryLoop call format (retries + 1) left
      (n, logEvent format [.int (retries + 1), .int maxRetries] :: logs)

/-- One iteration of `storage_manager` on a popped record: the row it inserts. -/
def storageManager (calls : SqliteCalls) (data : SensorData ℚ) :
    Option Measurement × List (Message ℚ) :=
  let (prepareRetries, prepareLogs) :=
    retryLoop calls.prepare "Failed to prepare insert statement, retry %d/%d" 0 maxRetries
  if prepareRetries = maxRetries then
    (none, prepareLogs ++ [logEvent
      "Max retries reached for preparing SQL statement, skipping this data point." []])
  else if !calls.bind then
    (none, prepareLogs ++ [logEvent "Failed to bind values to SQL statement" []])
  else
    let (stepRetries, stepLogs) :=
      retryLoop calls.step "Failed to insert row, retry %d/%d" 0 maxRetries
    if stepRetries = maxRetries then
      (none, prepareLogs ++ stepLogs ++ [logEvent
        "Max retries reached for inserting row, skipping this data point." []])
    else
      (some (measurement data),
        prepareLogs ++ stepLogs ++ [logEvent "Inserted a row to SQL table" []])

/-- The loop uses up its attempts exactly when none of them succeeds. -/
theorem retryLoop_eq_iff {call : Nat → Bool} {format : String} {retries left : Nat} :
    (retryLoop call format retries left).1 = retries + left ↔
      ∀ n, retries ≤ n → n < retries + left → call n = false := by
  induction left generalizing retries with
  | zero =>
    constructor
    · intro _ n hle hlt
      omega
    · intro _
      rfl
  | succ left ih =>
    by_cases hcall : call retries = true
    · rw [retryLoop, if_pos hcall]
      constructor
      · intro h
        have h : retries = retries + (left + 1) := h
        omega
      · intro h
        have hfalse := h retries (Nat.le_refl _) (by omega)
        rw [hcall] at hfalse
        cases hfalse
    · rw [retryLoop, if_neg hcall]
      show (retryLoop call format (retries + 1) left).1 = retries + (left + 1) ↔ _
      rw [show retries + (left + 1) = retries + 1 + left by omega, ih]
      constructor
      · intro h n hle hlt
        by_cases hn : n = retries
        · rw [hn]
          exact Bool.eq_false_iff.mpr hcall
        · exact h n (by omega) hlt
      · intro h n hle hlt
        exact h n (by omega) hlt

/-- The row of a record is inserted exactly when one of the first `MAX_RETRIES`
attempts at each retried call succeeds and the values are bound. -/
theorem storageManager_inserts_iff {calls : SqliteCalls} {data : SensorData ℚ}
    {row : Measurement} :
    (storageManager calls data).1 = some row ↔
      row = measurement data ∧ calls.bind = true ∧
        (∃ n < maxRetries, calls.prepare n = true) ∧ ∃ n < maxRetries, calls.step n = true := by
  have hattempts : ∀ (call : Nat → Bool) (format : String),
      (retryLoop call format 0 maxRetries).1 ≠ maxRetries ↔
        ∃ n < maxRetries, call n = true := by
    intro call format
    have hiff := @retryLoop_eq_iff call format 0 maxRetries
    rw [Nat.zero_add] at hiff
    rw [Ne, hiff]
    simp
  rw [← hattempts calls.prepare "Failed to prepare insert statement, retry %d/%d",
    ← hattempts calls.step "Failed to insert row, retry %d/%d"]
  unfold storageManager
  simp only
  by_cases hprepare : (retryLoop calls.prepare
      "Failed to prepare insert statement, retry %d/%d" 0 maxRetries).1 = maxRetries
  · simp [hprepare]
  · rw [if_neg hprepare]
    cases hbind : calls.bind with
    | false => simp
    | true =>
      by_cases hstep : (retryLoop calls.step
          "Failed to insert row, retry %d/%d" 0 maxRetries).1 = maxRetries
      · simp [hstep]
      · simp [hprepare, hstep, eq_comm]

theorem storageManager_of_succeed {calls : SqliteCalls} (h : calls.Succeed)
    (data : SensorData ℚ) : (storageManager calls data).1 = some (measurement data) := by
  obtain ⟨hprepare, hbind, hstep⟩ := h
  have hpos : 0 < maxRetries := by decide
  exact storageManager_inserts_iff.mpr
    ⟨rfl, hbind, ⟨0, hpos, hprepare⟩, 0, hpos, hstep⟩

end Gateway
end LinuxEmbedded
