import LinuxEmbedded.Gateway.ConnectionManager

/-
The records of one connection, from the byte stream to `sbuffer_push`.

`handle_client_data` takes whatever one `read` returns for a record.  A registered
client is never closed while the gateway runs, so its descriptor stands for one
connection.
-/
namespace LinuxEmbedded
namespace Gateway
namespace ConnectionManager

open Framing (Byte)

/-- What each successful read of a connection returned. -/
def received (fd : Int) (os : List Event) : List (List Byte) :=
  os.filterMap fun
    | .received fd' bytes _ => if fd' = fd then some bytes else none
    | _ => none

/-- The records handed to `sbuffer_push` for a connection. -/
def pushed (fd : Int) (os : List Event) : List SensorRecord :=
  os.filterMap fun
    | .pushed fd' data => if fd' = fd then some data else none
    | _ => none

/-- One record for each read, the right one if the read was full. -/
structure Decoded (fd : Int) (os : List Event) : Prop where
  length_eq : (pushed fd os).length = (received fd os).length
  bound : ∀ bytes ∈ received fd os, bytes.length ≤ recordSize
  full : (∀ bytes ∈ received fd os, bytes.length = recordSize) →
    pushed fd os = (received fd os).map recordOf

theorem received_append (fd : Int) (os os' : List Event) :
    received fd (os ++ os') = received fd os ++ received fd os' :=
  List.filterMap_append

theorem pushed_append (fd : Int) (os os' : List Event) :
    pushed fd (os ++ os') = pushed fd os ++ pushed fd os' :=
  List.filterMap_append

/-- A full read leaves nothing of what was on the stack. -/
theorem readInto_full {stale bytes : List Byte} (hsize : stale.length = recordSize)
    (hfull : bytes.length = recordSize) : readInto stale bytes = bytes := by
  rw [readInto, hfull, ← hsize, List.drop_length, List.append_nil]

theorem Decoded.silent {fd : Int} {os os' : List Event} (h : Decoded fd os)
    (hreceived : received fd os' = []) (hpushed : pushed fd os' = []) :
    Decoded fd (os ++ os') := by
  have hr : received fd (os ++ os') = received fd os := by
    rw [received_append, hreceived, List.append_nil]
  have hp : pushed fd (os ++ os') = pushed fd os := by
    rw [pushed_append, hpushed, List.append_nil]
  constructor
  · rw [hr, hp]
    exact h.length_eq
  · rw [hr]
    exact h.bound
  · rw [hr, hp]
    exact h.full

theorem Decoded.read {fd : Int} {os os' : List Event} {bytes stale : List Byte}
    (h : Decoded fd os) (hbound : bytes.length ≤ recordSize) (hsize : stale.length = recordSize)
    (hreceived : received fd os' = [bytes])
    (hpushed : pushed fd os' = [recordOf (readInto stale bytes)]) : Decoded fd (os ++ os') := by
  have hr : received fd (os ++ os') = received fd os ++ [bytes] := by
    rw [received_append, hreceived]
  have hp : pushed fd (os ++ os') = pushed fd os ++ [recordOf (readInto stale bytes)] := by
    rw [pushed_append, hpushed]
  constructor
  · rw [hr, hp, List.length_append, List.length_append, h.length_eq]
    rfl
  · rw [hr]
    intro bytes' hmem
    rcases List.mem_append.mp hmem with hmem | hmem
    · exact h.bound bytes' hmem
    · rw [List.mem_singleton.mp hmem]
      exact hbound
  · rw [hr, hp]
    intro hfull
    have hlast : bytes.length = recordSize :=
      hfull bytes (List.mem_append_right _ (List.mem_singleton_self bytes))
    have hbefore := h.full fun bytes' hmem => hfull bytes' (List.mem_append_left _ hmem)
    rw [List.map_append, hbefore, readInto_full hsize hlast]
    rfl

/-- A sweep neither reads nor pushes. -/
theorem sweep_silent (fd : Int) (now : Nat → Int64) (ids : List Int) :
    received fd (.swept now ids :: ids.map fun id => .logged (timeoutMessage id)) = [] ∧
      pushed fd (.swept now ids :: ids.map fun id => .logged (timeoutMessage id)) = [] := by
  simp only [received, pushed, List.filterMap_cons, List.filterMap_map]
  constructor
  · apply List.filterMap_eq_nil_iff.mpr
    intro id _
    rfl
  · apply List.filterMap_eq_nil_iff.mpr
    intro id _
    rfl

theorem decoded_step {socketFd fd : Int} {s t : State} {a : Act} {os os' : List Event}
    (hw : s.WellFormed) (h : Decoded fd os) (hstep : step socketFd s a = some (t, os')) :
    t.WellFormed ∧ Decoded fd (os ++ os') := by
  obtain ⟨hwt, hmove⟩ := step_moves hw hstep
  refine ⟨hwt, ?_⟩
  generalize t.tables = v at hmove
  cases hmove with
  | @data i readfds fd' bytes stale ret now at_ hclient hne hbound hsize =>
    by_cases hfd : fd' = fd
    · apply h.read hbound hsize
      · simp [received, receivedMessages, hfd]
      · simp [pushed, receivedMessages, hfd]
    · apply h.silent
      · simp [received, receivedMessages, hfd]
      · simp [pushed, receivedMessages, hfd]
  | @sweep now =>
    have hnone := sweep_silent fd now
      ((expired now 0 s.tables.entries).map ConnectionTracking.connectionId)
    exact h.silent hnone.1 hnone.2
  | _ => exact h.silent rfl rfl

/-- What the reads with data of a schedule return, whoever they are of. -/
def dataResults (as : List Act) : List (List Byte) :=
  as.filterMap fun
    | .read (some (b :: bytes)) _ _ _ => some (b :: bytes)
    | _ => none

/-- The data the manager says it received is the data the reads returned. -/
theorem received_eq_dataResults {socketFd : Int} {as : List Act} {s : State} {os : List Event}
    (hrun : Machine.run (step socketFd) start as = some (s, os)) :
    (os.filterMap fun
      | .received _ bytes _ => some bytes
      | _ => none) = dataResults as := by
  refine (Machine.run_induction (P := fun as os u => u.WellFormed ∧
    (os.filterMap fun
      | .received _ bytes _ => some bytes
      | _ => none) = dataResults as) ⟨wellFormed_start, rfl⟩ ?_ hrun).2
  rintro as os u a t os' - ⟨hw, ih⟩ hstep
  obtain ⟨hwt, hmove⟩ := step_moves hw hstep
  refine ⟨hwt, ?_⟩
  rw [List.filterMap_append, ih, dataResults, dataResults, List.filterMap_append]
  congr 1
  generalize t.tables = v at hmove
  cases hmove with
  | @data i readfds fd bytes stale ret now at_ hclient hne =>
    cases bytes with
    | nil => exact absurd rfl hne
    | cons b bytes => rfl
  | @lose i readfds fd result stale ret now m at_ hclient hended =>
    match result, hended with
    | none, _ => rfl
    | some [], _ => rfl
  | sweep =>
    rw [List.filterMap_cons, List.filterMap_map]
    exact List.filterMap_eq_nil_iff.mpr fun _ _ => rfl
  | _ => rfl

theorem decoded_nil (fd : Int) : Decoded fd [] where
  length_eq := rfl
  bound := fun _ hmem => absurd hmem List.not_mem_nil
  full := fun _ => rfl

theorem decoded_of_run {socketFd : Int} {as : List Act} {s : State} {os : List Event}
    (hrun : Machine.run (step socketFd) start as = some (s, os)) (fd : Int) : Decoded fd os :=
  (Machine.run_induction (P := fun _ os u => u.WellFormed ∧ Decoded fd os)
    ⟨wellFormed_start, decoded_nil fd⟩
    (fun _ _ _ _ _ _ _ hu hstep => decoded_step hu.1 hu.2 hstep) hrun).2

/-- What was pushed for a connection is the records that have arrived, exactly when
every read of it was full. -/
theorem pushed_eq_arrived_iff {socketFd fd : Int} {as : List Act} {s : State} {os : List Event}
    {records : List SensorRecord}
    (hrun : Machine.run (step socketFd) start as = some (s, os))
    (hstream : (received fd os).flatten <+: recordCodec.stream records) :
    pushed fd os = recordCodec.arrived records (received fd os).flatten.length ↔
      ∀ bytes ∈ received fd os, bytes.length = recordSize := by
  have hdecoded : s.WellFormed ∧ Decoded fd os :=
    Machine.run_induction (P := fun _ os u => u.WellFormed ∧ Decoded fd os)
      ⟨wellFormed_start, decoded_nil fd⟩
      (fun _ _ _ _ _ _ _ hu hstep => decoded_step hu.1 hu.2 hstep) hrun
  exact recordCodec.decode_eq_arrived_iff (pushed fd os) hdecoded.2.length_eq hdecoded.2.full
    hdecoded.2.bound hstream

/-- A sensor that is accepted, and two reads on its connection. -/
def twoReads (bytes bytes' : List Byte) : List Act :=
  [.select [3], .accept [0, 1, 2] 4 100, .track 100, .next, .next,
    .select [4], .noConnection, .read (some bytes) (List.replicate 16 0) 0 100, .touch 100, .next,
    .select [4], .noConnection, .read (some bytes') (List.replicate 16 0) 0 101, .touch 101, .next]

/-- Two records, read one at a time. -/
theorem pushed_eq_arrived_iff_full_reads :
    ∃ s os, Machine.run (step 3) start
        (twoReads (recordBytes ⟨7, 0x41A00000, 100⟩) (recordBytes ⟨7, 0x41A80000, 101⟩)) =
          some (s, os) ∧
      pushed 4 os = [⟨7, 0x41A00000, 100⟩, ⟨7, 0x41A80000, 101⟩] := by
  have hmap : (Machine.run (step 3) start
      (twoReads (recordBytes ⟨7, 0x41A00000, 100⟩) (recordBytes ⟨7, 0x41A80000, 101⟩))).map
      (fun q => received 4 q.2) =
      some [recordBytes ⟨7, 0x41A00000, 100⟩, recordBytes ⟨7, 0x41A80000, 101⟩] := by
    decide +kernel
  obtain ⟨⟨s, os⟩, hrun, hreceived⟩ := Option.map_eq_some_iff.mp hmap
  have hreceived : received 4 os =
      [recordBytes ⟨7, 0x41A00000, 100⟩, recordBytes ⟨7, 0x41A80000, 101⟩] := hreceived
  have hflat : (received 4 os).flatten =
      recordCodec.stream [⟨7, 0x41A00000, 100⟩, ⟨7, 0x41A80000, 101⟩] := by
    rw [hreceived]
    rfl
  have hstream : (received 4 os).flatten <+:
      recordCodec.stream [⟨7, 0x41A00000, 100⟩, ⟨7, 0x41A80000, 101⟩] :=
    hflat ▸ List.prefix_rfl
  have hfull : ∀ bytes ∈ received 4 os, bytes.length = recordSize := by
    rw [hreceived]
    decide +kernel
  refine ⟨s, os, hrun, ?_⟩
  rw [(pushed_eq_arrived_iff hrun hstream).mpr hfull, hflat, recordCodec.stream_length]
  rfl

/-- One record that arrives in two halves is pushed as two. -/
theorem short_read_is_pushed :
    ∃ s os, Machine.run (step 3) start
        (twoReads ((recordBytes ⟨7, 0x41A00000, 100⟩).take 8)
          ((recordBytes ⟨7, 0x41A00000, 100⟩).drop 8)) = some (s, os) ∧
      (received 4 os).flatten = recordCodec.stream [⟨7, 0x41A00000, 100⟩] ∧
      pushed 4 os ≠ recordCodec.arrived [⟨7, 0x41A00000, 100⟩] (received 4 os).flatten.length := by
  have hmap : (Machine.run (step 3) start
      (twoReads ((recordBytes ⟨7, 0x41A00000, 100⟩).take 8)
        ((recordBytes ⟨7, 0x41A00000, 100⟩).drop 8))).map
      (fun q => ((received 4 q.2).flatten, (pushed 4 q.2).length)) =
      some (recordBytes ⟨7, 0x41A00000, 100⟩, 2) := by
    decide +kernel
  obtain ⟨⟨s, os⟩, hrun, heq⟩ := Option.map_eq_some_iff.mp hmap
  obtain ⟨hflat, hlength⟩ := Prod.mk.inj heq
  have hflat : (received 4 os).flatten = recordCodec.stream [⟨7, 0x41A00000, 100⟩] := hflat
  refine ⟨s, os, hrun, hflat, ?_⟩
  intro h
  have hle : (pushed 4 os).length ≤ 1 := by
    rw [h]
    exact List.length_take_le' ..
  rw [show (pushed 4 os).length = 2 from hlength] at hle
  omega

end ConnectionManager
end Gateway
end LinuxEmbedded
