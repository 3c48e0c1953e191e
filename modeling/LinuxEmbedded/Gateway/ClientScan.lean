import LinuxEmbedded.Gateway.ConnectionManager
import Mathlib.Data.List.Nodup

/-
One pass of `handle_client_data` over `client_fds`.

The loop deletes from the array it walks: `shift_clients` moves the tail down and
`i--` visits the slot again.  Seen on the list the array held before the pass, the
loop goes through it once.
-/
namespace LinuxEmbedded
namespace Gateway
namespace ConnectionManager

open Framing (Byte)

/-- The steps of `handle_client_data`. -/
def Act.scans : Act → Bool
  | .next | .read _ _ _ _ | .touch _ | .remove | .shift => true
  | _ => false

/-- What can happen during a pass: its own steps and those of the main thread. -/
def Act.InPass : Act → Prop
  | .next | .read _ _ _ _ | .touch _ | .remove | .shift | .initKeepAlive | .sweep _ => True
  | _ => False

/-- What the reads return, in order. -/
def readResults (as : List Act) : List (Option (List Byte)) :=
  as.filterMap fun
    | .read result _ _ _ => some result
    | _ => none

/-- The descriptors read from, in order. -/
def readFds (os : List Event) : List Int :=
  os.filterMap fun
    | .received fd _ _ => some fd
    | .lost fd => some fd
    | _ => none

def pushedRecords (os : List Event) : List (Int × SensorRecord) :=
  os.filterMap fun
    | .pushed fd data => some (fd, data)
    | _ => none

/-- The reads that are due: the ready clients with the results there are for them. -/
def clientReads (readfds l : List Int) (as : List Act) : List (Int × Option (List Byte)) :=
  (l.filter (· ∈ readfds)).zip (readResults as)

/-- The clients whose read ended or failed. -/
def endedClients (reads : List (Int × Option (List Byte))) : List Int :=
  (reads.filter fun read => read.2.getD [] = []).map Prod.fst

/-- What the other reads returned. -/
def dataReads (reads : List (Int × Option (List Byte))) : List (Int × List Byte) :=
  (reads.filter fun read => read.2.getD [] ≠ []).map fun read => (read.1, read.2.getD [])

/-- The record holds the bytes read, followed by what `sdata` held there before. -/
def Carries (read : Int × List Byte) (push : Int × SensorRecord) : Prop :=
  push.1 = read.1 ∧
    ∃ stale, stale.length = recordSize ∧ push.2 = recordOf (readInto stale read.2)

variable {as as' : List Act} {os os' : List Event}

theorem readResults_append : readResults (as ++ as') = readResults as ++ readResults as' :=
  List.filterMap_append

theorem readFds_append : readFds (os ++ os') = readFds os ++ readFds os' :=
  List.filterMap_append

theorem pushedRecords_append :
    pushedRecords (os ++ os') = pushedRecords os ++ pushedRecords os' :=
  List.filterMap_append

/-- A record read whole is the one that was sent. -/
theorem Carries.eq_of_full {read : Int × List Byte} {push : Int × SensorRecord}
    (h : Carries read push) (hfull : read.2.length = recordSize) : push.2 = recordOf read.2 := by
  obtain ⟨_, stale, hstale, hrecord⟩ := h
  rw [hrecord, readInto, hfull, ← hstale, List.drop_length, List.append_nil]

theorem endedClients_append (reads reads' : List (Int × Option (List Byte))) :
    endedClients (reads ++ reads') = endedClients reads ++ endedClients reads' := by
  rw [endedClients, List.filter_append, List.map_append]
  rfl

theorem dataReads_append (reads reads' : List (Int × Option (List Byte))) :
    dataReads (reads ++ reads') = dataReads reads ++ dataReads reads' := by
  rw [dataReads, List.filter_append, List.map_append]
  rfl

theorem endedClients_subset (readfds l : List Int) (as : List Act) :
    endedClients (clientReads readfds l as) ⊆ l := by
  intro fd hfd
  obtain ⟨read, hread, rfl⟩ := List.mem_map.mp hfd
  obtain ⟨hzip, _⟩ := List.mem_filter.mp hread
  exact (List.mem_filter.mp (List.of_mem_zip hzip).1).1

/-! ## The loop on the list of clients -/

/-- The clients `visited` have been visited, `kept` of them are still in the table. -/
structure Scanned (readfds visited kept : List Int) (as : List Act) (os : List Event) :
    Prop where
  count : (visited.filter (· ∈ readfds)).length = (readResults as).length
  reads : readFds os = visited.filter (· ∈ readfds)
  kept : kept = visited.filter (· ∉ endedClients (clientReads readfds visited as))
  pushes : List.Forall₂ Carries (dataReads (clientReads readfds visited as)) (pushedRecords os)

namespace Scanned

variable {readfds visited kept : List Int} {fd : Int}

theorem start (readfds : List Int) : Scanned readfds [] [] [] [] :=
  ⟨rfl, rfl, rfl, .nil⟩

/-- Steps that neither read nor push. -/
theorem quiet (h : Scanned readfds visited kept as os) (hresults : readResults as' = [])
    (hreads : readFds os' = []) (hpushed : pushedRecords os' = []) :
    Scanned readfds visited kept (as ++ as') (os ++ os') := by
  have hsame : readResults (as ++ as') = readResults as := by
    rw [readResults_append, hresults, List.append_nil]
  refine ⟨?_, ?_, ?_, ?_⟩
  · rw [hsame]
    exact h.count
  · rw [readFds_append, hreads, List.append_nil]
    exact h.reads
  · rw [clientReads, hsame]
    exact h.kept
  · rw [clientReads, hsame, pushedRecords_append, hpushed, List.append_nil]
    exact h.pushes

/-- The reads after more clients. -/
theorem clientReads_append (h : Scanned readfds visited kept as os) (more : List Int) :
    clientReads readfds (visited ++ more) (as ++ as') =
      clientReads readfds visited as ++ clientReads readfds more as' := by
  rw [clientReads, clientReads, clientReads, List.filter_append, readResults_append,
    List.zip_append h.count]

theorem not_mem_ended (hnew : fd ∉ visited) :
    fd ∉ endedClients (clientReads readfds visited as) :=
  fun hmem => hnew (endedClients_subset readfds visited as hmem)

/-- One more client: it stays in the table unless its read ended or failed. -/
theorem visit (h : Scanned readfds visited kept as os) (hnew : fd ∉ visited)
    (hcount : ([fd].filter (· ∈ readfds)).length = (readResults as').length)
    (hreads : readFds os' = [fd].filter (· ∈ readfds))
    (hpushes : List.Forall₂ Carries (dataReads (clientReads readfds [fd] as'))
      (pushedRecords os')) :
    Scanned readfds (visited ++ [fd])
      (kept ++ [fd].filter (· ∉ endedClients (clientReads readfds [fd] as'))) (as ++ as')
      (os ++ os') := by
  refine ⟨?_, ?_, ?_, ?_⟩
  · rw [List.filter_append, List.length_append, h.count, hcount, readResults_append,
      List.length_append]
  · rw [readFds_append, h.reads, hreads, List.filter_append]
  · -- what the new client's read returned says nothing about the visited ones
    have hold : visited.filter
          (· ∉ endedClients (clientReads readfds visited as ++ clientReads readfds [fd] as')) =
        visited.filter (· ∉ endedClients (clientReads readfds visited as)) := by
      apply List.filter_congr
      intro fd' hfd'
      have hne : fd' ∉ endedClients (clientReads readfds [fd] as') := by
        intro hmem
        have hfd := List.mem_singleton.mp (endedClients_subset readfds [fd] as' hmem)
        exact hnew (hfd ▸ hfd')
      simp [endedClients_append, hne]
    have hlast : [fd].filter
          (· ∉ endedClients (clientReads readfds visited as ++ clientReads readfds [fd] as')) =
        [fd].filter (· ∉ endedClients (clientReads readfds [fd] as')) := by
      apply List.filter_congr
      intro fd' hfd'
      rw [List.mem_singleton.mp hfd']
      simp [endedClients_append, not_mem_ended hnew]
    rw [h.clientReads_append, List.filter_append, hold, hlast, ← h.kept]
  · rw [h.clientReads_append, dataReads_append, pushedRecords_append]
    exact List.rel_append h.pushes hpushes

/-- A client that is not ready. -/
theorem skip (h : Scanned readfds visited kept as os) (hnew : fd ∉ visited)
    (hnot : fd ∉ readfds) (hresults : readResults as' = []) (hreads : readFds os' = [])
    (hpushed : pushedRecords os' = []) :
    Scanned readfds (visited ++ [fd]) (kept ++ [fd]) (as ++ as') (os ++ os') := by
  have hready : [fd].filter (· ∈ readfds) = [] := List.filter_cons_of_neg (by simpa using hnot)
  have hnone : clientReads readfds [fd] as' = [] := by
    rw [clientReads, hready]
    rfl
  have hcount : ([fd].filter (· ∈ readfds)).length = (readResults as').length := by
    rw [hready, hresults]
    rfl
  have hvisit := h.visit hnew hcount (hreads.trans hready.symm)
    (by rw [hnone, hpushed]; exact .nil)
  rw [hnone] at hvisit
  exact hvisit

/-- A client that is ready, and what its read returns. -/
theorem read (h : Scanned readfds visited kept as os) (hnew : fd ∉ visited)
    (hready : fd ∈ readfds) {result : Option (List Byte)} (hresults : readResults as' = [result])
    (hreads : readFds os' = [fd])
    (hpushes : List.Forall₂ Carries (dataReads [(fd, result)]) (pushedRecords os')) :
    Scanned readfds (visited ++ [fd]) (kept ++ if result.getD [] = [] then [] else [fd])
      (as ++ as') (os ++ os') := by
  have hfd : [fd].filter (· ∈ readfds) = [fd] := List.filter_cons_of_pos (by simpa using hready)
  have hone : clientReads readfds [fd] as' = [(fd, result)] := by
    rw [clientReads, hfd, hresults]
    rfl
  have hcount : ([fd].filter (· ∈ readfds)).length = (readResults as').length := by
    rw [hfd, hresults]
    rfl
  have hvisit := h.visit hnew hcount (hreads.trans hfd.symm) (by rw [hone]; exact hpushes)
  have hkept : [fd].filter (· ∉ endedClients [(fd, result)]) =
      if result.getD [] = [] then [] else [fd] := by
    by_cases hended : result.getD [] = [] <;> simp [endedClients, hended]
  rw [hone, hkept] at hvisit
  exact hvisit

end Scanned

/-- Where the pass is: the clients in the table, those kept so far and those still to visit. -/
def Pc.Position (pc : Pc) (fds kept rest : List Int) : Prop :=
  match pc with
  | .scan i _ => fds = kept ++ rest ∧ kept.length = i
  | .touching i _ _ => fds = kept ++ rest ∧ kept.length = i + 1
  | .removing i _ | .shifting i _ => ∃ fd, fds = kept ++ fd :: rest ∧ kept.length = i
  | .head => fds = kept ∧ rest = []
  | _ => False

/-- The pass looks at the descriptors `select` left, wherever it is. -/
def Pc.OfPass (readfds : List Int) : Pc → Prop
  | .scan _ ready | .touching _ ready _ | .removing _ ready | .shifting _ ready => ready = readfds
  | .head => True
  | _ => False

structure Pass (readfds l : List Int) (as : List Act) (os : List Event) (s : State) : Prop where
  keepAlive : ∃ entries, s.keepAlive.Holds entries
  ready : s.pc.OfPass readfds
  split : ∃ fds visited kept rest, l = visited ++ rest ∧ s.clients.Holds fds ∧
    Scanned readfds visited kept as os ∧ s.pc.Position fds kept rest

/-- A bound on the steps of the pass that are left. -/
def work (s : State) : Nat :=
  match s.pc with
  | .scan i _ => 3 * (s.clients.clientCount - i) + 1
  | .touching i _ _ | .removing i _ => 3 * (s.clients.clientCount - i)
  | .shifting i _ => 3 * (s.clients.clientCount - i) - 1
  | _ => 0

def Act.cost (a : Act) : Nat := if a.scans then 1 else 0

namespace Pass

variable {socketFd : Int} {readfds l : List Int} {s t : State}

/-- A client that is still to be visited is no visited one. -/
theorem not_mem_visited {visited rest : List Int} {fd : Int}
    (hnodup : (visited ++ fd :: rest).Nodup) : fd ∉ visited :=
  fun hmem => (List.nodup_append.mp hnodup).2.2 fd hmem fd List.mem_cons_self rfl

/-- The index of the loop is inside the table as long as a client is left at it. -/
theorem index_lt {c : Clients} {kept rest : List Int} {fd : Int}
    (hc : c.Holds (kept ++ fd :: rest)) : kept.length < c.clientCount := by
  rw [← hc.list.length_eq, List.length_append, List.length_cons]
  omega

/-- The client at the index of the loop is the next one of the list. -/
theorem client {c : Clients} {kept rest : List Int} (hc : c.Holds (kept ++ rest))
    (hi : kept.length < c.clientCount) :
    ∃ fd rest', rest = fd :: rest' ∧ c.clientFds[kept.length]? = some fd := by
  cases rest with
  | nil =>
    have hlen := hc.list.length_eq
    rw [List.append_nil] at hlen
    omega
  | cons fd rest' =>
    refine ⟨fd, rest', rfl, ?_⟩
    rw [hc.list.getElem? hi, List.getElem?_append_right (Nat.le_refl _), Nat.sub_self]
    rfl

theorem next (hnodup : l.Nodup) (h : Pass readfds l as os s)
    (hstep : step socketFd s .next = some (t, os')) :
    Pass readfds l (as ++ [.next]) (os ++ os') t ∧ work t + 1 ≤ work s := by
  obtain ⟨hk, hready, fds, visited, kept, rest, hl, hc, hscanned, hposition⟩ := h
  cases hpc : s.pc with
  | scan i ready =>
    rw [hpc] at hready hposition
    obtain ⟨rfl, rfl⟩ := hposition
    obtain rfl : ready = readfds := hready
    simp only [step, hpc] at hstep
    by_cases hi : kept.length < s.clients.clientCount
    · obtain ⟨fd, rest', rfl, hfd⟩ := client hc hi
      rw [if_pos hi, hfd] at hstep
      obtain ⟨hnot, hstep⟩ := Option.ite_none_left_eq_some.mp hstep
      obtain ⟨rfl, rfl⟩ := Prod.mk.inj (Option.some.inj hstep)
      have hnew : fd ∉ visited := not_mem_visited (hl ▸ hnodup)
      refine ⟨⟨hk, rfl, kept ++ fd :: rest', visited ++ [fd], kept ++ [fd], rest', ?_, hc,
        hscanned.skip hnew hnot rfl rfl rfl, ?_, ?_⟩, ?_⟩
      · rw [hl, List.append_assoc]
        rfl
      · rw [List.append_assoc]
        rfl
      · rw [List.length_append, List.length_singleton]
      · show 3 * (s.clients.clientCount - (kept.length + 1)) + 1 + 1 ≤ work s
        rw [work, hpc]
        show _ ≤ 3 * (s.clients.clientCount - kept.length) + 1
        omega
    · rw [if_neg hi] at hstep
      obtain ⟨rfl, rfl⟩ := Prod.mk.inj (Option.some.inj hstep)
      have hrest : rest = [] := by
        have hlen := hc.list.length_eq
        rw [List.length_append] at hlen
        exact List.eq_nil_of_length_eq_zero (by omega)
      refine ⟨⟨hk, trivial, kept ++ rest, visited, kept, rest, hl, hc,
        hscanned.quiet rfl rfl rfl, ?_, hrest⟩, ?_⟩
      · rw [hrest, List.append_nil]
      · rw [work, work, hpc]
        show 0 + 1 ≤ 3 * (s.clients.clientCount - kept.length) + 1
        omega
  | _ => simp [step, hpc] at hstep

theorem read (hnodup : l.Nodup) (h : Pass readfds l as os s) {result : Option (List Byte)}
    {stale : List Byte} {ret : Int} {now : Int64}
    (hstep : step socketFd s (.read result stale ret now) = some (t, os')) :
    Pass readfds l (as ++ [.read result stale ret now]) (os ++ os') t ∧
      work t + 1 ≤ work s := by
  obtain ⟨hk, hready, fds, visited, kept, rest, hl, hc, hscanned, hposition⟩ := h
  cases hpc : s.pc with
  | scan i ready =>
    rw [hpc] at hready hposition
    obtain ⟨rfl, rfl⟩ := hposition
    obtain rfl : ready = readfds := hready
    simp only [step, hpc] at hstep
    obtain ⟨hi, hstep⟩ := Option.ite_none_right_eq_some.mp hstep
    obtain ⟨fd, rest', rfl, hfd⟩ := client hc hi
    rw [hfd] at hstep
    obtain ⟨⟨hmem, _, hsize⟩, hstep⟩ := Option.ite_none_right_eq_some.mp hstep
    have hq := Option.some.inj hstep
    have hnew : fd ∉ visited := not_mem_visited (hl ▸ hnodup)
    have hsplit : l = (visited ++ [fd]) ++ rest' := by
      rw [hl, List.append_assoc]
      rfl
    have hwork : work s = 3 * (s.clients.clientCount - kept.length) + 1 := by
      rw [work, hpc]
    -- the read ended or failed
    have hlost : ∀ m, result.getD [] = [] → t = { s with pc := .removing kept.length ready } →
        os' = [.lost fd, .logged m] →
        Pass ready l (as ++ [.read result stale ret now]) (os ++ os') t ∧
          work t + 1 ≤ work s := by
      rintro m hended rfl rfl
      have hresults : readResults [.read result stale ret now] = [result] := rfl
      have hreads : readFds [.lost fd, .logged m] = [fd] := rfl
      have hread := hscanned.read hnew hmem hresults hreads
        (by simp [dataReads, hended, pushedRecords])
      rw [if_pos hended, List.append_nil] at hread
      exact ⟨⟨hk, rfl, kept ++ fd :: rest', visited ++ [fd], kept, rest', hsplit, hc, hread, fd,
        rfl, rfl⟩, Nat.le_of_eq hwork.symm⟩
    cases result with
    | none =>
      obtain ⟨rfl, rfl⟩ := Prod.mk.inj hq
      exact hlost _ rfl rfl rfl
    | some bytes =>
      cases bytes with
      | nil =>
        obtain ⟨rfl, rfl⟩ := Prod.mk.inj hq
        exact hlost _ rfl rfl rfl
      | cons b bytes =>
        obtain ⟨rfl, rfl⟩ := Prod.mk.inj hq
        have hresults : readResults [.read (some (b :: bytes)) stale ret now] =
            [some (b :: bytes)] := rfl
        have hreads : readFds (.received fd (b :: bytes) now ::
            .pushed fd (recordOf (readInto stale (b :: bytes))) ::
              receivedMessages (recordOf (readInto stale (b :: bytes))) ret) = [fd] := rfl
        have hread := hscanned.read hnew hmem hresults hreads
          (.cons ⟨rfl, stale, hsize, rfl⟩ .nil)
        refine ⟨⟨hk, rfl, kept ++ fd :: rest', visited ++ [fd], kept ++ [fd], rest', hsplit, hc,
          hread, ?_, ?_⟩, Nat.le_of_eq hwork.symm⟩
        · rw [List.append_assoc]
          rfl
        · rw [List.length_append, List.length_singleton]
  | _ => simp [step, hpc] at hstep

theorem touch (h : Pass readfds l as os s) {now : Int64}
    (hstep : step socketFd s (.touch now) = some (t, os')) :
    Pass readfds l (as ++ [.touch now]) (os ++ os') t ∧ work t + 1 ≤ work s := by
  obtain ⟨⟨entries, hk⟩, hready, fds, visited, kept, rest, hl, hc, hscanned, hposition⟩ := h
  cases hpc : s.pc with
  | touching i ready since =>
    rw [hpc] at hready hposition
    obtain ⟨rfl, hlen⟩ := hposition
    obtain rfl : ready = readfds := hready
    have hi : i < s.clients.clientCount := by
      rw [← hc.list.length_eq, List.length_append]
      omega
    obtain ⟨k, htouch, hholds⟩ :=
      touchConnection_holds hk (Nat.lt_of_lt_of_le hi hc.clientCount_le) now
    simp only [step, hpc, htouch] at hstep
    obtain ⟨rfl, rfl⟩ := Prod.mk.inj (Option.some.inj hstep)
    refine ⟨⟨⟨_, hholds⟩, rfl, kept ++ rest, visited, kept, rest, hl, hc,
      hscanned.quiet rfl rfl rfl, rfl, hlen⟩, ?_⟩
    rw [work, work, hpc]
    show 3 * (s.clients.clientCount - (i + 1)) + 1 + 1 ≤ 3 * (s.clients.clientCount - i)
    omega
  | _ => simp [step, hpc] at hstep

theorem remove (h : Pass readfds l as os s) (hstep : step socketFd s .remove = some (t, os')) :
    Pass readfds l (as ++ [.remove]) (os ++ os') t ∧ work t + 1 ≤ work s := by
  obtain ⟨⟨entries, hk⟩, hready, fds, visited, kept, rest, hl, hc, hscanned, hposition⟩ := h
  cases hpc : s.pc with
  | removing i ready =>
    rw [hpc] at hready hposition
    obtain ⟨fd, rfl, rfl⟩ := hposition
    obtain rfl : ready = readfds := hready
    have hi := index_lt hc
    obtain ⟨k, hremove, hholds⟩ := removeConnection_holds hk kept.length
    simp only [step, hpc, hremove] at hstep
    obtain ⟨rfl, rfl⟩ := Prod.mk.inj (Option.some.inj hstep)
    refine ⟨⟨⟨_, hholds⟩, rfl, kept ++ fd :: rest, visited, kept, rest, hl, hc,
      hscanned.quiet rfl rfl rfl, fd, rfl, rfl⟩, ?_⟩
    rw [work, work, hpc]
    show 3 * (s.clients.clientCount - kept.length) - 1 + 1 ≤
      3 * (s.clients.clientCount - kept.length)
    omega
  | _ => simp [step, hpc] at hstep

/-- `shift_clients` takes the visited client out and leaves the index at the next one. -/
theorem shift (h : Pass readfds l as os s) (hstep : step socketFd s .shift = some (t, os')) :
    Pass readfds l (as ++ [.shift]) (os ++ os') t ∧ work t + 1 ≤ work s := by
  obtain ⟨hk, hready, fds, visited, kept, rest, hl, hc, hscanned, hposition⟩ := h
  cases hpc : s.pc with
  | shifting i ready =>
    rw [hpc] at hready hposition
    obtain ⟨fd, rfl, rfl⟩ := hposition
    obtain rfl : ready = readfds := hready
    have hi := index_lt hc
    obtain ⟨c, hshift, hholds⟩ := shiftClients_holds hc hi
    have herase : (kept ++ fd :: rest).eraseIdx kept.length = kept ++ rest := by
      rw [List.eraseIdx_append_of_length_le (Nat.le_refl _), Nat.sub_self]
      rfl
    rw [herase] at hholds
    simp only [step, hpc, hshift] at hstep
    obtain ⟨rfl, rfl⟩ := Prod.mk.inj (Option.some.inj hstep)
    refine ⟨⟨hk, rfl, kept ++ rest, visited, kept, rest, hl, hholds,
      hscanned.quiet rfl rfl rfl, rfl, rfl⟩, ?_⟩
    have hcount : c.clientCount + 1 = s.clients.clientCount := by
      rw [← hc.list.length_eq, ← hholds.list.length_eq, List.length_append, List.length_append,
        List.length_cons]
      omega
    rw [work, work, hpc]
    show 3 * (c.clientCount - kept.length) + 1 + 1 ≤
      3 * (s.clients.clientCount - kept.length) - 1
    omega
  | _ => simp [step, hpc] at hstep

/-- The main thread touches neither the clients nor the place of the pass. -/
theorem ofMain {a : Act} {k : KeepAlive} {cleared : Nat} (h : Pass readfds l as os s)
    (hk : ∃ entries, k.Holds entries) (hresults : readResults [a] = [])
    (hreads : readFds os' = []) (hpushed : pushedRecords os' = []) :
    Pass readfds l (as ++ [a]) (os ++ os') { s with keepAlive := k, cleared } := by
  obtain ⟨_, hready, fds, visited, kept, rest, hl, hc, hscanned, hposition⟩ := h
  exact ⟨hk, hready, fds, visited, kept, rest, hl, hc,
    hscanned.quiet hresults hreads hpushed, hposition⟩

theorem step (hnodup : l.Nodup) (h : Pass readfds l as os s) {a : Act} (ha : a.InPass)
    (hstep : ConnectionManager.step socketFd s a = some (t, os')) :
    Pass readfds l (as ++ [a]) (os ++ os') t ∧ work t + a.cost ≤ work s := by
  cases a with
  | next => exact h.next hnodup hstep
  | read => exact h.read hnodup hstep
  | touch => exact h.touch hstep
  | remove => exact h.remove hstep
  | shift => exact h.shift hstep
  | initKeepAlive =>
    obtain ⟨entries, hk⟩ := h.keepAlive
    obtain ⟨hmore, hstep⟩ := Option.ite_none_right_eq_some.mp hstep
    obtain ⟨k, hclear, hholds⟩ := clearActive_holds hk hmore
    rw [hclear] at hstep
    obtain ⟨rfl, rfl⟩ := Prod.mk.inj (Option.some.inj hstep)
    exact ⟨h.ofMain ⟨_, hholds⟩ rfl rfl rfl, Nat.le_refl _⟩
  | sweep now =>
    obtain ⟨entries, hk⟩ := h.keepAlive
    obtain ⟨_, hstep⟩ := Option.ite_none_right_eq_some.mp hstep
    obtain ⟨k, hsweep, hholds⟩ := sweep_holds hk now
    rw [hsweep] at hstep
    obtain ⟨rfl, rfl⟩ := Prod.mk.inj (Option.some.inj hstep)
    refine ⟨h.ofMain ⟨_, hholds⟩ rfl ?_ ?_, Nat.le_refl _⟩ <;>
      · rw [List.map_map]
        exact List.filterMap_eq_nil_iff.mpr (by simp)
  | _ => exact absurd ha id

theorem start {entries : List ConnectionTracking} (hc : s.clients.Holds l)
    (hk : s.keepAlive.Holds entries) (hpc : s.pc = .scan 0 readfds) : Pass readfds l [] [] s := by
  refine ⟨⟨entries, hk⟩, ?_, l, [], [], l, rfl, hc, .start readfds, ?_⟩
  · rw [hpc]
    rfl
  · rw [hpc]
    exact ⟨rfl, rfl⟩

theorem run (hnodup : l.Nodup) (h : Pass readfds l [] [] s)
    (hin : ∀ a ∈ as, a.InPass)
    (hrun : Machine.run (ConnectionManager.step socketFd) s as = some (t, os)) :
    Pass readfds l as os t ∧ work t + as.countP Act.scans ≤ work s := by
  refine Machine.run_induction (P := fun as os t => (∀ a ∈ as, a.InPass) →
    Pass readfds l as os t ∧ work t + as.countP Act.scans ≤ work s) ?_ ?_ hrun hin
  · exact fun _ => ⟨h, Nat.le_refl _⟩
  · intro as os u a t os' _ ih hstep hin
    obtain ⟨hpass, hwork⟩ := ih fun b hb => hin b (List.mem_append_left _ hb)
    obtain ⟨hpass', hwork'⟩ :=
      hpass.step hnodup (hin a (List.mem_append_right _ (List.mem_singleton.mpr rfl))) hstep
    refine ⟨hpass', ?_⟩
    have hcost : [a].countP Act.scans = a.cost := List.countP_singleton ..
    rw [List.countP_append, hcost]
    omega

/-- Until it is through, the pass can go on, whatever a read returns. -/
theorem goes_on (h : Pass readfds l as os s) (hpc : s.pc ≠ .head) {result : Option (List Byte)}
    {stale : List Byte} (hbound : (result.getD []).length ≤ recordSize)
    (hsize : stale.length = recordSize) (ret : Int) (now : Int64) :
    ∃ a ∈ [.next, .read result stale ret now, .touch now, .remove, .shift],
      (ConnectionManager.step socketFd s a).isSome := by
  obtain ⟨⟨entries, hk⟩, hready, fds, visited, kept, rest, hl, hc, hscanned, hposition⟩ := h
  cases hat : s.pc with
  | head => exact absurd hat hpc
  | newConnection ready => rw [hat] at hready; exact hready.elim
  | accepted clientFd ready since => rw [hat] at hready; exact hready.elim
  | scan i ready =>
    rw [hat] at hposition
    obtain ⟨rfl, rfl⟩ := hposition
    by_cases hi : kept.length < s.clients.clientCount
    · obtain ⟨fd, rest', rfl, hfd⟩ := client hc hi
      by_cases hmem : fd ∈ ready
      · refine ⟨.read result stale ret now, by simp, ?_⟩
        simp [ConnectionManager.step, hat, hi, hfd, hmem, hbound, hsize]
      · refine ⟨.next, by simp, ?_⟩
        simp [ConnectionManager.step, hat, hi, hfd, hmem]
    · refine ⟨.next, by simp, ?_⟩
      simp [ConnectionManager.step, hat, hi]
  | touching i ready since =>
    rw [hat] at hposition
    obtain ⟨rfl, hlen⟩ := hposition
    have hi : i < s.clients.clientCount := by
      rw [← hc.list.length_eq, List.length_append]
      omega
    obtain ⟨k, htouch, _⟩ := touchConnection_holds hk (Nat.lt_of_lt_of_le hi hc.clientCount_le) now
    refine ⟨.touch now, by simp, ?_⟩
    simp [ConnectionManager.step, hat, htouch]
  | removing i ready =>
    rw [hat] at hposition
    obtain ⟨fd, rfl, rfl⟩ := hposition
    obtain ⟨k, hremove, _⟩ := removeConnection_holds hk kept.length
    refine ⟨.remove, by simp, ?_⟩
    simp [ConnectionManager.step, hat, hremove]
  | shifting i ready =>
    rw [hat] at hposition
    obtain ⟨fd, rfl, rfl⟩ := hposition
    have hi := index_lt hc
    obtain ⟨c, hshift, _⟩ := shiftClients_holds hc hi
    refine ⟨.shift, by simp, ?_⟩
    simp [ConnectionManager.step, hat, hshift]

end Pass

/-- One pass over any list of distinct clients, whatever is ready, whatever the reads return and
whatever the main thread does meanwhile: it takes at most three steps for each client and one
more, it never gets stuck, and it pushes what the reads return in their order.  When it is
through there was one read for each ready client, in order, and the clients whose read ended or
failed are struck out. -/
theorem handleClientData_pass {socketFd : Int} {readfds l : List Int} {s t : State}
    {entries : List ConnectionTracking} (hc : s.clients.Holds l)
    (hk : s.keepAlive.Holds entries) (hpc : s.pc = .scan 0 readfds) (hnodup : l.Nodup)
    (hin : ∀ a ∈ as, a.InPass)
    (hrun : Machine.run (step socketFd) s as = some (t, os)) :
    as.countP Act.scans ≤ 3 * l.length + 1 ∧
    (t.pc ≠ .head → ∀ result stale ret now, (result.getD []).length ≤ recordSize →
      stale.length = recordSize →
      ∃ a ∈ [.next, .read result stale ret now, .touch now, .remove, .shift],
        (step socketFd t a).isSome) ∧
    List.Forall₂ Carries (dataReads (clientReads readfds l as)) (pushedRecords os) ∧
    (t.pc = .head → (readResults as).length = (l.filter (· ∈ readfds)).length ∧
      readFds os = l.filter (· ∈ readfds) ∧
      t.clients.Holds (l.filter (· ∉ endedClients (clientReads readfds l as)))) := by
  obtain ⟨hpass, hwork⟩ := (Pass.start hc hk hpc).run hnodup hin hrun
  refine ⟨?_, ?_, ?_, ?_⟩
  · have hstart : work s = 3 * l.length + 1 := by
      rw [work, hpc, hc.list.length_eq]
      rfl
    omega
  · intro hhead result stale ret now hbound hsize
    exact hpass.goes_on hhead hbound hsize ret now
  · obtain ⟨_, visited, _, rest, hl, _, hscanned, _⟩ := hpass.split
    -- the clients still to visit have no results yet
    have hreads : clientReads readfds l as = clientReads readfds visited as := by
      have hnone : clientReads readfds (visited ++ rest) (as ++ []) = _ :=
        hscanned.clientReads_append rest
      rw [List.append_nil] at hnone
      rw [hl, hnone]
      simp [clientReads, readResults]
    rw [hreads]
    exact hscanned.pushes
  · intro hhead
    obtain ⟨fds, visited, kept, rest, hl, hholds, hscanned, hposition⟩ := hpass.split
    rw [hhead] at hposition
    obtain ⟨rfl, rfl⟩ := hposition
    rw [List.append_nil] at hl
    rw [hl]
    exact ⟨hscanned.count.symm, hscanned.reads, hscanned.kept ▸ hholds⟩

/- Four clients, of which all but the second are ready. -/
def fourClients : State where
  clients := ⟨[5, 6, 7, 8] ++ List.replicate 46 0, 4⟩
  keepAlive := ⟨[⟨5, 0, 1⟩, ⟨6, 0, 1⟩, ⟨7, 0, 1⟩, ⟨8, 0, 1⟩] ++ List.replicate 46 ⟨0, 0, 0⟩, 4⟩
  pc := .scan 0 [5, 7, 8]
  openFds := [5, 6, 7, 8]
  cleared := maxSensors

/- The read on the first fails, the third has closed its connection and the last sends a
record. -/
def firstFails : List Act :=
  [.read none (List.replicate 16 0) 0 8, .remove, .sweep fun _ => 9, .shift, .next,
    .read (some []) (List.replicate 16 0) 0 9, .remove, .shift,
    .read (some (List.replicate 16 1)) (List.replicate 16 0) 0 9, .touch 9, .next]

theorem handleClientData_pass_firstFails :
    ∃ t os, Machine.run (step 3) fourClients firstFails = some (t, os) ∧ t.pc = .head ∧
      List.Forall₂ Carries [(8, List.replicate 16 1)] (pushedRecords os) ∧
      readFds os = [5, 7, 8] ∧ t.clients.Holds [6, 8] := by
  have hmap : (Machine.run (step 3) fourClients firstFails).map (fun q => q.1.pc) =
      some .head := by decide +kernel
  obtain ⟨⟨t, os⟩, hrun, hpc⟩ := Option.map_eq_some_iff.mp hmap
  have hclients : fourClients.clients.Holds [5, 6, 7, 8] := ⟨rfl, by decide, rfl⟩
  have hkeepAlive : fourClients.keepAlive.Holds
      [⟨5, 0, 1⟩, ⟨6, 0, 1⟩, ⟨7, 0, 1⟩, ⟨8, 0, 1⟩] := ⟨rfl, by decide, rfl⟩
  obtain ⟨_, _, hpushed, hend⟩ := handleClientData_pass hclients hkeepAlive rfl (by decide)
    (by simp [firstFails, Act.InPass]) hrun
  obtain ⟨_, hreads, hholds⟩ := hend hpc
  exact ⟨t, os, hrun, hpc, hpushed, hreads, hholds⟩

end ConnectionManager
end Gateway
end LinuxEmbedded
