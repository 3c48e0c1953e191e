import LinuxEmbedded.Gateway.ConnectionManager
import Mathlib.Data.List.InsertIdx

/-
The two connection tables have the same clients in the same order as long as no
connection times out.

A sweep removes an entry from `connections` and tells nobody, so `client_fds` keeps
its client and every index behind it is off by one.
-/
namespace LinuxEmbedded
namespace Gateway
namespace ConnectionManager

/-- The manager is not in the middle of an accept or of the removal of a client. -/
def Pc.BetweenOperations : Pc → Prop
  | .accepted _ _ _ | .shifting _ _ => False
  | _ => True

/-- The index that the section after a read will use. -/
def Pc.pending : Pc → Option Nat
  | .touching i _ _ | .removing i _ => some i
  | _ => none

/-- Entry `i` of `connections` is that of `client_fds[i]`. -/
def State.SameClient (s : State) (i : Nat) : Prop :=
  i < s.keepAlive.connActiveCount ∧
    s.keepAlive.connections[i]?.map ConnectionTracking.connectionId = s.clients.clientFds[i]?

structure State.Aligned (s : State) : Prop where
  tables : s.pc.BetweenOperations → s.clients.clientCount = s.keepAlive.connActiveCount ∧
    ∀ i < s.clients.clientCount, s.SameClient i
  index : ∀ i ∈ s.pc.pending, s.SameClient i

/-- A sweep finds no connection that has timed out. -/
def NothingExpires (s : State) : Act → Prop
  | .sweep now => ∀ i < s.keepAlive.connActiveCount,
      ∀ entry ∈ s.keepAlive.connections[i]?, ¬TimedOut (now i) entry
  | _ => True

instance (s : State) (a : Act) : Decidable (NothingExpires s a) :=
  match a with
  | .sweep now => inferInstanceAs (Decidable (∀ i < s.keepAlive.connActiveCount,
      ∀ entry ∈ s.keepAlive.connections[i]?, ¬TimedOut (now i) entry))
  | .select _ | .selectFailed | .accept _ _ _ | .acceptFailed | .noConnection | .track _
  | .next | .read _ _ _ _ | .touch _ | .remove | .shift | .initKeepAlive =>
    inferInstanceAs (Decidable True)

def connectionIds (entries : List ConnectionTracking) : List Int :=
  entries.map ConnectionTracking.connectionId

/-- The clients of the two tables, at every place of the manager. -/
def Tables.InStep (u : Tables) : Prop :=
  match u.pc with
  | .accepted clientFd _ _ => u.fds = connectionIds u.entries ++ [clientFd]
  | .shifting i _ => connectionIds u.entries = u.fds.eraseIdx i
  | _ => connectionIds u.entries = u.fds

theorem survivors_of_none_expired {now : Nat → Int64} {l : List ConnectionTracking} {n : Nat}
    (h : ∀ i entry, l[i]? = some entry → ¬TimedOut (now (n + i)) entry) :
    survivors now n l = l := by
  induction l generalizing n with
  | nil => rfl
  | cons entry l ih =>
    have hhead : ¬TimedOut (now n) entry := h 0 entry rfl
    have htail : survivors now (n + 1) l = l := by
      apply ih
      intro i entry' hget
      have hi := h (i + 1) entry' hget
      rw [show n + 1 + i = n + (i + 1) by omega]
      exact hi
    unfold survivors at htail ⊢
    rw [List.zipIdx_cons, List.filter_cons_of_pos (by simpa using hhead), List.map_cons, htail]

/-- A write that leaves the descriptor alone. -/
theorem connectionIds_modify {f : ConnectionTracking → ConnectionTracking}
    (hf : ∀ entry, (f entry).connectionId = entry.connectionId) (l : List ConnectionTracking)
    (i : Nat) : connectionIds (l.modify i f) = connectionIds l := by
  apply List.ext_getElem?
  intro j
  rw [connectionIds, connectionIds, List.getElem?_map, List.getElem?_map, List.getElem?_modify]
  cases l[j]? with
  | none => rfl
  | some entry => by_cases hj : i = j <;> simp [hj, hf]

theorem connectionIds_eraseIdx (l : List ConnectionTracking) (i : Nat) :
    connectionIds (l.eraseIdx i) = (connectionIds l).eraseIdx i := by
  rw [connectionIds, connectionIds, List.eraseIdx_map]

/-- Every move but a sweep that removes something keeps the tables in step. -/
theorem Moves.inStep {socketFd : Int} {u v : Tables} {a : Act} {os : List Event}
    (hmove : Moves socketFd u a v os) (h : u.InStep)
    (hsweep : ∀ now, a = .sweep now → survivors now 0 u.entries = u.entries) : v.InStep := by
  unfold Tables.InStep at h ⊢
  cases hmove with
  | @select readfds at_ =>
    rw [at_] at h
    by_cases hnone : readfds = []
    · simpa [hnone] using h
    · simpa [hnone] using h
  | selectFailed at_ =>
    rw [at_] at h ⊢
    exact h
  | accept at_ =>
    rw [at_] at h
    rw [h]
  | reject at_ => rw [at_] at h; exact h
  | acceptFailed at_ => rw [at_] at h; exact h
  | noConnection at_ => rw [at_] at h; exact h
  | track at_ =>
    rw [at_] at h
    show connectionIds (_ ++ [_]) = u.fds
    rw [h, connectionIds, List.map_append]
    rfl
  | skip at_ => rw [at_] at h; exact h
  | done at_ => rw [at_] at h; exact h
  | data at_ => rw [at_] at h; exact h
  | lose at_ => rw [at_] at h; exact h
  | touch at_ =>
    rw [at_] at h
    show connectionIds (u.entries.modify _ _) = u.fds
    exact (connectionIds_modify (by intro _; rfl) ..).trans h
  | remove at_ =>
    rw [at_] at h
    show connectionIds (u.entries.eraseIdx _) = u.fds.eraseIdx _
    rw [connectionIds_eraseIdx, h]
  | shift at_ => rw [at_] at h; exact h
  | initKeepAlive =>
    have hids : connectionIds (u.entries.modify u.cleared fun entry => { entry with active := 0 }) =
        connectionIds u.entries := connectionIds_modify (by intro _; rfl) ..
    rw [hids]
    exact h
  | @sweep now =>
    rw [hsweep now rfl]
    exact h

/-- A step taken when nothing expires keeps the tables in step. -/
theorem inStep_step {socketFd : Int} {s t : State} {a : Act} {os : List Event}
    (hw : s.WellFormed) (h : s.tables.InStep) (hcond : NothingExpires s a)
    (hstep : step socketFd s a = some (t, os)) : t.WellFormed ∧ t.tables.InStep := by
  obtain ⟨hwt, hmove⟩ := step_moves hw hstep
  refine ⟨hwt, hmove.inStep h ?_⟩
  intro now ha
  subst ha
  apply survivors_of_none_expired
  intro i entry hget
  have hi : i < s.keepAlive.connActiveCount := by
    rw [← hw.entries_length]
    exact (List.getElem?_eq_some_iff.mp hget).1
  rw [Nat.zero_add]
  exact hcond i hi entry ((hw.keepAlive.list.getElem? hi).trans hget)

/-- In step, the same index names the same client in both tables. -/
theorem sameClient_of_inStep {s : State} (hw : s.WellFormed)
    (h : connectionIds s.tables.entries = s.tables.fds) :
    s.clients.clientCount = s.keepAlive.connActiveCount ∧
      ∀ i < s.clients.clientCount, s.SameClient i := by
  have hcount : s.clients.clientCount = s.keepAlive.connActiveCount := by
    rw [← hw.fds_length, ← hw.entries_length, ← h, connectionIds, List.length_map]
  refine ⟨hcount, ?_⟩
  intro i hi
  have hentry : i < s.keepAlive.connActiveCount := hcount ▸ hi
  refine ⟨hentry, ?_⟩
  rw [hw.keepAlive.list.getElem? hentry, hw.clients.list.getElem? hi, ← h, connectionIds,
    List.getElem?_map]

theorem aligned_of_inStep {s : State} (hw : s.WellFormed) (h : s.tables.InStep) :
    s.Aligned := by
  have hpc : s.tables.pc = s.pc := rfl
  have hshape := hw.shape
  unfold Tables.InStep at h
  constructor
  · intro hbetween
    cases hp : s.pc with
    | accepted clientFd readfds since => rw [hp] at hbetween; exact hbetween.elim
    | shifting i readfds => rw [hp] at hbetween; exact hbetween.elim
    | _ =>
      rw [hpc, hp] at h
      exact sameClient_of_inStep hw h
  · intro i hpending
    cases hp : s.pc with
    | touching j readfds since =>
      rw [hp] at hpending hshape
      rw [hpc, hp] at h
      have hi : i < s.clients.clientCount := Option.some.inj hpending ▸ hshape.1
      exact (sameClient_of_inStep hw h).2 i hi
    | removing j readfds =>
      rw [hp] at hpending hshape
      rw [hpc, hp] at h
      have hi : i < s.clients.clientCount := Option.some.inj hpending ▸ hshape.1
      exact (sameClient_of_inStep hw h).2 i hi
    | _ => rw [hp] at hpending; cases hpending

theorem survivors_length_lt {now : Nat → Int64} {l : List ConnectionTracking} {i : Nat}
    {entry : ConnectionTracking} (hget : l[i]? = some entry) (ht : TimedOut (now i) entry) :
    (survivors now 0 l).length < l.length := by
  have hmem : (entry, i) ∈ l.zipIdx := List.mem_zipIdx_iff_getElem?.mpr hget
  rw [survivors, List.length_map, ← List.length_zipIdx (l := l) (i := 0)]
  exact List.length_filter_lt_length_iff_exists.mpr ⟨(entry, i), hmem, by simpa using ht⟩

/-- A timeout found between two operations of the manager breaks the alignment. -/
theorem not_aligned_of_expiry {socketFd : Int} {s t : State} {now : Nat → Int64}
    {os : List Event} (hw : s.WellFormed) (h : s.Aligned) (hbetween : s.pc.BetweenOperations)
    (hexpires : ¬NothingExpires s (.sweep now))
    (hstep : step socketFd s (.sweep now) = some (t, os)) : ¬t.Aligned := by
  obtain ⟨hready, hstep⟩ := Option.ite_none_right_eq_some.mp hstep
  obtain ⟨k, hk, hholds⟩ := sweep_holds hw.keepAlive now
  rw [hk] at hstep
  obtain ⟨rfl, _⟩ := Prod.mk.inj (Option.some.inj hstep)
  obtain ⟨i, hi, entry, hget, ht⟩ : ∃ i < s.keepAlive.connActiveCount,
      ∃ entry, s.keepAlive.connections[i]? = some entry ∧ TimedOut (now i) entry := by
    simpa [NothingExpires] using hexpires
  have hlt : k.connActiveCount < s.keepAlive.connActiveCount := by
    rw [← hholds.list.length_eq, ← hw.entries_length]
    exact survivors_length_lt ((hw.keepAlive.list.getElem? hi).symm.trans hget) ht
  intro haligned
  have hbefore := (h.tables hbetween).1
  have hafter : s.clients.clientCount = k.connActiveCount := (haligned.tables hbetween).1
  omega

/-- The tables are aligned in every state of a run in which no sweep finds a
connection that has timed out, and the first timeout found between two operations
ends that. -/
theorem tables_aligned_of_nothing_expires {socketFd : Int} {as : List Act} {s : State}
    {os : List Event} (hrun : Machine.run (step socketFd) start as = some (s, os)) :
    (Machine.Meets (step socketFd) NothingExpires start as → s.Aligned) ∧
    (s.Aligned → s.pc.BetweenOperations → ∀ now t os',
      step socketFd s (.sweep now) = some (t, os') → ¬NothingExpires s (.sweep now) →
      ¬t.Aligned) := by
  constructor
  · intro hmeets
    have hinv : s.WellFormed ∧ s.tables.InStep :=
      Machine.meets_induction (P := fun _ u => u.WellFormed ∧ u.tables.InStep)
        ⟨wellFormed_start, rfl⟩
        (fun _ _ _ _ _ hu hcond hstep => inStep_step hu.1 hu.2 hcond hstep) hmeets hrun
    exact aligned_of_inStep hinv.1 hinv.2
  · intro haligned hbetween now t os' hstep hexpires
    have hw : s.WellFormed := Machine.run_invariant (I := State.WellFormed)
      (fun _ _ _ _ hu ha => (step_moves hu ha).1) wellFormed_start hrun
    exact not_aligned_of_expiry hw haligned hbetween hexpires hstep

/-- `init_keep_alive` from its first turn to its last. -/
def clearing : List Act := List.replicate maxSensors .initKeepAlive

/-- Two sensors, one of them closing its connection. -/
def twoSensors : List Act :=
  clearing ++ [.select [3], .accept [0, 1, 2] 4 100, .track 100, .next, .next,
    .select [3], .accept [0, 1, 2] 5 110, .track 110, .next, .next, .next,
    .sweep fun _ => 112, .select [4], .noConnection,
    .read (some []) (List.replicate 16 0) 0 113, .remove, .shift]

theorem tables_aligned_of_nothing_expires_two_sensors :
    ∃ s os, Machine.run (step 3) start twoSensors = some (s, os) ∧ s.Aligned := by
  have hsome : (Machine.run (step 3) start twoSensors).isSome = true := by decide +kernel
  obtain ⟨⟨s, os⟩, hrun⟩ := Option.isSome_iff_exists.mp hsome
  exact ⟨s, os, hrun, (tables_aligned_of_nothing_expires hrun).1 (by decide +kernel)⟩

/-- One sensor that stays silent. -/
def oneSilent : List Act :=
  clearing ++ [.select [3], .accept [0, 1, 2] 4 100, .track 100, .next, .next,
    .sweep fun _ => 116]

/-- After the sweep the manager still has the client. -/
theorem sweep_leaves_client_behind :
    ∃ s os, Machine.run (step 3) start oneSilent = some (s, os) ∧
      s.pc.BetweenOperations ∧ ¬s.Aligned := by
  have hmap : (Machine.run (step 3) start oneSilent).map
      (fun q => (q.1.pc, q.1.clients.clientCount, q.1.keepAlive.connActiveCount)) =
      some (.head, 1, 0) := by decide +kernel
  obtain ⟨⟨s, os⟩, hrun, heq⟩ := Option.map_eq_some_iff.mp hmap
  obtain ⟨hpc, hcounts⟩ := Prod.mk.inj heq
  obtain ⟨hclients, hentries⟩ := Prod.mk.inj hcounts
  have hbetween : s.pc.BetweenOperations := by
    rw [show s.pc = .head from hpc]
    trivial
  refine ⟨s, os, hrun, hbetween, ?_⟩
  intro h
  have hcount := (h.tables hbetween).1
  rw [show s.clients.clientCount = 1 from hclients,
    show s.keepAlive.connActiveCount = 0 from hentries] at hcount
  cases hcount

end ConnectionManager
end Gateway
end LinuxEmbedded
