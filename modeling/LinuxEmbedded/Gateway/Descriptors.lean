import LinuxEmbedded.Gateway.Timeouts
import Mathlib.Data.List.Perm.Subperm

/-
The descriptors of the clients.

The gateway closes a client only when it has no room for it.  A client that goes
away, fails or times out keeps its descriptor for ever, so the books balance
exactly as long as nobody is lost.
-/
namespace LinuxEmbedded
namespace Gateway
namespace ConnectionManager

open Framing (Byte)

def fdSetSize : Nat := 1024

/-- The descriptors returned by `accept`. -/
def acceptedFds (os : List Event) : List Int :=
  os.filterMap fun
    | .accepted fd _ => some fd
    | _ => none

/-- The clients lost so far, after one more event.  A number accepted again is a new
client. -/
def Event.lose (lost : List Int) : Event → List Int
  | .accepted fd _ => lost.filter fun fd' => fd' ≠ fd
  | .lost fd => fd :: lost
  | .swept _ reported => reported ++ lost
  | _ => lost

/-- The descriptors whose peer closed, whose read failed or whose connection was
reported as timed out. -/
def lostFds (os : List Event) : List Int := os.foldl Event.lose []

/-- Every accepted descriptor is closed or listed once, lost ones are closed and not
selected, and what is selected fits a set. -/
structure Conserved (socketFd : Int) (s : State) (os : List Event) : Prop where
  owned : ∀ fd ∈ acceptedFds os,
    fd ∉ s.openFds ∨ (s.clients.clientFds.take s.clients.clientCount).count fd = 1
  lost : ∀ fd ∈ lostFds os, fd ∉ s.openFds ∧ fd ∉ selectSet socketFd s.clients
  few : s.openFds.Nodup ∧ s.openFds.length ≤ maxSensors
  selectable : ∀ fd ∈ selectSet socketFd s.clients, fd ≠ socketFd →
    0 ≤ fd ∧ fd < (fdSetSize : Int)

/-- The step loses no client. -/
def LosesNobody (s : State) : Act → Prop
  | .read result _ _ _ => result.getD [] ≠ []
  | .sweep now => NothingExpires s (.sweep now)
  | _ => True

instance (s : State) (a : Act) : Decidable (LosesNobody s a) :=
  match a with
  | .read result _ _ _ => inferInstanceAs (Decidable (result.getD [] ≠ []))
  | .sweep now => inferInstanceAs (Decidable (NothingExpires s (.sweep now)))
  | .select _ | .selectFailed | .accept _ _ _ | .acceptFailed | .noConnection | .track _
  | .next | .touch _ | .remove | .shift | .initKeepAlive => inferInstanceAs (Decidable True)

/-- What else the process has open leaves room for the clients in a set. -/
def FewOthers : Act → Prop
  | .accept others _ _ => others.length + maxSensors < fdSetSize
  | _ => True

instance (a : Act) : Decidable (FewOthers a) :=
  match a with
  | .accept others _ _ => inferInstanceAs (Decidable (others.length + maxSensors < fdSetSize))
  | .select _ | .selectFailed | .acceptFailed | .noConnection | .track _ | .next
  | .read _ _ _ _ | .touch _ | .remove | .shift | .initKeepAlive | .sweep _ =>
    inferInstanceAs (Decidable True)

theorem lostFds_append (os os' : List Event) :
    lostFds (os ++ os') = os'.foldl Event.lose (lostFds os) := by
  rw [lostFds, List.foldl_append]
  rfl

theorem foldl_lose_logged (lost : List Int) {α : Type} (l : List α)
    (m : α → Message FloatBits) :
    (l.map fun x => Event.logged (m x)).foldl Event.lose lost = lost := by
  induction l with
  | nil => rfl
  | cons x l ih => exact ih

/-- The lowest free number is at most the number of used ones. -/
theorem LowestFree.le_length {used : List Int} {fd : Int} (h : LowestFree used fd) :
    fd ≤ used.length := by
  obtain ⟨hpos, _, hbelow⟩ := h
  have hsub : (List.range fd.toNat).map (fun n : Nat => (n : Int)) ⊆ used := by
    intro x hx
    obtain ⟨n, hn, rfl⟩ := List.mem_map.mp hx
    exact hbelow n (List.mem_range.mp hn)
  have hnodup : ((List.range fd.toNat).map fun n : Nat => (n : Int)).Nodup :=
    List.nodup_range.map fun _ _ h => Int.ofNat.inj h
  have hle := (List.Nodup.subperm hnodup hsub).length_le
  rw [List.length_map, List.length_range] at hle
  omega

theorem nothingExpires_iff {s : State} (hw : s.WellFormed) {now : Nat → Int64} :
    NothingExpires s (.sweep now) ↔ expired now 0 s.tables.entries = [] := by
  constructor
  · intro h
    apply List.eq_nil_iff_forall_not_mem.mpr
    intro entry hentry
    obtain ⟨i, hget, ht⟩ := mem_expired.mp hentry
    have hi : i < s.keepAlive.connActiveCount := by
      rw [← hw.entries_length]
      exact (List.getElem?_eq_some_iff.mp hget).1
    exact h i hi entry ((hw.keepAlive.list.getElem? hi).trans hget) ht
  · intro h i hi entry hget ht
    have hmem : entry ∈ expired now 0 s.tables.entries :=
      mem_expired.mpr ⟨i, (hw.keepAlive.list.getElem? hi).symm.trans hget, ht⟩
    rw [h] at hmem
    exact absurd hmem List.not_mem_nil

/-- Whatever the tables say, the descriptors in them are open, and so are those of the
clients that were lost. -/
structure Owned (os : List Event) (u : Tables) : Prop where
  clients : ∀ fd ∈ u.fds, fd ∈ u.openFds
  tracked : ∀ fd ∈ connectionIds u.entries, fd ∈ u.openFds
  accepting : ∀ fd readfds since, u.pc = .accepted fd readfds since → fd ∈ u.openFds
  nodup : u.openFds.Nodup
  lost : ∀ fd ∈ lostFds os, fd ∈ u.openFds

/-- With nobody lost, the clients are the open descriptors. -/
structure Undisturbed (u : Tables) : Prop where
  fds_eq : u.fds = u.openFds
  removing : ∀ i readfds, u.pc ≠ .removing i readfds
  shifting : ∀ i readfds, u.pc ≠ .shifting i readfds
  small : ∀ fd ∈ u.openFds, 0 ≤ fd ∧ fd < (fdSetSize : Int)

theorem owned_start : Owned [] start.tables where
  clients := fun _ hfd => absurd hfd List.not_mem_nil
  tracked := fun _ hfd => absurd hfd List.not_mem_nil
  accepting := fun _ _ _ hpc => Pc.noConfusion hpc
  nodup := List.nodup_nil
  lost := fun _ hfd => absurd hfd List.not_mem_nil

theorem undisturbed_start : Undisturbed start.tables where
  fds_eq := rfl
  removing := fun _ _ hpc => Pc.noConfusion hpc
  shifting := fun _ _ hpc => Pc.noConfusion hpc
  small := fun _ hfd => absurd hfd List.not_mem_nil

/-- What every move does to the two books. -/
theorem Owned.step {socketFd : Int} {u v : Tables} {a : Act} {os os' : List Event}
    (h : Owned os u) (hmove : Moves socketFd u a v os') : Owned (os ++ os') v := by
  cases hmove with
  | @select readfds at_ =>
    refine ⟨h.clients, h.tracked, ?_, h.nodup, by rw [lostFds_append]; exact h.lost⟩
    intro fd readfds' since hpc
    by_cases hnone : readfds = []
    · simp [hnone] at hpc
    · simp [hnone] at hpc
  | selectFailed at_ =>
    exact ⟨h.clients, h.tracked, h.accepting, h.nodup, by rw [lostFds_append]; exact h.lost⟩
  | @accept others clientFd now readfds at_ hfree =>
    have hnew : clientFd ∉ u.openFds := fun hmem => hfree.2.1 (List.mem_append_right _ hmem)
    refine ⟨?_, ?_, ?_, ?_, ?_⟩
    · intro fd hfd
      rcases List.mem_append.mp hfd with hfd | hfd
      · exact List.mem_append_left _ (h.clients fd hfd)
      · exact List.mem_append_right _ hfd
    · intro fd hfd
      exact List.mem_append_left _ (h.tracked fd hfd)
    · intro fd readfds' since hpc
      cases hpc
      exact List.mem_append_right _ (List.mem_singleton_self _)
    · rw [List.nodup_append]
      refine ⟨h.nodup, List.nodup_singleton _, ?_⟩
      intro fd hfd fd' hfd' he
      rw [List.mem_singleton] at hfd'
      exact hnew (hfd' ▸ he ▸ hfd)
    · intro fd hfd
      rw [lostFds_append] at hfd
      exact List.mem_append_left _ (h.lost fd (List.mem_filter.mp hfd).1)
  | reject at_ =>
    refine ⟨h.clients, h.tracked, fun _ _ _ hpc => Pc.noConfusion hpc, h.nodup, ?_⟩
    intro fd hfd
    rw [lostFds_append] at hfd
    exact h.lost fd (List.mem_filter.mp hfd).1
  | track at_ =>
    refine ⟨h.clients, ?_, fun _ _ _ hpc => Pc.noConfusion hpc, h.nodup,
      by rw [lostFds_append]; exact h.lost⟩
    intro fd hfd
    rw [connectionIds, List.map_append] at hfd
    rcases List.mem_append.mp hfd with hfd | hfd
    · exact h.tracked fd hfd
    · rw [List.mem_singleton.mp hfd]
      exact h.accepting _ _ _ at_
  | lose at_ hclient =>
    refine ⟨h.clients, h.tracked, fun _ _ _ hpc => Pc.noConfusion hpc, h.nodup, ?_⟩
    intro fd hfd
    rw [lostFds_append] at hfd
    rcases List.mem_cons.mp hfd with hfd | hfd
    · rw [hfd]
      exact h.clients _ (List.mem_of_getElem? hclient)
    · exact h.lost fd hfd
  | touch at_ =>
    refine ⟨h.clients, ?_, fun _ _ _ hpc => Pc.noConfusion hpc, h.nodup,
      by rw [lostFds_append]; exact h.lost⟩
    intro fd hfd
    rw [show connectionIds (u.entries.modify _ _) = connectionIds u.entries from
      connectionIds_modify (by intro _; rfl) ..] at hfd
    exact h.tracked fd hfd
  | remove at_ =>
    refine ⟨h.clients, ?_, fun _ _ _ hpc => Pc.noConfusion hpc, h.nodup,
      by rw [lostFds_append]; exact h.lost⟩
    intro fd hfd
    exact h.tracked fd (((List.eraseIdx_sublist ..).map _).subset hfd)
  | shift at_ =>
    refine ⟨?_, h.tracked, fun _ _ _ hpc => Pc.noConfusion hpc, h.nodup,
      by rw [lostFds_append]; exact h.lost⟩
    intro fd hfd
    exact h.clients fd ((List.eraseIdx_sublist ..).subset hfd)
  | initKeepAlive =>
    refine ⟨h.clients, ?_, h.accepting, h.nodup, by rw [lostFds_append]; exact h.lost⟩
    intro fd hfd
    rw [show connectionIds (u.entries.modify _ _) = connectionIds u.entries from
      connectionIds_modify (by intro _; rfl) ..] at hfd
    exact h.tracked fd hfd
  | @sweep now =>
    refine ⟨h.clients, ?_, h.accepting, h.nodup, ?_⟩
    · intro fd hfd
      exact h.tracked fd (((survivors_sublist ..).map _).subset hfd)
    · intro fd hfd
      rw [lostFds_append, List.foldl_cons, foldl_lose_logged] at hfd
      rcases List.mem_append.mp hfd with hfd | hfd
      · exact h.tracked fd (((expired_sublist ..).map _).subset hfd)
      · exact h.lost fd hfd
  | _ =>
    exact ⟨h.clients, h.tracked, fun _ _ _ hpc => Pc.noConfusion hpc, h.nodup,
      by rw [lostFds_append]; exact h.lost⟩

/-- A step keeps the list of the lost empty exactly when it loses nobody. -/
theorem lostFds_step_iff {socketFd : Int} {s t : State} {a : Act} {os os' : List Event}
    (hw : s.WellFormed) (h : Owned os s.tables) (hstep : step socketFd s a = some (t, os')) :
    lostFds (os ++ os') = [] ↔ lostFds os = [] ∧ LosesNobody s a := by
  obtain ⟨_, hmove⟩ := step_moves hw hstep
  generalize t.tables = v at hmove
  -- a number the kernel hands out is not that of a lost client, which is still open
  have hsame : ∀ used clientFd, LowestFree (used ++ s.tables.openFds) clientFd →
      ((lostFds os).filter fun fd' => fd' ≠ clientFd) = lostFds os := by
    intro used clientFd hfree
    rw [List.filter_eq_self]
    intro fd hfd
    apply decide_eq_true
    intro he
    exact hfree.2.1 (List.mem_append_right _ (h.lost _ (he ▸ hfd)))
  rw [lostFds_append]
  cases hmove with
  | @accept others clientFd now readfds at_ hfree =>
    show ((lostFds os).filter fun fd' => fd' ≠ clientFd) = [] ↔ lostFds os = [] ∧ True
    rw [hsame _ _ hfree, and_true]
  | @reject others clientFd now readfds at_ hfree =>
    show ((lostFds os).filter fun fd' => fd' ≠ clientFd) = [] ↔ lostFds os = [] ∧ True
    rw [hsame _ _ hfree, and_true]
  | data at_ hclient hne =>
    show lostFds os = [] ↔ lostFds os = [] ∧ _ ≠ []
    exact ⟨fun hnil => ⟨hnil, hne⟩, fun hand => hand.1⟩
  | @lose i readfds fd result stale ret now m at_ hclient hended =>
    show fd :: lostFds os = [] ↔ lostFds os = [] ∧ result.getD [] ≠ []
    constructor
    · intro hnil
      cases hnil
    · intro hand
      exact absurd hended hand.2
  | @sweep now =>
    rw [List.foldl_cons, foldl_lose_logged]
    show (expired now 0 s.tables.entries).map ConnectionTracking.connectionId ++ lostFds os =
      [] ↔ lostFds os = [] ∧ NothingExpires s (.sweep now)
    rw [List.append_eq_nil_iff, List.map_eq_nil_iff, nothingExpires_iff hw, and_comm]
  | _ => exact ⟨fun hnil => ⟨hnil, trivial⟩, fun hand => hand.1⟩

/-- The open descriptors stay the clients while nobody is lost. -/
theorem Undisturbed.step {socketFd : Int} {s t : State} {a : Act} {os' : List Event}
    (hw : s.WellFormed) (h : Undisturbed s.tables) (hnobody : LosesNobody s a)
    (hothers : FewOthers a)
    (hstep : ConnectionManager.step socketFd s a = some (t, os')) : Undisturbed t.tables := by
  obtain ⟨_, hmove⟩ := step_moves hw hstep
  generalize t.tables = v at hmove ⊢
  have hpc : s.tables.pc = s.pc := rfl
  cases hmove with
  | @select readfds at_ =>
    refine ⟨h.fds_eq, ?_, ?_, h.small⟩
    · intro i readfds' hpc'
      by_cases hnone : readfds = []
      · simp [hnone] at hpc'
      · simp [hnone] at hpc'
    · intro i readfds' hpc'
      by_cases hnone : readfds = []
      · simp [hnone] at hpc'
      · simp [hnone] at hpc'
  | selectFailed at_ => exact h
  | @accept others clientFd now readfds at_ hfree hroom =>
    refine ⟨?_, fun _ _ hpc' => Pc.noConfusion hpc', fun _ _ hpc' => Pc.noConfusion hpc', ?_⟩
    · show s.tables.fds ++ [clientFd] = s.tables.openFds ++ [clientFd]
      rw [h.fds_eq]
    · intro fd hfd
      rcases List.mem_append.mp hfd with hfd | hfd
      · exact h.small fd hfd
      · rw [List.mem_singleton.mp hfd]
        have hle := hfree.le_length
        have hbound : others.length + maxSensors < fdSetSize := hothers
        rw [h.fds_eq] at hroom
        simp only [List.length_cons, List.length_append] at hle
        exact ⟨hfree.1, by omega⟩
  | lose at_ hclient hended => exact absurd hended hnobody
  | remove at_ => exact absurd at_ (h.removing _ _)
  | shift at_ => exact absurd at_ (h.shifting _ _)
  | initKeepAlive => exact ⟨h.fds_eq, h.removing, h.shifting, h.small⟩
  | sweep => exact ⟨h.fds_eq, h.removing, h.shifting, h.small⟩
  | _ =>
    exact ⟨h.fds_eq, fun _ _ hpc' => Pc.noConfusion hpc', fun _ _ hpc' => Pc.noConfusion hpc',
      h.small⟩

/-- At the head of the loop, undisturbed, the books balance. -/
theorem conserved_of_undisturbed {socketFd : Int} {s : State} {os : List Event}
    (hw : s.WellFormed) (hown : Owned os s.tables) (h : Undisturbed s.tables)
    (hlost : lostFds os = []) : Conserved socketFd s os where
  owned := by
    intro fd _
    by_cases hfd : fd ∈ s.openFds
    · right
      have hfds : s.clients.clientFds.take s.clients.clientCount = s.openFds := h.fds_eq
      rw [hfds]
      exact List.count_eq_one_of_mem hown.nodup hfd
    · exact Or.inl hfd
  lost := by
    intro fd hfd
    rw [hlost] at hfd
    exact absurd hfd List.not_mem_nil
  few := by
    refine ⟨hown.nodup, ?_⟩
    have hfds : s.tables.fds = s.openFds := h.fds_eq
    rw [← hfds, hw.fds_length]
    exact hw.clientCount_le
  selectable := by
    intro fd hfd hne
    rcases List.mem_cons.mp hfd with hfd | hfd
    · exact absurd hfd hne
    · have hfds : s.clients.clientFds.take s.clients.clientCount = s.openFds := h.fds_eq
      rw [hfds] at hfd
      exact h.small fd (List.mem_filter.mp hfd).1

/-- In every state reached, the head of the loop among them, the descriptors are
conserved if and only if no read has ended or failed and no connection has timed
out. -/
theorem descriptors_conserved_iff {socketFd : Int} {as : List Act} {s : State}
    {os : List Event}
    (hothers : ∀ a ∈ as, FewOthers a)
    (hrun : Machine.run (step socketFd) start as = some (s, os)) :
    Conserved socketFd s os ↔ Machine.Meets (step socketFd) LosesNobody start as := by
  have hinv : (s.WellFormed ∧ Owned os s.tables) ∧
      (Machine.Meets (step socketFd) LosesNobody start as ↔ lostFds os = []) ∧
      (lostFds os = [] → Undisturbed s.tables) := by
    refine Machine.run_induction
      (P := fun as os u => (∀ a ∈ as, FewOthers a) →
        (u.WellFormed ∧ Owned os u.tables) ∧
        (Machine.Meets (step socketFd) LosesNobody start as ↔ lostFds os = []) ∧
        (lostFds os = [] → Undisturbed u.tables)) ?_ ?_ hrun hothers
    · intro _
      exact ⟨⟨wellFormed_start, owned_start⟩, ⟨fun _ => rfl, fun _ => trivial⟩,
        fun _ => undisturbed_start⟩
    · intro as os u a t os' hu ih hstep hothers
      obtain ⟨⟨hw, hown⟩, hmeets, hundisturbed⟩ :=
        ih fun a' ha' => hothers a' (List.mem_append_left _ ha')
      obtain ⟨hwt, hmove⟩ := step_moves hw hstep
      have hlost := lostFds_step_iff hw hown hstep
      refine ⟨⟨hwt, hown.step hmove⟩, ?_, ?_⟩
      · rw [Machine.meets_snoc_iff hu, hmeets, hlost]
      · intro hnil
        obtain ⟨hbefore, hnobody⟩ := hlost.mp hnil
        exact (hundisturbed hbefore).step hw hnobody
          (hothers a (List.mem_append_right _ (List.mem_singleton_self a))) hstep
  obtain ⟨⟨hw, hown⟩, hmeets, hundisturbed⟩ := hinv
  rw [hmeets]
  constructor
  · intro h
    apply List.eq_nil_iff_forall_not_mem.mpr
    intro fd hfd
    exact (h.lost fd hfd).1 (hown.lost fd hfd)
  · intro hnil
    exact conserved_of_undisturbed hw hown (hundisturbed hnil) hnil

/-- Two sensors that stay connected. -/
def twoStay : List Act :=
  clearing ++ [.select [3], .accept [0, 1, 2] 4 100, .track 100, .next, .next,
    .select [3], .accept [0, 1, 2] 5 101, .track 101, .next, .next, .next, .sweep fun _ => 110]

theorem descriptors_conserved_two_sensors :
    ∃ s os, Machine.run (step 3) start twoStay = some (s, os) ∧ Conserved 3 s os := by
  have hsome : (Machine.run (step 3) start twoStay).isSome = true := by decide +kernel
  obtain ⟨⟨s, os⟩, hrun⟩ := Option.isSome_iff_exists.mp hsome
  exact ⟨s, os, hrun,
    (descriptors_conserved_iff (by decide +kernel) hrun).mpr (by decide +kernel)⟩

/-- A sensor that closes its connection. -/
def oneCloses : List Act :=
  clearing ++ [.select [3], .accept [0, 1, 2] 4 100, .track 100, .next, .next,
    .select [4], .noConnection, .read (some []) (List.replicate 16 0) 0 101, .remove, .shift,
    .next]

/-- Its descriptor stays open. -/
theorem closed_sensor_leaves_descriptor_open :
    ∃ s os, Machine.run (step 3) start oneCloses = some (s, os) ∧
      s.pc = .head ∧ 4 ∈ lostFds os ∧ 4 ∈ s.openFds ∧ ¬Conserved 3 s os := by
  have hmap : (Machine.run (step 3) start oneCloses).map
      (fun q => (q.1.pc, lostFds q.2, q.1.openFds)) = some (.head, [4], [4]) := by
    decide +kernel
  obtain ⟨⟨s, os⟩, hrun, heq⟩ := Option.map_eq_some_iff.mp hmap
  obtain ⟨hpc, hlists⟩ := Prod.mk.inj heq
  obtain ⟨hlost, hopen⟩ := Prod.mk.inj hlists
  have hlost : 4 ∈ lostFds os := by
    rw [show lostFds os = [4] from hlost]
    exact List.mem_singleton_self 4
  have hopen : 4 ∈ s.openFds := by
    rw [show s.openFds = [4] from hopen]
    exact List.mem_singleton_self 4
  exact ⟨s, os, hrun, hpc, hlost, hopen, fun h => (h.lost 4 hlost).1 hopen⟩

end ConnectionManager
end Gateway
end LinuxEmbedded
