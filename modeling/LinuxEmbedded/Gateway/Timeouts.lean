import LinuxEmbedded.Gateway.Alignment
import LinuxEmbedded.Lib.Keyed

/-
Which connections a keep-alive sweep reports.

The purpose of the table is to know for each open connection when it was last
heard of.  `lastHeard` says that from the accepts and the reads alone.  The table
agrees with it, up to the section that is pending, as long as the index of each
section stands for the client that was read, each section asks for the time in the
same second as its accept or read, and nothing is in an entry when `init_keep_alive`
clears it.
-/
namespace LinuxEmbedded
namespace Gateway
namespace ConnectionManager

open Framing (Byte)

/-- When a connection was last heard of, after one more event. -/
def Event.hear (fd : Int) (last : Option Int64) : Event → Option Int64
  | .accepted fd' now => if fd' = fd then some now else last
  | .received fd' _ now => if fd' = fd then last.map fun _ => now else last
  | .lost fd' | .closed fd' => if fd' = fd then none else last
  | .swept _ reported => if fd ∈ reported then none else last
  | _ => last

/-- The later of the accept and the last successful read of an open connection that
was not reported yet. -/
def lastHeard (fd : Int) (os : List Event) : Option Int64 :=
  os.foldl (fun last e => e.hear fd last) none

/-- The connections reported by sweeps. -/
def reports (os : List Event) : List Int :=
  os.flatMap fun
    | .swept _ reported => reported
    | _ => []

theorem reports_swept (now : Nat → Int64) (reported : List Int) :
    reports (.swept now reported :: reported.map fun id => .logged (timeoutMessage id)) =
      reported := by
  have hlogs : reports (reported.map fun id => .logged (timeoutMessage id)) = [] := by
    rw [reports, List.flatMap_map]
    exact List.flatMap_eq_nil_iff.mpr fun _ _ => rfl
  rw [reports, List.flatMap_cons]
  show reported ++ reports (reported.map _) = reported
  rw [hlogs, List.append_nil]

/-- The time of the accept or of the read whose section is pending. -/
def Pc.since : Pc → Option Int64
  | .accepted _ _ since | .touching _ _ since => some since
  | _ => none

/-- The index of the pending section stands for the client that was read: the entry
is its own, or it has no entry any more and the index is past the table. -/
def State.Denotes (s : State) (i : Nat) : Prop :=
  s.SameClient i ∨ s.keepAlive.connActiveCount ≤ i ∧
    ∀ j < s.keepAlive.connActiveCount,
      s.keepAlive.connections[j]?.map ConnectionTracking.connectionId ≠ s.clients.clientFds[i]?

instance (s : State) (i : Nat) : Decidable (s.Denotes i) :=
  inferInstanceAs (Decidable ((_ ∧ _) ∨ _))

/-- The client that was read and whose section is pending. -/
def State.readClient? (s : State) : Option Int :=
  s.pc.pending.bind fun i => s.clients.clientFds[i]?

/-- The `n`-th test of a sweep comes in time for the section that is pending: the accept or
the read is no longer than the timeout ago, and an entry that waits for the section has not
timed out. -/
def State.InTime (s : State) (now : Nat → Int64) (n : Nat) : Prop :=
  (∀ since ∈ s.pc.since, (now n).toInt - since.toInt ≤ timeoutSeconds.toInt) ∧
    ∀ entry ∈ s.keepAlive.connections[n]?, s.readClient? = some entry.connectionId →
      ¬TimedOut (now n) entry

instance (s : State) (now : Nat → Int64) (n : Nat) : Decidable (s.InTime now n) :=
  -- the instance named: another one goes through every `Int64`
  have : Decidable (∀ since ∈ s.pc.since, (now n).toInt - since.toInt ≤ timeoutSeconds.toInt) :=
    Option.decidableForallMem s.pc.since
  inferInstanceAs (Decidable (_ ∧ _))

/-- The clock is not before the epoch, `init_keep_alive` clears no entry in use, a section
works on the client that was accepted or read and asks for the time in the same second,
and a sweep in between comes in time. -/
def OnTrack (s : State) : Act → Prop
  | .initKeepAlive => s.keepAlive.connActiveCount ≤ s.cleared
  | .accept _ _ now | .read _ _ _ now => 0 ≤ now
  | .track now => s.pc.since = some now
  | .touch now => s.pc.since = some now ∧ ∀ i ∈ s.pc.pending, s.Denotes i
  | .remove => ∀ i ∈ s.pc.pending, s.Denotes i
  | .sweep now => ∀ n < s.keepAlive.connActiveCount, 0 ≤ now n ∧ s.InTime now n
  | _ => True

instance (s : State) (a : Act) : Decidable (OnTrack s a) :=
  match a with
  | .initKeepAlive => inferInstanceAs (Decidable (_ ≤ _))
  | .accept _ _ now | .read _ _ _ now => inferInstanceAs (Decidable (0 ≤ now))
  | .track _ => inferInstanceAs (Decidable (_ = _))
  | .touch _ => inferInstanceAs (Decidable (_ ∧ ∀ i ∈ s.pc.pending, s.Denotes i))
  | .remove => inferInstanceAs (Decidable (∀ i ∈ s.pc.pending, s.Denotes i))
  | .sweep now => inferInstanceAs (Decidable (∀ n < s.keepAlive.connActiveCount,
      0 ≤ now n ∧ s.InTime now n))
  | .select _ | .selectFailed | .acceptFailed | .noConnection | .next | .shift =>
    inferInstanceAs (Decidable True)

theorem lastHeard_append (fd : Int) (os os' : List Event) :
    lastHeard fd (os ++ os') = os'.foldl (fun last e => e.hear fd last) (lastHeard fd os) := by
  rw [lastHeard, List.foldl_append]
  rfl

/-- Messages say nothing about connections. -/
theorem foldl_hear_logged (fd : Int) (last : Option Int64) (ms : List Event)
    (h : ∀ e ∈ ms, ∃ m, e = .logged m) : ms.foldl (fun last e => e.hear fd last) last = last := by
  induction ms with
  | nil => rfl
  | cons e ms ih =>
    obtain ⟨m, hm⟩ := h e (List.mem_cons_self ..)
    subst hm
    exact ih fun e he => h e (List.mem_cons_of_mem _ he)

theorem mem_connectionIds {entries : List ConnectionTracking} {entry : ConnectionTracking}
    (h : entry ∈ entries) : entry.connectionId ∈ connectionIds entries :=
  List.mem_map_of_mem h

theorem mem_survivors {now : Nat → Int64} {l : List ConnectionTracking}
    {entry : ConnectionTracking} :
    entry ∈ survivors now 0 l ↔ ∃ i, l[i]? = some entry ∧ ¬TimedOut (now i) entry := by
  rw [survivors, List.mem_map]
  constructor
  · rintro ⟨⟨entry', i⟩, hmem, he⟩
    obtain ⟨hindex, hkeep⟩ := List.mem_filter.mp hmem
    obtain rfl : entry' = entry := he
    exact ⟨i, List.mem_zipIdx_iff_getElem?.mp hindex, of_decide_eq_true hkeep⟩
  · rintro ⟨i, hget, hkeep⟩
    exact ⟨(entry, i), List.mem_filter.mpr ⟨List.mem_zipIdx_iff_getElem?.mpr hget,
      decide_eq_true hkeep⟩, rfl⟩

theorem mem_expired {now : Nat → Int64} {l : List ConnectionTracking}
    {entry : ConnectionTracking} :
    entry ∈ expired now 0 l ↔ ∃ i, l[i]? = some entry ∧ TimedOut (now i) entry := by
  rw [expired, List.mem_map]
  constructor
  · rintro ⟨⟨entry', i⟩, hmem, he⟩
    obtain ⟨hindex, hgone⟩ := List.mem_filter.mp hmem
    obtain rfl : entry' = entry := he
    exact ⟨i, List.mem_zipIdx_iff_getElem?.mp hindex, of_decide_eq_true hgone⟩
  · rintro ⟨i, hget, hgone⟩
    exact ⟨(entry, i), List.mem_filter.mpr ⟨List.mem_zipIdx_iff_getElem?.mpr hget,
      decide_eq_true hgone⟩, rfl⟩

theorem expired_sublist (now : Nat → Int64) (n : Nat) (l : List ConnectionTracking) :
    (expired now n l).Sublist l := by
  have hfst : (l.zipIdx n).map Prod.fst = l := List.zipIdx_map_fst ..
  conv_rhs => rw [← hfst]
  exact List.filter_sublist.map _

theorem survivors_sublist (now : Nat → Int64) (n : Nat) (l : List ConnectionTracking) :
    (survivors now n l).Sublist l := by
  have hfst : (l.zipIdx n).map Prod.fst = l := List.zipIdx_map_fst ..
  conv_rhs => rw [← hfst]
  exact List.filter_sublist.map _

/-- With distinct connections, an entry is reported by its own test. -/
theorem reported_iff {now : Nat → Int64} {l : List ConnectionTracking}
    (hn : (connectionIds l).Nodup) {i : Nat} {entry : ConnectionTracking}
    (hget : l[i]? = some entry) :
    entry.connectionId ∈ connectionIds (expired now 0 l) ↔ TimedOut (now i) entry := by
  constructor
  · intro hmem
    obtain ⟨entry', hentry', hid⟩ := List.mem_map.mp hmem
    obtain ⟨j, hgetj, ht⟩ := mem_expired.mp hentry'
    have hlt := (List.getElem?_eq_some_iff.mp hget).1
    have hlt' : i < (connectionIds l).length := by
      rw [connectionIds, List.length_map]
      exact hlt
    have hij : i = j := by
      apply (List.getElem?_inj hlt' hn).mp
      rw [connectionIds, List.getElem?_map, List.getElem?_map, hget, hgetj]
      exact congrArg some hid.symm
    rw [← hij] at hgetj ht
    rw [hget] at hgetj
    rw [Option.some.inj hgetj]
    exact ht
  · intro ht
    exact mem_connectionIds (mem_expired.mpr ⟨i, hget, ht⟩)

/-- A sweep leaves the entries it does not report. -/
theorem mem_survivors_iff {now : Nat → Int64} {l : List ConnectionTracking}
    (hn : (connectionIds l).Nodup) {entry : ConnectionTracking} :
    entry ∈ survivors now 0 l ↔
      entry ∈ l ∧ entry.connectionId ∉ connectionIds (expired now 0 l) := by
  rw [mem_survivors]
  constructor
  · rintro ⟨i, hget, hkeep⟩
    exact ⟨List.mem_of_getElem? hget, fun hmem => hkeep ((reported_iff hn hget).mp hmem)⟩
  · rintro ⟨hentry, hnot⟩
    obtain ⟨i, hget⟩ := List.mem_iff_getElem?.mp hentry
    exact ⟨i, hget, fun ht => hnot ((reported_iff hn hget).mpr ht)⟩

/-! ## The entries once the pending section has run -/

/-- The entry of connection `fd` says it was last heard of at `last`. -/
def Records (entries : List ConnectionTracking) (fd : Int) (last : Int64) : Prop :=
  ∃ entry ∈ entries, entry.connectionId = fd ∧ entry.lastActive = last

/-- What the section after a read at `since` is to do with an entry. -/
def hearing (client : Option Int) (since : Int64) (entry : ConnectionTracking) :
    ConnectionTracking :=
  if some entry.connectionId = client then { entry with lastActive := since } else entry

/-- The entries after the pending section, when it works on the client it is meant for. -/
def Tables.settled (u : Tables) : List ConnectionTracking :=
  match u.pc with
  | .accepted clientFd _ since => u.entries ++ [⟨clientFd, since, 1⟩]
  | .touching i _ since => u.entries.map (hearing u.fds[i]? since)
  | .removing i _ => u.entries.filter fun entry => some entry.connectionId ≠ u.fds[i]?
  | _ => u.entries

@[simp] theorem hearing_connectionId (client : Option Int) (since : Int64)
    (entry : ConnectionTracking) :
    (hearing client since entry).connectionId = entry.connectionId := by
  unfold hearing
  split <;> rfl

theorem hearing_lastActive (client : Option Int) (since : Int64) (entry : ConnectionTracking) :
    (hearing client since entry).lastActive =
      if some entry.connectionId = client then since else entry.lastActive := by
  unfold hearing
  split <;> rfl

theorem records_append {entries : List ConnectionTracking} {fd' fd : Int} {since last : Int64} :
    Records (entries ++ [⟨fd', since, 1⟩]) fd last ↔
      Records entries fd last ∨ fd' = fd ∧ since = last := by
  simp [Records, or_and_right, exists_or]

theorem records_hearing {entries : List ConnectionTracking} {client : Option Int} {fd : Int}
    {since last : Int64} :
    Records (entries.map (hearing client since)) fd last ↔
      ∃ entry ∈ entries, entry.connectionId = fd ∧
        (if some fd = client then since else entry.lastActive) = last := by
  simp only [Records, List.mem_map, exists_exists_and_eq_and, hearing_connectionId,
    hearing_lastActive]
  refine exists_congr fun entry => and_congr_right fun _ => ?_
  constructor
  · rintro ⟨rfl, hlast⟩
    exact ⟨rfl, hlast⟩
  · rintro ⟨rfl, hlast⟩
    exact ⟨rfl, hlast⟩

theorem records_filter {entries : List ConnectionTracking} {client : Option Int} {fd : Int}
    {last : Int64} :
    Records (entries.filter fun entry => some entry.connectionId ≠ client) fd last ↔
      some fd ≠ client ∧ Records entries fd last := by
  simp only [Records, List.mem_filter, decide_eq_true_eq]
  constructor
  · rintro ⟨entry, ⟨hentry, hne⟩, rfl, hlast⟩
    exact ⟨hne, entry, hentry, rfl, hlast⟩
  · rintro ⟨hne, entry, hentry, rfl, hlast⟩
    exact ⟨entry, ⟨hentry, hne⟩, rfl, hlast⟩

theorem Records.mem {entries : List ConnectionTracking} {fd : Int} {last : Int64}
    (h : Records entries fd last) : fd ∈ connectionIds entries := by
  obtain ⟨entry, hentry, rfl, _⟩ := h
  exact mem_connectionIds hentry

/-! ## One step -/

/-- The entries are distinct, open and active, and a client that waits for its entry has
none. -/
structure Tidy (u : Tables) : Prop where
  nodup : (connectionIds u.entries).Nodup
  isOpen : ∀ fd ∈ connectionIds u.entries, fd ∈ u.openFds
  active : ∀ entry ∈ u.entries, entry.active = 1 ∧ 0 ≤ entry.lastActive
  since : ∀ since ∈ u.pc.since, 0 ≤ since
  fresh : ∀ clientFd readfds since, u.pc = .accepted clientFd readfds since →
    clientFd ∈ u.openFds ∧ clientFd ∉ connectionIds u.entries

/-- The table agrees with the history, up to the pending section. -/
def Agrees (os : List Event) (u : Tables) : Prop :=
  ∀ fd last, lastHeard fd os = some last ↔ Records u.settled fd last

namespace Tidy

variable {u v : Tables}

/-- Entries may go. -/
theorem fewer (h : Tidy u) (hsub : v.entries.Sublist u.entries) (hopen : v.openFds = u.openFds)
    (hsince : ∀ since ∈ v.pc.since, 0 ≤ since)
    (hpc : ∀ clientFd readfds since, v.pc = .accepted clientFd readfds since →
      clientFd ∈ u.openFds ∧ clientFd ∉ connectionIds u.entries) : Tidy v where
  nodup := h.nodup.sublist (hsub.map _)
  isOpen := fun fd hfd => hopen ▸ h.isOpen fd ((hsub.map _).subset hfd)
  active := fun entry hentry => h.active entry (hsub.subset hentry)
  since := hsince
  fresh := by
    intro clientFd readfds since hv
    obtain ⟨hmem, hnew⟩ := hpc clientFd readfds since hv
    exact ⟨hopen ▸ hmem, fun hin => hnew ((hsub.map _).subset hin)⟩

/-- The manager moves to a place where no section waits for its time. -/
theorem idle (h : Tidy u) (hsub : v.entries.Sublist u.entries) (hopen : v.openFds = u.openFds)
    (hidle : v.pc.since = none) : Tidy v := by
  apply h.fewer hsub hopen
  · intro since hsince
    rw [hidle] at hsince
    cases hsince
  · intro clientFd readfds since hpc
    rw [hpc] at hidle
    cases hidle

/-- The new descriptor is no one of the table. -/
theorem accept (h : Tidy u) {socketFd clientFd : Int} {others readfds : List Int} {now : Int64}
    (hfree : LowestFree (socketFd :: others ++ u.openFds) clientFd) (hnow : 0 ≤ now) :
    Tidy { u with
      fds := u.fds ++ [clientFd]
      openFds := u.openFds ++ [clientFd]
      pc := .accepted clientFd readfds now } where
  nodup := h.nodup
  isOpen := fun fd hfd => List.mem_append_left _ (h.isOpen fd hfd)
  active := h.active
  since := fun since hsince => Option.some.inj hsince ▸ hnow
  fresh := by
    intro clientFd' readfds' since hpc
    cases hpc
    refine ⟨List.mem_append_right _ (List.mem_singleton_self _), ?_⟩
    intro hmem
    exact hfree.2.1 (List.mem_append_right _ (h.isOpen _ hmem))

theorem track (h : Tidy u) {clientFd : Int} {readfds : List Int} {now : Int64}
    (hpc : u.pc = .accepted clientFd readfds now) :
    Tidy { u with entries := u.entries ++ [⟨clientFd, now, 1⟩], pc := .scan 0 readfds } := by
  obtain ⟨hopen, hfresh⟩ := h.fresh clientFd readfds now hpc
  constructor
  · refine Keyed.nodup_append_singleton h.nodup ?_
    intro entry hentry he
    have hmem := mem_connectionIds hentry
    rw [he] at hmem
    exact hfresh hmem
  · intro fd hfd
    rw [connectionIds, List.map_append, List.mem_append] at hfd
    rcases hfd with hfd | hfd
    · exact h.isOpen fd hfd
    · rw [List.mem_singleton.mp hfd]
      exact hopen
  · intro entry hentry
    rcases List.mem_append.mp hentry with hentry | hentry
    · exact h.active entry hentry
    · rw [List.mem_singleton.mp hentry]
      exact ⟨rfl, h.since now (by rw [hpc]; rfl)⟩
  · intro since hsince
    cases hsince
  · intro clientFd' readfds' since hpc'
    cases hpc'

theorem touch (h : Tidy u) {i : Nat} {readfds : List Int} {now : Int64} (hnow : 0 ≤ now) :
    Tidy { u with
      entries := u.entries.modify i fun entry => { entry with lastActive := now }
      pc := .scan (i + 1) readfds } := by
  have hids : connectionIds (u.entries.modify i fun entry => { entry with lastActive := now }) =
      connectionIds u.entries := connectionIds_modify (by intro _; rfl) ..
  constructor
  · rw [hids]
    exact h.nodup
  · intro fd hfd
    rw [hids] at hfd
    exact h.isOpen fd hfd
  · intro entry hentry
    obtain ⟨n, hn⟩ := List.mem_iff_getElem?.mp hentry
    rw [List.getElem?_modify] at hn
    obtain ⟨old, hold, he⟩ := Option.map_eq_some_iff.mp hn
    obtain ⟨hactive, hlast⟩ := h.active old (List.mem_of_getElem? hold)
    by_cases hin : i = n
    · rw [if_pos hin] at he
      rw [← he]
      exact ⟨hactive, hnow⟩
    · rw [if_neg hin] at he
      rw [← he]
      exact ⟨hactive, hlast⟩
  · intro since hsince
    cases hsince
  · intro clientFd readfds' since hpc
    cases hpc

end Tidy

namespace Agrees

variable {os os' : List Event} {u v : Tables}

/-- Events that say nothing about connections, and the same entries. -/
theorem keep (h : Agrees os u)
    (hhear : ∀ fd last, os'.foldl (fun last e => e.hear fd last) last = last)
    (hsettled : v.settled = u.settled) : Agrees (os ++ os') v := by
  intro fd last
  rw [lastHeard_append, hhear, hsettled]
  exact h fd last

theorem accept (h : Agrees os u) (hsettled : u.settled = u.entries) {clientFd : Int}
    {readfds fds openFds : List Int} {now : Int64} (hnew : clientFd ∉ connectionIds u.entries) :
    Agrees (os ++ [.accepted clientFd now])
      { u with fds, openFds, pc := .accepted clientFd readfds now } := by
  intro fd last
  rw [lastHeard_append]
  show (if clientFd = fd then some now else lastHeard fd os) = some last ↔
    Records (u.entries ++ [⟨clientFd, now, 1⟩]) fd last
  rw [records_append]
  by_cases hfd : clientFd = fd
  · have hnone : ¬Records u.entries fd last := fun hr => hnew (hfd ▸ hr.mem)
    simp [hfd, hnone]
  · rw [if_neg hfd, h fd last, hsettled]
    simp [hfd]

/-- A client that is turned away at once. -/
theorem reject (h : Agrees os u) (hsettled : u.settled = u.entries) {clientFd : Int}
    {readfds : List Int} {now : Int64} {m : Message FloatBits}
    (hnew : clientFd ∉ connectionIds u.entries) :
    Agrees (os ++ [.accepted clientFd now, .logged m, .closed clientFd])
      { u with pc := .scan 0 readfds } := by
  intro fd last
  rw [lastHeard_append]
  show (if clientFd = fd then none else if clientFd = fd then some now else lastHeard fd os) =
    some last ↔ Records u.entries fd last
  by_cases hfd : clientFd = fd
  · have hnone : ¬Records u.entries fd last := fun hr => hnew (hfd ▸ hr.mem)
    simp [hfd, hnone]
  · rw [if_neg hfd, if_neg hfd, h fd last, hsettled]

theorem data (h : Agrees os u) (hsettled : u.settled = u.entries) {i : Nat}
    {readfds : List Int} {fd : Int} {bytes : List Byte} {now : Int64}
    (hclient : u.fds[i]? = some fd)
    (hhear : ∀ fd last, os'.foldl (fun last e => e.hear fd last) last = last) :
    Agrees (os ++ .received fd bytes now :: os') { u with pc := .touching i readfds now } := by
  intro fd' last
  rw [lastHeard_append, List.foldl_cons, hhear]
  show (if fd = fd' then (lastHeard fd' os).map fun _ => now else lastHeard fd' os) =
    some last ↔ Records (u.entries.map (hearing u.fds[i]? now)) fd' last
  rw [records_hearing, hclient]
  have hold : ∀ last, lastHeard fd' os = some last ↔ Records u.entries fd' last := by
    intro last
    rw [h fd' last, hsettled]
  by_cases hfd : fd = fd'
  · subst hfd
    rw [if_pos rfl, Option.map_eq_some_iff]
    constructor
    · rintro ⟨old, hsome, rfl⟩
      obtain ⟨entry, hentry, hid, _⟩ := (hold old).mp hsome
      exact ⟨entry, hentry, hid, if_pos rfl⟩
    · rintro ⟨entry, hentry, hid, hlast⟩
      rw [if_pos rfl] at hlast
      exact ⟨entry.lastActive, (hold _).mpr ⟨entry, hentry, hid, rfl⟩, hlast⟩
  · have hne : ¬some fd' = some fd := fun he => hfd (Option.some.inj he).symm
    rw [if_neg hfd, hold]
    simp only [hne, if_false]
    exact Iff.rfl

theorem lose (h : Agrees os u) (hsettled : u.settled = u.entries) {i : Nat}
    {readfds : List Int} {fd : Int} {m : Message FloatBits} (hclient : u.fds[i]? = some fd) :
    Agrees (os ++ [.lost fd, .logged m]) { u with pc := .removing i readfds } := by
  intro fd' last
  rw [lastHeard_append]
  show (if fd = fd' then none else lastHeard fd' os) = some last ↔
    Records (u.entries.filter fun entry => some entry.connectionId ≠ u.fds[i]?) fd' last
  rw [records_filter, hclient]
  by_cases hfd : fd = fd'
  · simp [hfd]
  · have hne : some fd' ≠ some fd := fun he => hfd (Option.some.inj he).symm
    rw [if_neg hfd, h fd' last, hsettled, and_iff_right hne]

/-- A sweep takes out what it reports, whatever section is pending. -/
theorem sweep (h : Agrees os u) (ht : Tidy u) (now : Nat → Int64) {logs : List Event}
    (hlogs : ∀ e ∈ logs, ∃ m, e = .logged m) :
    Agrees (os ++ .swept now (connectionIds (expired now 0 u.entries)) :: logs)
      { u with entries := survivors now 0 u.entries } := by
  have hleft : ∀ entry, entry ∈ survivors now 0 u.entries ↔ entry ∈ u.entries ∧
      entry.connectionId ∉ connectionIds (expired now 0 u.entries) :=
    fun entry => mem_survivors_iff ht.nodup
  have hreported : ∀ fd ∈ connectionIds (expired now 0 u.entries),
      fd ∈ connectionIds u.entries :=
    fun fd hfd => ((expired_sublist now 0 u.entries).map _).subset hfd
  intro fd last
  rw [lastHeard_append, List.foldl_cons, foldl_hear_logged fd _ logs hlogs]
  show (if fd ∈ connectionIds (expired now 0 u.entries) then none else lastHeard fd os) =
    some last ↔ _
  have hsplit : Records ({ u with entries := survivors now 0 u.entries } : Tables).settled fd
        last ↔
      fd ∉ connectionIds (expired now 0 u.entries) ∧ Records u.settled fd last := by
    have hentries : Records (survivors now 0 u.entries) fd last ↔
        fd ∉ connectionIds (expired now 0 u.entries) ∧ Records u.entries fd last := by
      simp only [Records, hleft]
      grind
    have hfresh := ht.fresh
    unfold Tables.settled
    cases hpc : u.pc with
    | accepted clientFd readfds since =>
      show Records (survivors now 0 u.entries ++ [⟨clientFd, since, 1⟩]) fd last ↔
        _ ∧ Records (u.entries ++ [⟨clientFd, since, 1⟩]) fd last
      have hnew := (hfresh clientFd readfds since hpc).2
      rw [records_append, records_append, hentries]
      grind
    | touching i readfds since =>
      show Records ((survivors now 0 u.entries).map (hearing u.fds[i]? since)) fd last ↔
        _ ∧ Records (u.entries.map (hearing u.fds[i]? since)) fd last
      simp only [records_hearing, hleft]
      grind
    | removing i readfds =>
      show Records ((survivors now 0 u.entries).filter _) fd last ↔
        _ ∧ Records (u.entries.filter _) fd last
      rw [records_filter, records_filter, hentries, and_left_comm]
    | _ => exact hentries
  rw [hsplit, ← h fd last]
  by_cases hfd : fd ∈ connectionIds (expired now 0 u.entries)
  · simp [hfd]
  · simp [hfd]

end Agrees

/-- The condition on a pending section, read on the lists. -/
theorem denotes_of_pending {s : State} (hw : s.WellFormed) {i : Nat} {fd : Int}
    (hclient : s.tables.fds[i]? = some fd) (h : s.Denotes i) :
    Keyed.Denotes ConnectionTracking.connectionId s.tables.entries i fd := by
  have hi : i < s.clients.clientCount := by
    rw [← hw.fds_length]
    exact (List.getElem?_eq_some_iff.mp hclient).1
  have hfd : s.clients.clientFds[i]? = some fd := (hw.clients.list.getElem? hi).trans hclient
  rcases h with ⟨hlt, hsame⟩ | ⟨hle, habsent⟩
  · left
    rw [← hw.keepAlive.list.getElem? hlt, hsame, hfd]
  · right
    refine ⟨by rw [hw.entries_length]; exact hle, ?_⟩
    intro entry hentry he
    obtain ⟨j, hget⟩ := List.mem_iff_getElem?.mp hentry
    have hj : j < s.keepAlive.connActiveCount := by
      rw [← hw.entries_length]
      exact (List.getElem?_eq_some_iff.mp hget).1
    apply habsent j hj
    rw [hw.keepAlive.list.getElem? hj, hget, hfd, ← he]
    rfl

/-- A step on track keeps the table in agreement with the history. -/
theorem agrees_step {socketFd : Int} {s t : State} {a : Act} {os os' : List Event}
    (hw : s.WellFormed) (ht : Tidy s.tables) (h : Agrees os s.tables) (hcond : OnTrack s a)
    (hstep : step socketFd s a = some (t, os')) :
    t.WellFormed ∧ Tidy t.tables ∧ Agrees (os ++ os') t.tables := by
  obtain ⟨hwt, hmove⟩ := step_moves hw hstep
  refine ⟨hwt, ?_⟩
  have hpcs : s.tables.pc = s.pc := rfl
  generalize t.tables = v at hmove ⊢
  cases hmove with
  | @select readfds at_ =>
    have hsettled : s.tables.settled = s.tables.entries := by rw [Tables.settled, at_]
    by_cases hnone : readfds = []
    · rw [if_pos hnone]
      exact ⟨ht.idle (List.Sublist.refl _) rfl rfl,
      h.keep (fun _ _ => rfl) hsettled.symm⟩
    · rw [if_neg hnone]
      exact ⟨ht.idle (List.Sublist.refl _) rfl rfl,
      h.keep (fun _ _ => rfl) hsettled.symm⟩
  | selectFailed at_ => exact ⟨ht,
      h.keep (fun _ _ => rfl) rfl⟩
  | @accept others clientFd now readfds at_ hfree =>
    have hsettled : s.tables.settled = s.tables.entries := by rw [Tables.settled, at_]
    have hnew : clientFd ∉ connectionIds s.tables.entries :=
      fun hmem => hfree.2.1 (List.mem_append_right _ (ht.isOpen _ hmem))
    exact ⟨ht.accept hfree hcond, h.accept hsettled hnew⟩
  | @reject others clientFd now readfds at_ hfree =>
    have hsettled : s.tables.settled = s.tables.entries := by rw [Tables.settled, at_]
    have hnew : clientFd ∉ connectionIds s.tables.entries :=
      fun hmem => hfree.2.1 (List.mem_append_right _ (ht.isOpen _ hmem))
    exact ⟨ht.idle (List.Sublist.refl _) rfl rfl, h.reject hsettled hnew⟩
  | acceptFailed at_ =>
    have hsettled : s.tables.settled = s.tables.entries := by rw [Tables.settled, at_]
    exact ⟨ht.idle (List.Sublist.refl _) rfl rfl,
      h.keep (fun _ _ => rfl) hsettled.symm⟩
  | noConnection at_ =>
    have hsettled : s.tables.settled = s.tables.entries := by rw [Tables.settled, at_]
    exact ⟨ht.idle (List.Sublist.refl _) rfl rfl,
      h.keep (fun _ _ => rfl) hsettled.symm⟩
  | @track clientFd readfds since now at_ =>
    -- the section asks for the time in the second of the accept
    obtain rfl : since = now := by
      have hsince : s.pc.since = some since := by rw [← hpcs, at_]; rfl
      exact Option.some.inj (hsince.symm.trans hcond)
    have hsettled : s.tables.settled = s.tables.entries ++ [⟨clientFd, since, 1⟩] := by
      rw [Tables.settled, at_]
    exact ⟨ht.track at_,
      h.keep (fun _ _ => rfl) hsettled.symm⟩
  | skip at_ =>
    have hsettled : s.tables.settled = s.tables.entries := by rw [Tables.settled, at_]
    exact ⟨ht.idle (List.Sublist.refl _) rfl rfl,
      h.keep (fun _ _ => rfl) hsettled.symm⟩
  | done at_ =>
    have hsettled : s.tables.settled = s.tables.entries := by rw [Tables.settled, at_]
    exact ⟨ht.idle (List.Sublist.refl _) rfl rfl,
      h.keep (fun _ _ => rfl) hsettled.symm⟩
  | data at_ hclient =>
    have hsettled : s.tables.settled = s.tables.entries := by rw [Tables.settled, at_]
    refine ⟨ht.fewer (List.Sublist.refl _) rfl (fun _ hs => Option.some.inj hs ▸ hcond)
      (fun _ _ _ hpc => nomatch hpc), h.data hsettled hclient ?_⟩
    intro fd last
    rfl
  | lose at_ hclient =>
    have hsettled : s.tables.settled = s.tables.entries := by rw [Tables.settled, at_]
    exact ⟨ht.idle (List.Sublist.refl _) rfl rfl, h.lose hsettled hclient⟩
  | @touch i readfds since fd now at_ hclient =>
    obtain ⟨htime, hdenotes⟩ := hcond
    obtain rfl : since = now := by
      have hsince : s.pc.since = some since := by rw [← hpcs, at_]; rfl
      exact Option.some.inj (hsince.symm.trans htime)
    have hpending : i ∈ s.pc.pending := by
      rw [← hpcs, at_]
      rfl
    have hkeyed := Keyed.modify_eq_map ht.nodup
      (denotes_of_pending hw hclient (hdenotes i hpending))
      fun entry => { entry with lastActive := since }
    have hsettled : s.tables.settled =
        s.tables.entries.modify i fun entry => { entry with lastActive := since } := by
      rw [hkeyed, Tables.settled, at_]
      simp only [hclient]
      apply List.map_congr_left
      intro entry _
      simp [hearing]
    exact ⟨ht.touch (ht.since since (by rw [at_]; rfl)),
      h.keep (fun _ _ => rfl) hsettled.symm⟩
  | @remove i readfds fd at_ hclient =>
    have hpending : i ∈ s.pc.pending := by
      rw [← hpcs, at_]
      rfl
    have hkeyed := Keyed.eraseIdx_eq_filter ht.nodup
      (denotes_of_pending hw hclient (hcond i hpending))
    have hsettled : s.tables.settled = s.tables.entries.eraseIdx i := by
      rw [hkeyed, Tables.settled, at_]
      simp only [hclient]
      apply List.filter_congr
      intro entry _
      simp
    exact ⟨ht.idle (List.eraseIdx_sublist ..) rfl rfl,
      h.keep (fun _ _ => rfl) hsettled.symm⟩
  | shift at_ =>
    have hsettled : s.tables.settled = s.tables.entries := by rw [Tables.settled, at_]
    exact ⟨ht.idle (List.Sublist.refl _) rfl rfl,
      h.keep (fun _ _ => rfl) hsettled.symm⟩
  | initKeepAlive =>
    -- the entry is past the table
    have hsame : (s.tables.entries.modify s.tables.cleared fun entry =>
        { entry with active := 0 }) = s.tables.entries := by
      apply List.modify_eq_self
      rw [hw.entries_length]
      exact hcond
    rw [hsame]
    exact ⟨ht.fewer (List.Sublist.refl _) rfl ht.since ht.fresh,
      h.keep (fun _ _ => rfl) rfl⟩
  | @sweep now =>
    refine ⟨ht.fewer (survivors_sublist ..) rfl ht.since ht.fresh, h.sweep ht now ?_⟩
    intro e he
    obtain ⟨id, _, hid⟩ := List.mem_map.mp he
    exact ⟨_, hid.symm⟩

theorem tidy_start : Tidy start.tables where
  nodup := List.nodup_nil
  isOpen := fun _ hfd => absurd hfd List.not_mem_nil
  active := fun _ hentry => absurd hentry List.not_mem_nil
  since := fun _ hsince => nomatch hsince
  fresh := fun _ _ _ hpc => Pc.noConfusion hpc

theorem agrees_start : Agrees [] start.tables := by
  intro fd last
  constructor
  · intro hnone
    cases hnone
  · intro ⟨entry, hentry, _⟩
    exact absurd hentry List.not_mem_nil

/-! ## A sweep -/

/-- The test of an entry, for a clock that is not before the epoch. -/
theorem timedOut_iff {now : Int64} {entry : ConnectionTracking} (hnow : 0 ≤ now)
    (hlast : 0 ≤ entry.lastActive) :
    TimedOut now entry ↔
      entry.active = 1 ∧ timeoutSeconds.toInt < now.toInt - entry.lastActive.toInt := by
  have hsub : (now - entry.lastActive).toInt = now.toInt - entry.lastActive.toInt := by
    have hn : (0 : Int) ≤ now.toInt := Int64.le_iff_toInt_le.mp hnow
    have hl : (0 : Int) ≤ entry.lastActive.toInt := Int64.le_iff_toInt_le.mp hlast
    have hn' := now.toInt_lt
    have hl' := entry.lastActive.toInt_lt
    rw [Int64.toInt_sub]
    exact Int.bmod_eq_of_le (by omega) (by omega)
  rw [TimedOut, Int64.lt_iff_toInt_lt, hsub]

section

variable {s : State} {now : Nat → Int64} {n : Nat} {entry : ConnectionTracking}

/-- The condition on the `n`-th test, read on the lists. -/
theorem inTime_of_onTrack (hw : s.WellFormed) (hcond : OnTrack s (.sweep now))
    (hget : s.tables.entries[n]? = some entry) :
    n < s.keepAlive.connActiveCount ∧ s.keepAlive.connections[n]? = some entry ∧ 0 ≤ now n ∧
      s.InTime now n := by
  have hn : n < s.keepAlive.connActiveCount := by
    rw [← hw.entries_length]
    exact (List.getElem?_eq_some_iff.mp hget).1
  exact ⟨hn, (hw.keepAlive.list.getElem? hn).trans hget, hcond n hn⟩

/-- The client whose section is pending, at its index in both tables. -/
theorem readClient?_eq (hw : s.WellFormed) {i : Nat} (hpending : s.pc.pending = some i)
    (hi : i < s.clients.clientCount) : s.readClient? = s.tables.fds[i]? := by
  rw [State.readClient?, hpending]
  exact hw.clients.list.getElem? hi

/-- The entry of a connection tells at its own test how long ago it was heard of. -/
theorem timedOut_iff_of_records (hw : s.WellFormed) (ht : Tidy s.tables)
    (hcond : OnTrack s (.sweep now)) {fd : Int} {last : Int64}
    (h : Records s.tables.settled fd last) :
    (∃ n entry, s.tables.entries[n]? = some entry ∧ entry.connectionId = fd ∧
      (TimedOut (now n) entry ↔ timeoutSeconds.toInt < (now n).toInt - last.toInt)) ∨
    ∃ readfds, s.pc = .accepted fd readfds last ∧ fd ∉ connectionIds s.tables.entries := by
  -- an entry no section waits for
  have hplain : Records s.tables.entries fd last → ∃ n entry,
      s.tables.entries[n]? = some entry ∧ entry.connectionId = fd ∧
        (TimedOut (now n) entry ↔ timeoutSeconds.toInt < (now n).toInt - last.toInt) := by
    rintro ⟨entry, hentry, hid, rfl⟩
    obtain ⟨n, hget⟩ := List.mem_iff_getElem?.mp hentry
    obtain ⟨_, _, hnow, _⟩ := inTime_of_onTrack hw hcond hget
    obtain ⟨hactive, hlast⟩ := ht.active entry hentry
    refine ⟨n, entry, hget, hid, ?_⟩
    rw [timedOut_iff hnow hlast, and_iff_right hactive]
  have hpcs : s.tables.pc = s.pc := rfl
  unfold Tables.settled at h
  cases hpc : s.pc with
  | accepted clientFd readfds since =>
    rw [hpcs, hpc] at h
    rcases records_append.mp h with h | ⟨rfl, rfl⟩
    · exact Or.inl (hplain h)
    · exact Or.inr ⟨readfds, rfl, (ht.fresh clientFd readfds since hpc).2⟩
  | touching i readfds since =>
    rw [hpcs, hpc] at h
    obtain ⟨entry, hentry, hid, hlast⟩ := records_hearing.mp h
    by_cases hclient : some fd = s.tables.fds[i]?
    · rw [if_pos hclient] at hlast
      obtain ⟨n, hget⟩ := List.mem_iff_getElem?.mp hentry
      obtain ⟨_, hcell, _, htime, hwaits⟩ := inTime_of_onTrack hw hcond hget
      have hshape := hw.shape
      rw [hpc] at hshape
      have hread : s.readClient? = some entry.connectionId := by
        rw [readClient?_eq hw (by rw [hpc]; rfl) hshape.1, hid, hclient]
      have hsince := htime since (by rw [hpc]; rfl)
      refine Or.inl ⟨n, entry, hget, hid, iff_of_false (hwaits entry hcell hread) ?_⟩
      rw [← hlast]
      omega
    · rw [if_neg hclient] at hlast
      exact Or.inl (hplain ⟨entry, hentry, hid, hlast⟩)
  | removing i readfds =>
    rw [hpcs, hpc] at h
    exact Or.inl (hplain (records_filter.mp h).2)
  | _ =>
    rw [hpcs, hpc] at h
    exact Or.inl (hplain h)

/-- An entry that has timed out is that of a connection that was heard of. -/
theorem records_of_timedOut (hw : s.WellFormed) (hcond : OnTrack s (.sweep now))
    (hget : s.tables.entries[n]? = some entry) (htimed : TimedOut (now n) entry) :
    ∃ last, Records s.tables.settled entry.connectionId last := by
  have hentry := List.mem_of_getElem? hget
  obtain ⟨_, hcell, _, _, hwaits⟩ := inTime_of_onTrack hw hcond hget
  have hpcs : s.tables.pc = s.pc := rfl
  have hshape := hw.shape
  unfold Tables.settled
  cases hpc : s.pc with
  | accepted clientFd readfds since =>
    rw [hpcs, hpc]
    exact ⟨_, records_append.mpr (Or.inl ⟨entry, hentry, rfl, rfl⟩)⟩
  | touching i readfds since =>
    rw [hpcs, hpc]
    exact ⟨_, records_hearing.mpr ⟨entry, hentry, rfl, rfl⟩⟩
  | removing i readfds =>
    rw [hpc] at hshape
    have hread := readClient?_eq hw (by rw [hpc]; rfl) hshape.1
    have hne : some entry.connectionId ≠ s.tables.fds[i]? :=
      fun he => hwaits entry hcell (hread.trans he.symm) htimed
    rw [hpcs, hpc]
    exact ⟨_, records_filter.mpr ⟨hne, entry, hentry, rfl, rfl⟩⟩
  | _ =>
    rw [hpcs, hpc]
    exact ⟨_, entry, hentry, rfl, rfl⟩

end

/-- Two sensors, one of which sends a record while the other is silent. -/
def oneTalks : List Act :=
  clearing ++ [.select [3], .accept [0, 1, 2] 4 100, .track 100, .next, .next,
    .select [3], .accept [0, 1, 2] 5 101, .track 101, .next, .next, .next, .select [4],
    .noConnection, .read (some (List.replicate 16 0)) (List.replicate 16 0) 0 110,
    .touch 110, .next, .next]

/-- Two sensors; the first is silent and is timed out, then the second sends a record. -/
def secondTalks : List Act :=
  clearing ++ [.select [3], .accept [0, 1, 2] 4 100, .track 100, .next, .next,
    .select [3], .accept [0, 1, 2] 5 112, .track 112, .next, .next, .next,
    .sweep fun _ => 117, .select [5], .noConnection, .next,
    .read (some (List.replicate 16 0)) (List.replicate 16 0) 0 120, .touch 120, .next]

end ConnectionManager
end Gateway
end LinuxEmbedded
