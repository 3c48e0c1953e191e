import LinuxEmbedded.Gateway.Common
import LinuxEmbedded.Lib.ArrayList

/-
The two connection tables of the gateway.

`keep_alive.c` keeps `connections[0..conn_active_count)`, shared under
`conn_mutex`.  `connection_manager.c` keeps the descriptors of the same clients in
`client_fds[0..client_count)`, local to its thread.  The functions below are the
pieces of the source between two moments at which another thread may run; `none`
is an access outside an array.
-/
namespace LinuxEmbedded
namespace Gateway

/-- `connection_tracking_t`, without the two fields nothing reads. -/
structure ConnectionTracking where
  connectionId : Int
  lastActive : Int64
  active : Int
  deriving DecidableEq, Repr

/-- The globals `connections` and `conn_active_count`. -/
structure KeepAlive where
  connections : List ConnectionTracking
  connActiveCount : Nat
  deriving DecidableEq, Repr

/-- The locals `client_fds` and `client_count` of `connection_manager`. -/
structure Clients where
  clientFds : List Int
  clientCount : Nat
  deriving DecidableEq, Repr

def KeepAlive.start : KeepAlive where
  connections := List.replicate maxSensors ⟨0, 0, 0⟩
  connActiveCount := 0

/-- `int client_fds[MAX_SENSORS] = {-1}` sets the first element only. -/
def Clients.start : Clients where
  clientFds := -1 :: List.replicate (maxSensors - 1) 0
  clientCount := 0

/-- `client_fds[(*client_count)++] = client_fd`. -/
def registerClient (c : Clients) (clientFd : Int) : Option Clients := do
  let clientFds ← cStore c.clientFds c.clientCount clientFd
  some { clientFds, clientCount := c.clientCount + 1 }

/-- The mutex section of `handle_new_connection`. -/
def trackConnection (k : KeepAlive) (clientFd : Int) (now : Int64) : Option KeepAlive := do
  let connections ← cStore k.connections k.connActiveCount ⟨clientFd, now, 1⟩
  some { connections, connActiveCount := k.connActiveCount + 1 }

/-- `connections[i].last_active = time(NULL)`. -/
def touchConnection (k : KeepAlive) (i : Nat) (now : Int64) : Option KeepAlive := do
  let entry ← k.connections[i]?
  let connections ← cStore k.connections i { entry with lastActive := now }
  some { k with connections }

def removeConnection (k : KeepAlive) (index : Nat) : Option KeepAlive :=
  if k.connActiveCount ≤ index then some k
  else if k.connActiveCount = 0 then some k
  else do
    let connections ← ArrayList.shiftDown k.connections index (k.connActiveCount - 1 - index)
    some { connections, connActiveCount := k.connActiveCount - 1 }

def shiftClients (c : Clients) (index : Nat) : Option Clients := do
  let clientFds ← cStore c.clientFds index (-1)
  let clientFds ← ArrayList.shiftDown clientFds index (c.clientCount - 1 - index)
  some { clientFds, clientCount := c.clientCount - 1 }

/-- `connections[i].active = 0`, one turn of the loop of `init_keep_alive`. -/
def clearActive (k : KeepAlive) (i : Nat) : Option KeepAlive := do
  let entry ← k.connections[i]?
  let connections ← cStore k.connections i { entry with active := 0 }
  some { k with connections }

/-- The test of `run_keep_alive`, a subtraction of two `time_t`. -/
def TimedOut (now : Int64) (entry : ConnectionTracking) : Prop :=
  entry.active = 1 ∧ timeoutSeconds < now - entry.lastActive

instance (now : Int64) (entry : ConnectionTracking) : Decidable (TimedOut now entry) :=
  inferInstanceAs (Decidable (_ ∧ _))

/-- The loop of `run_keep_alive` from index `i` under `conn_mutex`, and the
connections it reports.  The clock may move between two tests: `now n` is the
value `time(NULL)` returns for the `n`-th of them.  The first argument bounds the
number of tests. -/
def sweepLoop (now : Nat → Int64) : Nat → Nat → Nat → KeepAlive → Option (KeepAlive × List Int)
  | 0, _, i, k => if i < k.connActiveCount then none else some (k, [])
  | fuel + 1, n, i, k =>
    if i < k.connActiveCount then do
      let entry ← k.connections[i]?
      if TimedOut (now n) entry then
        let connections ← cStore k.connections i { entry with active := 0 }
        let k ← removeConnection { k with connections } i
        let (k, reported) ← sweepLoop now fuel (n + 1) i k
        some (k, entry.connectionId :: reported)
      else sweepLoop now fuel (n + 1) (i + 1) k
    else some (k, [])

/-- One locked sweep of `run_keep_alive`. -/
def sweep (now : Nat → Int64) (k : KeepAlive) : Option (KeepAlive × List Int) :=
  sweepLoop now k.connActiveCount 0 0 k

def timeoutMessage {T : Type} (connectionId : Int) : Message T :=
  logEvent "Sensor node with %d has disconnected (keep-alive timeout)" [.int connectionId]

/-! ## The lists in the tables -/

/-- The table is well formed and holds `l`. -/
structure KeepAlive.Holds (k : KeepAlive) (l : List ConnectionTracking) : Prop where
  length_eq : k.connections.length = maxSensors
  list : ArrayList.Holds k.connections k.connActiveCount l

structure Clients.Holds (c : Clients) (l : List Int) : Prop where
  length_eq : c.clientFds.length = maxSensors
  list : ArrayList.Holds c.clientFds c.clientCount l

theorem KeepAlive.holds_start : KeepAlive.start.Holds [] :=
  ⟨List.length_replicate, ArrayList.holds_zero _⟩

theorem Clients.holds_start : Clients.start.Holds [] := ⟨rfl, ArrayList.holds_zero _⟩

theorem Clients.Holds.clientCount_le {c : Clients} {l : List Int} (h : c.Holds l) :
    c.clientCount ≤ maxSensors :=
  h.length_eq ▸ h.list.count_le

theorem registerClient_holds {c : Clients} {l : List Int} (h : c.Holds l)
    (hroom : c.clientCount < maxSensors) (clientFd : Int) :
    ∃ c', registerClient c clientFd = some c' ∧ c'.Holds (l ++ [clientFd]) := by
  have hlt : c.clientCount < c.clientFds.length := h.length_eq ▸ hroom
  refine ⟨⟨c.clientFds.set c.clientCount clientFd, c.clientCount + 1⟩, ?_, ?_,
    h.list.append hlt clientFd⟩
  · rw [registerClient, cStore_of_lt hlt]
    rfl
  · exact (List.length_set ..).trans h.length_eq

theorem trackConnection_holds {k : KeepAlive} {l : List ConnectionTracking} (h : k.Holds l)
    (hroom : k.connActiveCount < maxSensors) (clientFd : Int) (now : Int64) :
    ∃ k', trackConnection k clientFd now = some k' ∧ k'.Holds (l ++ [⟨clientFd, now, 1⟩]) := by
  have hlt : k.connActiveCount < k.connections.length := h.length_eq ▸ hroom
  refine ⟨⟨k.connections.set k.connActiveCount ⟨clientFd, now, 1⟩, k.connActiveCount + 1⟩,
    ?_, ?_, h.list.append hlt _⟩
  · rw [trackConnection, cStore_of_lt hlt]
    rfl
  · exact (List.length_set ..).trans h.length_eq

/-- A write into one entry is seen only below the count. -/
theorem KeepAlive.Holds.modify {k : KeepAlive} {l : List ConnectionTracking} (h : k.Holds l)
    {i : Nat} (hi : i < maxSensors) (f : ConnectionTracking → ConnectionTracking) :
    ∃ entry, k.connections[i]? = some entry ∧
      cStore k.connections i (f entry) = some (k.connections.set i (f entry)) ∧
      KeepAlive.Holds { k with connections := k.connections.set i (f entry) } (l.modify i f) := by
  have hlt : i < k.connections.length := h.length_eq ▸ hi
  refine ⟨k.connections[i], List.getElem?_eq_getElem hlt, cStore_of_lt hlt _,
    (List.length_set ..).trans h.length_eq, ?_⟩
  by_cases hc : i < k.connActiveCount
  · have hget := h.list.getElem? hc
    have hil : i < l.length := h.list.length_eq ▸ hc
    rw [List.getElem?_eq_getElem hlt, List.getElem?_eq_getElem hil] at hget
    rw [List.modify_eq_set_get _ hil, List.get_eq_getElem, ← Option.some.inj hget]
    exact h.list.set i _
  · have hle : l.length ≤ i := by
      rw [h.list.length_eq]
      omega
    rw [List.modify_eq_self hle]
    exact h.list.set_garbage (by omega) _

theorem touchConnection_holds {k : KeepAlive} {l : List ConnectionTracking} (h : k.Holds l)
    {i : Nat} (hi : i < maxSensors) (now : Int64) :
    ∃ k', touchConnection k i now = some k' ∧
      k'.Holds (l.modify i fun entry => { entry with lastActive := now }) := by
  obtain ⟨entry, hget, hstore, hholds⟩ :=
    h.modify hi fun entry => { entry with lastActive := now }
  refine ⟨_, ?_, hholds⟩
  rw [touchConnection, hget]
  show (cStore k.connections i _).bind _ = _
  rw [hstore]
  rfl

theorem clearActive_holds {k : KeepAlive} {l : List ConnectionTracking} (h : k.Holds l)
    {i : Nat} (hi : i < maxSensors) :
    ∃ k', clearActive k i = some k' ∧
      k'.Holds (l.modify i fun entry => { entry with active := 0 }) := by
  obtain ⟨entry, hget, hstore, hholds⟩ := h.modify hi fun entry => { entry with active := 0 }
  refine ⟨_, ?_, hholds⟩
  rw [clearActive, hget]
  show (cStore k.connections i _).bind _ = _
  rw [hstore]
  rfl

theorem removeConnection_holds {k : KeepAlive} {l : List ConnectionTracking} (h : k.Holds l)
    (index : Nat) :
    ∃ k', removeConnection k index = some k' ∧ k'.Holds (l.eraseIdx index) := by
  by_cases hi : k.connActiveCount ≤ index
  · refine ⟨k, if_pos hi, ?_⟩
    rw [List.eraseIdx_of_length_le (h.list.length_eq ▸ hi)]
    exact h
  · obtain ⟨cells, hshift, hlen, hholds⟩ := h.list.shiftDown (show index < _ by omega)
    refine ⟨⟨cells, k.connActiveCount - 1⟩, ?_, hlen.trans h.length_eq, hholds⟩
    rw [removeConnection, if_neg hi, if_neg (by omega), hshift]
    rfl

theorem shiftClients_holds {c : Clients} {l : List Int} (h : c.Holds l) {index : Nat}
    (hi : index < c.clientCount) :
    ∃ c', shiftClients c index = some c' ∧ c'.Holds (l.eraseIdx index) := by
  have hle := h.list.count_le
  have hlt : index < c.clientFds.length := by omega
  obtain ⟨cells, hshift, hlen, hholds⟩ := (h.list.set index (-1)).shiftDown hi
  refine ⟨⟨cells, c.clientCount - 1⟩, ?_, ?_, ?_⟩
  · rw [shiftClients, cStore_of_lt hlt]
    show (ArrayList.shiftDown _ _ _).bind _ = _
    rw [hshift]
    rfl
  · rw [hlen, List.length_set]
    exact h.length_eq
  · rw [List.eraseIdx_set_eq] at hholds
    exact hholds

/-! ## A sweep

The test of the `n`-th entry uses the `n`-th reading of the clock, whether or not
entries before it were removed. -/

def survivors (now : Nat → Int64) (n : Nat) (l : List ConnectionTracking) :
    List ConnectionTracking :=
  ((l.zipIdx n).filter fun p => ¬TimedOut (now p.2) p.1).map Prod.fst

def expired (now : Nat → Int64) (n : Nat) (l : List ConnectionTracking) :
    List ConnectionTracking :=
  ((l.zipIdx n).filter fun p => TimedOut (now p.2) p.1).map Prod.fst

theorem sweepLoop_holds {now : Nat → Int64} {l : List ConnectionTracking} :
    ∀ {fuel n : Nat} {k : KeepAlive} {front : List ConnectionTracking},
      k.Holds (front ++ l) → l.length ≤ fuel →
      ∃ k', sweepLoop now fuel n front.length k =
          some (k', (expired now n l).map ConnectionTracking.connectionId) ∧
        k'.Holds (front ++ survivors now n l) := by
  induction l with
  | nil =>
    intro fuel n k front h _
    have hcount : ¬front.length < k.connActiveCount := by
      rw [← h.list.length_eq]
      simp
    refine ⟨k, ?_, h⟩
    cases fuel <;> rw [sweepLoop, if_neg hcount] <;> rfl
  | cons entry l ih =>
    intro fuel n k front h hfuel
    obtain ⟨fuel, rfl⟩ : ∃ m, fuel = m + 1 := ⟨fuel - 1, by simp at hfuel; omega⟩
    have hle : l.length ≤ fuel := by simpa using hfuel
    have hcount : front.length < k.connActiveCount := by
      rw [← h.list.length_eq]
      simp
    have hget : k.connections[front.length]? = some entry := by
      rw [h.list.getElem? hcount]
      simp
    rw [sweepLoop, if_pos hcount, hget]
    by_cases ht : TimedOut (now n) entry
    · have hlt : front.length < k.connections.length :=
        Nat.lt_of_lt_of_le hcount h.list.count_le
      have hcleared : KeepAlive.Holds
          { k with connections := k.connections.set front.length { entry with active := 0 } }
          ((front ++ entry :: l).set front.length { entry with active := 0 }) :=
        ⟨(List.length_set ..).trans h.length_eq, h.list.set _ _⟩
      obtain ⟨k₁, hremove, hk₁⟩ := removeConnection_holds hcleared front.length
      have herase : (front ++ entry :: l).eraseIdx front.length = front ++ l := by
        rw [List.eraseIdx_append_of_length_le (Nat.le_refl _), Nat.sub_self]
        rfl
      rw [List.eraseIdx_set_eq, herase] at hk₁
      obtain ⟨k', hloop, hk'⟩ := ih (n := n + 1) hk₁ hle
      refine ⟨k', ?_, ?_⟩
      · simp [ht, cStore_of_lt hlt, hremove, hloop, expired]
      · simpa [survivors, ht] using hk'
    · have hfront : k.Holds ((front ++ [entry]) ++ l) := by simpa using h
      obtain ⟨k', hloop, hk'⟩ := ih (n := n + 1) hfront hle
      rw [List.length_append, List.length_singleton] at hloop
      refine ⟨k', ?_, ?_⟩
      · simp [ht, hloop, expired]
      · simpa [survivors, ht] using hk'

/-- A sweep removes the entries that timed out and reports them, in order. -/
theorem sweep_holds {k : KeepAlive} {l : List ConnectionTracking} (h : k.Holds l)
    (now : Nat → Int64) :
    ∃ k', sweep now k = some (k', (expired now 0 l).map ConnectionTracking.connectionId) ∧
      k'.Holds (survivors now 0 l) :=
  @sweepLoop_holds now l _ 0 k [] h (Nat.le_of_eq h.list.length_eq)

/-! ## A sweep within one second

Every test reads the same clock. -/

theorem survivors_const (now : Int64) (n : Nat) (l : List ConnectionTracking) :
    survivors (fun _ => now) n l = l.filter fun entry => ¬TimedOut now entry := by
  induction l generalizing n with
  | nil => rfl
  | cons entry l ih =>
    have hrest := ih (n + 1)
    unfold survivors at hrest ⊢
    by_cases ht : TimedOut now entry
    · rw [List.zipIdx_cons, List.filter_cons_of_neg (by simpa using ht),
        List.filter_cons_of_neg (by simpa using ht), hrest]
    · rw [List.zipIdx_cons, List.filter_cons_of_pos (by simpa using ht),
        List.filter_cons_of_pos (by simpa using ht), List.map_cons, hrest]

theorem expired_const (now : Int64) (n : Nat) (l : List ConnectionTracking) :
    expired (fun _ => now) n l = l.filter fun entry => TimedOut now entry := by
  induction l generalizing n with
  | nil => rfl
  | cons entry l ih =>
    have hrest := ih (n + 1)
    unfold expired at hrest ⊢
    by_cases ht : TimedOut now entry
    · rw [List.zipIdx_cons, List.filter_cons_of_pos (by simpa using ht),
        List.filter_cons_of_pos (by simpa using ht), List.map_cons, hrest]
    · rw [List.zipIdx_cons, List.filter_cons_of_neg (by simpa using ht),
        List.filter_cons_of_neg (by simpa using ht), hrest]

/-- The sweep ends after at most `conn_active_count` tests.  The entries that have not timed
out are left in their order, and each of the others is reported once. -/
theorem sweep_filters {k : KeepAlive} (hlength : k.connections.length = maxSensors)
    (hcount : k.connActiveCount ≤ maxSensors) (now : Int64) {fuel : Nat}
    (hfuel : k.connActiveCount ≤ fuel) :
    ∃ k', sweepLoop (fun _ => now) fuel 0 0 k = some (k',
        ((k.connections.take k.connActiveCount).filter fun entry => TimedOut now entry).map
          ConnectionTracking.connectionId) ∧
      k'.connections.length = maxSensors ∧
      k'.connections.take k'.connActiveCount =
        (k.connections.take k.connActiveCount).filter (fun entry => ¬TimedOut now entry) ∧
      k'.connActiveCount =
        ((k.connections.take k.connActiveCount).filter
          fun entry => ¬TimedOut now entry).length := by
  have hholds : k.Holds (k.connections.take k.connActiveCount) :=
    ⟨hlength, by rw [hlength]; exact hcount, rfl⟩
  have hle : (k.connections.take k.connActiveCount).length ≤ fuel := by
    rw [hholds.list.length_eq]
    exact hfuel
  obtain ⟨k', hloop, hk'⟩ :=
    @sweepLoop_holds (fun _ => now) (k.connections.take k.connActiveCount) fuel 0 k [] hholds hle
  rw [expired_const] at hloop
  rw [List.nil_append, survivors_const] at hk'
  exact ⟨k', hloop, hk'.length_eq, hk'.list.take_eq, hk'.list.length_eq.symm⟩

/-- Two expired entries next to each other, and an expired one at the end. -/
def someExpired : KeepAlive where
  connections := [⟨4, 100, 1⟩, ⟨5, 85, 1⟩, ⟨6, 85, 1⟩, ⟨7, 100, 1⟩, ⟨8, 85, 1⟩] ++
    List.replicate (maxSensors - 5) ⟨8, 0, 1⟩
  connActiveCount := 5

theorem sweep_filters_someExpired :
    ∃ k', sweepLoop (fun _ => 101) 5 0 0 someExpired = some (k', [5, 6, 8]) ∧
      k'.connections.length = maxSensors ∧
      k'.connections.take k'.connActiveCount = [⟨4, 100, 1⟩, ⟨7, 100, 1⟩] ∧
      k'.connActiveCount = 2 :=
  @sweep_filters someExpired rfl (by decide) 101 5 (Nat.le_refl 5)

end Gateway
end LinuxEmbedded
