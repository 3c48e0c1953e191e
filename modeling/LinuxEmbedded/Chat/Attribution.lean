import LinuxEmbedded.Chat.UiRun

/-
Whose message is it?

A message is shown with the address that is in the slot at the print and the port that was
copied at the lookup.  They are those of the connection it arrived on when the first entry
with the descriptor number is the one of that connection, and when nothing writes the slot
in between.
-/
namespace LinuxEmbedded
namespace Chat
namespace Attribution

open UiRun
open Threads (Entry)

/-- The address and the port are those of the connection the message arrived on, if that was
in the table at the lookup. -/
def Attributed : Event → Prop
  | .shown _ _ own shown =>
    ∀ info ∈ own, shown.peerIp = info.ipAddr ∧ shown.listeningPort = info.listeningPort
  | _ => True

/-! ## Who writes a slot -/

/-- The entry a shift from index `i` moves into the slot. -/
def shifted (t : ClientTable) (i slot : Nat) : Option ClientInfo :=
  if i ≤ slot ∧ slot + 1 < t.clientCount then t.clients[slot + 1]? else none

/-- The entry the section writes into the slot. -/
def written (s : State) (slot : Nat) : Act → Option ClientInfo
  | .thread (.enter side ipAddr listeningPort) =>
    match (s.threads.busy side).map s.threads.place with
    | some (.handshake fd) =>
      if s.table.clientCount < maxClients ∧ slot = s.table.clientCount then
        some ⟨fd, ipAddr, listeningPort⟩
      else none
    | _ => none
  | .thread (.terminate id) =>
    if id < 1 ∨ (s.table.clientCount : Int) < id then none
    else shifted s.table (id - 1).toNat slot
  | .thread (.chat conn _) =>
    match s.threads.place conn with
    | .leaving fd =>
      match findClient s.table fd with
      | some (some i) => shifted s.table i slot
      | _ => none
    | _ => none
  | _ => none

/-- What the thread is about to print from. -/
def found? (s : State) (conn : Nat) : Option Found :=
  match s.ui conn with
  | .printing _ found _ => some found
  | _ => none

/-- No slot that a thread is about to print from is written with another address. -/
def KeepsSlots (s : State) (a : Act) : Prop :=
  ∀ conn, ∀ found ∈ found? s conn, ∀ own ∈ found.own, ∀ info ∈ written s found.slot a,
    info.ipAddr = own.ipAddr

/-- The first entry with the descriptor number of the thread has the address and port of the
entry of the connection that the message arrived on. -/
def FindsOwn (s : State) : Act → Prop
  | .lookup conn =>
    ∀ fd file buffer, s.threads.place conn = .reading fd → s.ui conn = .lookup file buffer →
      buffer ≠ terminateMsg → ∀ own ∈ s.entry? file, ∀ peer ∈ peerInfo s.infos fd,
        peer.ipAddr = own.ipAddr ∧ peer.listeningPort = own.listeningPort
  | _ => True

def ShowsOwn (s : State) (a : Act) : Prop := KeepsSlots s a ∧ FindsOwn s a

/-- Every message that was printed, and every one a thread may print next, shows the address and
port of its connection. -/
def Attributes (os : List Event) (s : State) : Prop :=
  (∀ e ∈ os, Attributed e) ∧
    ∀ conn t os', step s (.print conn) = some (t, os') → ∀ e ∈ os', Attributed e

/-- Pointer and copy show the address and port of the connection. -/
def Right (found : Found) (t : ClientTable) : Prop :=
  ∀ own ∈ found.own, found.listeningPort = own.listeningPort ∧
    t.clients[found.slot]?.map ClientInfo.ipAddr = some own.ipAddr

def AllRight (os : List Event) (s : State) : Prop :=
  (∀ e ∈ os, Attributed e) ∧ ∀ conn, ∀ found ∈ found? s conn, Right found s.table

/-! ## One step -/

variable {s t : State} {os : List Event}

theorem shifted_or {u : ClientTable} {l : List ClientInfo} (h : u.Holds l) {i : Nat}
    (hi : i < u.clientCount) {u' : ClientTable} (hshift : shiftLeft u i = some u') (slot : Nat) :
    u'.clients[slot]? = (shifted u i slot).or u.clients[slot]? := by
  rw [h.shiftLeft_cells hi hshift, shifted]
  by_cases hmove : i ≤ slot ∧ slot + 1 < u.clientCount
  · have hlt : slot + 1 < u.clients.length := Nat.lt_of_lt_of_le hmove.2 h.list.count_le
    rw [if_pos hmove, if_pos hmove, List.getElem?_eq_getElem hlt]
    rfl
  · rw [if_neg hmove, if_neg hmove]
    rfl

theorem append_cells {u u' : ClientTable} {l : List ClientInfo} (h : u.Holds l)
    {info : ClientInfo} (hadd : addClient u info = some u') (slot : Nat) :
    u'.clients[slot]? =
      (if u.clientCount < maxClients ∧ slot = u.clientCount then some info else none).or
        u.clients[slot]? := by
  unfold addClient at hadd
  by_cases hroom : u.clientCount < maxClients
  · have hlt : u.clientCount < u.clients.length := h.length_eq ▸ hroom
    rw [if_pos hroom, ArrayList.store_of_lt hlt] at hadd
    obtain rfl := Option.some.inj hadd
    by_cases hslot : slot = u.clientCount
    · rw [if_pos ⟨hroom, hslot⟩, hslot]
      exact List.getElem?_set_self hlt
    · rw [if_neg fun hand => hslot hand.2]
      exact List.getElem?_set_ne fun heq => hslot heq.symm
  · rw [if_neg hroom] at hadd
    obtain rfl := Option.some.inj hadd
    rw [if_neg fun hand => hroom hand.1]
    rfl

theorem terminate_cells {u u' : ClientTable} {l : List ClientInfo} (h : u.Holds l) {id : Int}
    (hterminate : (terminateId u id).map Prod.snd = some u') (slot : Nat) :
    u'.clients[slot]? =
      (if id < 1 ∨ (u.clientCount : Int) < id then none
        else shifted u (id - 1).toNat slot).or u.clients[slot]? := by
  obtain ⟨q, hq, htable⟩ := Option.map_eq_some_iff.mp hterminate
  rw [← htable]
  unfold terminateId at hq
  by_cases hid : id < 1 ∨ (u.clientCount : Int) < id
  · rw [if_pos hid] at hq
    obtain rfl := Option.some.inj hq
    rw [if_pos hid]
    rfl
  · rw [if_neg hid] at hq
    obtain ⟨info, _, hq⟩ := Option.bind_eq_some_iff.mp hq
    obtain ⟨table, hshift, hq⟩ := Option.bind_eq_some_iff.mp hq
    obtain rfl := Option.some.inj hq
    rw [if_neg hid]
    exact shifted_or h (by omega) hshift slot

theorem remove_cells {u u' : ClientTable} {l : List ClientInfo} (h : u.Holds l) {fd : Int}
    (hremove : removeFd u fd = some u') (slot : Nat) :
    u'.clients[slot]? =
      (match findClient u fd with
        | some (some i) => shifted u i slot
        | _ => none).or u.clients[slot]? := by
  have hfind := h.findClient fd
  rw [removeFd, hfind] at hremove
  rw [hfind]
  cases hidx : l.findIdx? fun info => info.socketFd == fd with
  | none =>
    rw [hidx] at hremove
    obtain rfl := Option.some.inj hremove
    rfl
  | some i =>
    rw [hidx] at hremove hfind
    exact shifted_or h (h.findClient_lt hfind) hremove slot

/-- After a section every slot has what was written into it, or what it had. -/
theorem section_cells (h : s.table.Holds s.infos) {a : Threads.Act} {table : ClientTable}
    (harray : arraySection s a = some table) (slot : Nat) :
    table.clients[slot]? = (written s slot (.thread a)).or s.table.clients[slot]? := by
  cases a with
  | make | create =>
    obtain rfl := Option.some.inj harray
    rfl
  | enter side ipAddr port =>
    cases hplace : (s.threads.busy side).map s.threads.place with
    | none =>
      simp only [arraySection, hplace] at harray
      obtain rfl := Option.some.inj harray
      simp [written, hplace]
    | some place =>
      cases place with
      | handshake fd =>
        simp only [arraySection, hplace] at harray
        simp only [written, hplace]
        exact append_cells h harray slot
      | _ =>
        simp only [arraySection, hplace] at harray
        obtain rfl := Option.some.inj harray
        simp [written, hplace]
  | chat conn message =>
    cases hplace : s.threads.place conn with
    | leaving fd =>
      simp only [arraySection, hplace] at harray
      simp only [written, hplace]
      exact remove_cells h harray slot
    | _ =>
      simp only [arraySection, hplace] at harray
      obtain rfl := Option.some.inj harray
      simp [written, hplace]
  | terminate id => exact terminate_cells h harray slot

/-- A thread's pointer is right after a section exactly when the section wrote nothing else
there. -/
theorem right_iff {found : Found} {u : ClientTable} (hright : Right found s.table) {a : Act}
    (hcell : u.clients[found.slot]? = (written s found.slot a).or s.table.clients[found.slot]?) :
    Right found u ↔ ∀ own ∈ found.own, ∀ info ∈ written s found.slot a,
      info.ipAddr = own.ipAddr := by
  refine forall₂_congr fun own hown => ?_
  obtain ⟨hport, haddr⟩ := hright own hown
  rw [hcell]
  cases hwritten : written s found.slot a with
  | none =>
    rw [Option.none_or]
    exact iff_of_true ⟨hport, haddr⟩ (by simp)
  | some info =>
    rw [Option.some_or]
    simp [hport]

/-- A step that moves no thread in `ui_run`. -/
theorem allRight_of_section {a : Act} {os' : List Event} (hright : AllRight os s)
    (hnew : ∀ e ∈ os', Attributed e) (hui : t.ui = s.ui)
    (hcells : ∀ slot, t.table.clients[slot]? = (written s slot a).or s.table.clients[slot]?) :
    KeepsSlots s a ↔ AllRight (os ++ os') t := by
  have hfound : ∀ conn, found? t conn = found? s conn := by
    intro conn
    unfold found?
    rw [hui]
  have hall : ∀ e ∈ os ++ os', Attributed e := by
    intro e he
    rcases List.mem_append.mp he with he | he
    · exact hright.1 e he
    · exact hnew e he
  have hiff : KeepsSlots s a ↔ ∀ conn, ∀ found ∈ found? s conn, Right found t.table :=
    forall_congr' fun conn => forall₂_congr fun found hmem =>
      (right_iff (hright.2 conn found hmem) (hcells found.slot)).symm
  rw [hiff, AllRight, and_iff_right hall]
  exact forall_congr' fun conn => by rw [hfound]

/-- A thread that moves outside the sections of the others, with what it found now. -/
theorem allRight_setUi {os' : List Event} {conn : Nat} (u : State) (hright : AllRight os s)
    (hnew : ∀ e ∈ os', Attributed e) (htable : u.table = s.table)
    (hother : ∀ x, x ≠ conn → u.ui x = s.ui x) :
    AllRight (os ++ os') u ↔ ∀ found ∈ found? u conn, Right found s.table := by
  rw [AllRight, htable]
  constructor
  · intro hall
    exact hall.2 conn
  · intro hfound
    refine ⟨fun e he => ?_, fun x found hmem => ?_⟩
    · rcases List.mem_append.mp he with he | he
      · exact hright.1 e he
      · exact hnew e he
    · by_cases hx : x = conn
      · rw [hx] at hmem
        exact hfound found hmem
      · rw [found?, hother x hx] at hmem
        exact hright.2 x found hmem

/-- A thread that has found nobody yet, or nobody any more. -/
theorem allRight_quiet {os' : List Event} {conn : Nat} (u : State) (hright : AllRight os s)
    (hnew : ∀ e ∈ os', Attributed e) (htable : u.table = s.table)
    (hother : ∀ x, x ≠ conn → u.ui x = s.ui x) (hnobody : found? u conn = none) :
    AllRight (os ++ os') u := by
  refine (allRight_setUi u hright hnew htable hother).mpr fun found hmem => ?_
  rw [hnobody] at hmem
  cases hmem

theorem found?_setUi (s : State) (conn : Nat) (pc : Pc) :
    found? (s.setUi conn pc) conn = match pc with
      | .printing _ found _ => some found
      | _ => none := by
  rw [found?, State.setUi_self]

theorem found?_leave (s : State) (conn : Nat) (fd : Int) : found? (s.leave conn fd) conn = none :=
  found?_setUi _ conn .idle

theorem keepsSlots_of_nothing {a : Act} (h : ∀ slot, written s slot a = none) :
    KeepsSlots s a := by
  intro conn found _ own _ info hinfo
  rw [h] at hinfo
  cases hinfo

/-- A step leaves every message attributed and every pointer right exactly when it keeps the
slots and finds the own entry. -/
theorem step_right_iff {a : Act} {os' : List Event} (hs : s.Sound) (hright : AllRight os s)
    (hmoves : Moves s a t os') : ShowsOwn s a ↔ AllRight (os ++ os') t := by
  have hnone : ∀ e ∈ ([] : List Event), Attributed e := fun e he => by simp at he
  have hleft : ∀ (conn : Nat), ∀ e ∈ [Event.left conn], Attributed e := by
    intro conn e he
    rw [List.mem_singleton.mp he]
    trivial
  cases hmoves with
  | @thread a threads es table _ harray _ =>
    rw [ShowsOwn, and_iff_left (show FindsOwn s (.thread a) from trivial)]
    refine allRight_of_section hright ?_ rfl (section_cells hs.table harray)
    intro e he
    obtain ⟨_, _, rfl⟩ := List.mem_map.mp he
    trivial
  | @call conn =>
    refine iff_of_true ⟨keepsSlots_of_nothing fun _ => rfl, trivial⟩ ?_
    exact allRight_quiet _ hright hnone rfl (fun x hx => State.setUi_of_ne s _ hx)
      (found?_setUi s conn _)
  | @received conn =>
    refine iff_of_true ⟨keepsSlots_of_nothing fun _ => rfl, trivial⟩ ?_
    refine allRight_quiet _ hright ?_ rfl (fun x hx => State.setUi_of_ne s _ hx)
      (found?_setUi s conn _)
    intro e he
    rw [List.mem_singleton.mp he]
    trivial
  | @ended conn fd =>
    refine iff_of_true ⟨keepsSlots_of_nothing fun _ => rfl, trivial⟩ ?_
    exact allRight_quiet _ hright (hleft conn) rfl (fun x hx => State.leave_ui_of_ne fd hx)
      (found?_leave s conn fd)
  | @leave conn file fd buffer hplace hui hwhy =>
    refine iff_of_true ⟨keepsSlots_of_nothing fun _ => rfl, ?_⟩ ?_
    · intro fd' file' buffer' hplace' hui' hbuffer own _ peer hpeer
      rw [hplace] at hplace'
      rw [hui] at hui'
      cases hplace'
      cases hui'
      rcases hwhy with hlookup | hterminate
      · -- the lookup has found nobody
        obtain ⟨found, hfound, hinfo, _⟩ := hs.table.lookupPeer fd
        rw [hlookup] at hfound
        obtain rfl := Option.some.inj hfound
        rw [← hinfo] at hpeer
        cases hpeer
      · exact absurd hterminate hbuffer
    · exact allRight_quiet _ hright (hleft conn) rfl (fun x hx => State.leave_ui_of_ne fd hx)
        (found?_leave s conn fd)
  | @found conn file slot fd buffer peer hplace hui hlookup hbuffer =>
    obtain ⟨found, hfound, hinfo, hcell⟩ := hs.table.lookupPeer fd
    rw [hlookup] at hfound
    obtain rfl := Option.some.inj hfound
    have hslot := hcell slot peer rfl
    have hinfo : peerInfo s.infos fd = some peer := hinfo.symm
    have hiff := allRight_setUi
      (s.setUi conn (.printing file ⟨slot, peer.listeningPort, s.entry? file⟩ buffer)) hright hnone
      rfl fun x hx => State.setUi_of_ne s _ hx
    rw [hiff, found?_setUi, ShowsOwn, and_iff_right (keepsSlots_of_nothing fun _ => rfl)]
    constructor
    · intro hfinds found hmem own hown
      obtain rfl := Option.some.inj hmem
      obtain ⟨haddr, hport⟩ := hfinds fd file buffer hplace hui hbuffer own hown peer hinfo
      refine ⟨hport, ?_⟩
      rw [hslot]
      exact congrArg some haddr
    · intro hnew fd' file' buffer' hplace' hui' _ own hown peer' hpeer'
      rw [hplace] at hplace'
      rw [hui] at hui'
      cases hplace'
      cases hui'
      rw [hinfo] at hpeer'
      cases hpeer'
      obtain ⟨hport, haddr⟩ := hnew _ rfl own hown
      rw [hslot] at haddr
      exact ⟨Option.some.inj haddr, hport⟩
  | @print conn file fd found buffer info _ hui hinfo =>
    refine iff_of_true ⟨keepsSlots_of_nothing fun _ => rfl, trivial⟩ ?_
    refine allRight_quiet _ hright ?_ rfl (fun x hx => State.setUi_of_ne s _ hx)
      (found?_setUi s conn .idle)
    intro e he
    rw [List.mem_singleton.mp he]
    intro own hown
    have hmem : found ∈ found? s conn := by
      rw [found?, hui]
      rfl
    obtain ⟨hport, haddr⟩ := hright.2 conn found hmem own hown
    rw [hinfo] at haddr
    exact ⟨Option.some.inj haddr, hport⟩

/-- The next prints tell what the pointers are worth. -/
theorem attributes_iff (hs : s.Sound) : Attributes os s ↔ AllRight os s := by
  refine and_congr_right fun _ => ⟨fun hnext conn found hmem own hown => ?_, ?_⟩
  · obtain ⟨file, buffer, hui⟩ : ∃ file buffer, s.ui conn = .printing file found buffer := by
      unfold found? at hmem
      split at hmem
      · next file found' buffer hui =>
        obtain rfl := Option.some.inj hmem
        exact ⟨file, buffer, hui⟩
      · cases hmem
    obtain ⟨fd, hplace⟩ := State.place_of_inLoop (hs.inLoop conn (by rw [hui]; simp))
    have hlt : found.slot < s.table.clients.length :=
      hs.table.length_eq ▸ hs.slots conn file found buffer hui
    have hcell := List.getElem?_eq_getElem hlt
    have hstep : step s (.print conn) = some (s.setUi conn .idle,
        [.shown conn file found.own
          ⟨s.table.clients[found.slot].ipAddr, found.listeningPort, buffer⟩]) := by
      simp [step, hplace, hui, hcell]
    obtain ⟨haddr, hport⟩ := hnext conn _ _ hstep _ (List.mem_singleton_self _) own hown
    refine ⟨hport, ?_⟩
    rw [hcell]
    exact congrArg some haddr
  · intro hright conn t os' hstep e he
    have hall : AllRight [] s := ⟨by simp, hright⟩
    have hkeeps : ShowsOwn s (.print conn) := ⟨keepsSlots_of_nothing fun _ => rfl, trivial⟩
    exact ((step_right_iff hs hall (step_moves hstep)).mp hkeeps).1 e he

/-! ## Runs -/

/-- Any table, and threads that have read nothing yet. -/
structure Listening (s : State) : Prop where
  table : s.table.Holds s.infos
  fresh : Threads.Fresh s.threads
  ui : ∀ conn, s.ui conn = .idle

theorem Listening.sound (hs : Listening s) : s.Sound := by
  refine ⟨hs.table, hs.fresh, fun conn hne => absurd (hs.ui conn) hne, ?_⟩
  intro conn file found buffer hui
  rw [hs.ui] at hui
  cases hui

theorem Listening.right (hs : Listening s) : AllRight [] s := by
  refine ⟨by simp, fun conn found hmem => ?_⟩
  rw [found?, hs.ui] at hmem
  cases hmem

/-- In every state of a run the messages printed so far, and any that a thread may print next,
show the address and port of the connections they arrived on, exactly when every lookup finds
those of the connection first and no section writes another address into a slot between
the lookup and the print. -/
theorem attributed_iff {as : List Act} (hs : Listening s)
    (h : Machine.run step s as = some (t, os)) :
    Machine.Meets step ShowsOwn s as ↔ Machine.Always step Attributes s as := by
  refine Machine.meets_iff_always_of_invariant (I := State.Sound)
    ((attributes_iff hs.sound).mpr hs.right) hs.sound
    (fun u a t os hsound hstep => hsound.moves (step_moves hstep)) ?_ h
  intro os u a t os' hsound hattributes hstep
  rw [attributes_iff (hsound.moves (step_moves hstep))]
  exact step_right_iff hsound ((attributes_iff hsound).mp hattributes) (step_moves hstep)

/-- Three connections, and the thread of the second. -/
def threePeers : State where
  threads :=
    { clients := [⟨⟨4, inetNtop ⟨10, 0, 0, 1⟩, 5001⟩, 0⟩, ⟨⟨5, inetNtop ⟨10, 0, 0, 2⟩, 5002⟩, 1⟩,
        ⟨⟨6, inetNtop ⟨10, 0, 0, 3⟩, 5003⟩, 2⟩]
      kernel := fun fd => if fd = 4 then some 0 else if fd = 5 then some 1
        else if fd = 6 then some 2 else none
      busy := fun _ => none
      place := fun conn => if conn = 1 then .reading 5 else .absent
      next := 3 }
  table := ⟨[⟨4, inetNtop ⟨10, 0, 0, 1⟩, 5001⟩, ⟨5, inetNtop ⟨10, 0, 0, 2⟩, 5002⟩,
    ⟨6, inetNtop ⟨10, 0, 0, 3⟩, 5003⟩] ++ List.replicate 7 ⟨0, [], 0⟩, 3⟩
  ui := fun _ => .idle

theorem threePeers_listening : Listening threePeers := by
  refine ⟨⟨rfl, by decide, rfl⟩, fun conn hconn => ?_, fun _ => rfl⟩
  have hconn : 3 ≤ conn := hconn
  show (if conn = 1 then Threads.Place.reading 5 else .absent) = .absent
  rw [if_neg (by omega)]

/- The second peer says hi.  While its thread is at the print, the user terminates another
connection. -/
def terminates (id : Int) : List Act :=
  [.call 1, .read 1 (.data [104, 105]), .lookup 1, .thread (.terminate id), .print 1]

/-- When the last connection goes, nothing moves. -/
theorem attributed_iff_last : ∃ t os, Machine.run step threePeers (terminates 3) = some (t, os) ∧
    Machine.Always step Attributes threePeers (terminates 3) := by
  refine ⟨_, _, rfl, (attributed_iff threePeers_listening rfl).mp ?_⟩
  refine ⟨⟨keepsSlots_of_nothing fun _ => rfl, trivial⟩, fun t os h => ?_⟩
  obtain ⟨rfl, rfl⟩ := Prod.mk.inj (Option.some.inj h)
  refine ⟨⟨keepsSlots_of_nothing fun _ => rfl, trivial⟩, fun t os h => ?_⟩
  obtain ⟨rfl, rfl⟩ := Prod.mk.inj (Option.some.inj h)
  refine ⟨⟨keepsSlots_of_nothing fun _ => rfl, ?_⟩, fun t os h => ?_⟩
  · intro fd file buffer hplace hui _ own hown peer hpeer
    cases hplace
    cases hui
    cases hown
    cases hpeer
    exact ⟨rfl, rfl⟩
  obtain ⟨rfl, rfl⟩ := Prod.mk.inj (Option.some.inj h)
  refine ⟨⟨keepsSlots_of_nothing fun slot => ?_, trivial⟩, fun t os h => ?_⟩
  · -- a shift from the last entry writes no cell
    show (if 2 ≤ slot ∧ slot + 1 < 3 then _ else none) = none
    exact if_neg (by omega)
  · obtain ⟨rfl, rfl⟩ := Prod.mk.inj (Option.some.inj h)
    exact ⟨⟨keepsSlots_of_nothing fun _ => rfl, trivial⟩, fun _ _ _ => trivial⟩

/-- The first connection goes, and the message is shown with the address of the third peer and
the port of the second. -/
theorem terminate_misattributes :
    Listening threePeers ∧ ∃ t os, Machine.run step threePeers (terminates 1) = some (t, os) ∧
      .received 1 1 [104, 105] ∈ os ∧
      .shown 1 1 (some ⟨5, inetNtop ⟨10, 0, 0, 2⟩, 5002⟩)
        ⟨inetNtop ⟨10, 0, 0, 3⟩, 5002, [104, 105]⟩ ∈ os ∧
      ¬∀ e ∈ os, Attributed e := by
  have hshown : .shown 1 1 (some ⟨5, inetNtop ⟨10, 0, 0, 2⟩, 5002⟩)
      ⟨inetNtop ⟨10, 0, 0, 3⟩, 5002, [104, 105]⟩ ∈
        [Event.received 1 1 [104, 105],
          .shown 1 1 (some ⟨5, inetNtop ⟨10, 0, 0, 2⟩, 5002⟩)
            ⟨inetNtop ⟨10, 0, 0, 3⟩, 5002, [104, 105]⟩] := by decide +kernel
  refine ⟨threePeers_listening, _, _, rfl, List.mem_cons_self, hshown, fun h => ?_⟩
  have haddr := (h _ hshown _ rfl).1
  revert haddr
  decide +kernel

/-- When the kernel gives out no number that a thread still uses, every lookup finds the own
entry. -/
theorem findsOwn_of_unused {as : List Act} (hunused : Machine.Meets step Unused start as) :
    Machine.Meets step FindsOwn start as := by
  refine Machine.meets_of_invariant (I := State.OwnFiles) ?_
    (fun u a t os hown hu ht => hown.moves hu (step_moves ht)) ownFiles_start hunused
  intro u a hfiles _
  cases a with
  | lookup conn =>
    intro fd file buffer hplace hui _ own hown peer hpeer
    obtain rfl : file = conn := hfiles.file conn file (by rw [hui]; rfl)
    obtain rfl := hfiles.peerInfo_eq hplace hown hpeer
    exact ⟨rfl, rfl⟩
  | thread | call | read | print => trivial

end Attribution
end Chat
end LinuxEmbedded
