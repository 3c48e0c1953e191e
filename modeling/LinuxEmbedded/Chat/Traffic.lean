import LinuxEmbedded.Chat.Handshake
import LinuxEmbedded.Lib.Machine

/-
Traffic between two connected peers.

`send` writes to the connection while it holds `client_mutex`, and `ui_run` takes the
same mutex after each message, before it reads the next.  A channel of finite capacity
goes each way.  With both channels full, both UI threads wait in `write` for room that
only the chat thread of the other process makes, and both chat threads wait for the
mutex.

Each process has this one connection.  A step of a peer touches its own threads and
the channel from the other one.
-/
namespace LinuxEmbedded
namespace Chat
namespace Traffic

open Framing (Byte)

inductive Peer where
  | a
  | b
  deriving DecidableEq

def Peer.other : Peer → Peer
  | .a => .b
  | .b => .a

inductive Thread where
  | ui
  | chat
  deriving DecidableEq

/-- Where the UI thread is in the `send` command. -/
inductive UiPc where
  | idle
  | lock (id : Int) (msg : List Byte)
  /-- In `write`, with what is not in the channel yet. -/
  | writing (rest : List Byte)
  | unlock
  /-- The process was killed by `SIGPIPE`. -/
  | gone
  deriving DecidableEq

/-- Where `chat_thread` is. -/
inductive ChatPc where
  | reading
  /-- At the lock of `ui_run`, with a message. -/
  | lock (buffer : List Byte)
  | lookup (buffer : List Byte)
  /-- Out of `ui_run`, at the lock before the removal. -/
  | leaving
  | removing
  | closing
  | ended
  deriving DecidableEq

/-- One process. -/
structure Side where
  ui : UiPc
  chat : ChatPc
  mutex : Option Thread
  /-- The connection is in `clients`. -/
  listed : Bool
  /-- Written here and not yet read by the other peer. -/
  out : List Byte
  /-- `chat_thread` has closed the descriptor, or the process is gone. -/
  closed : Bool
  deriving DecidableEq

/-- After the handshake. -/
def Side.start : Side where
  ui := .idle
  chat := .reading
  mutex := none
  listed := true
  out := []
  closed := false

inductive Act where
  /-- The user types `send <id> <msg>`. -/
  | send (id : Int) (msg : List Byte)
  /-- The UI thread goes on; in `write` it copies `n` bytes. -/
  | ui (n : Nat)
  /-- `write` fails, or kills the process, because the other end is closed. -/
  | writeFails
  | killed
  /-- The chat thread goes on; in `read` it gets `n` bytes. -/
  | chat (n : Nat)
  /-- `read` returns 0 or -1 because the other end is closed. -/
  | readEnds
  deriving DecidableEq

/-- A message that `ui_run` prints. -/
structure Printed where
  peer : Peer
  message : List Byte
  deriving DecidableEq

def sendStep (mine : Side) (id : Int) (msg : List Byte) : Option Side :=
  match mine.ui with
  | .idle =>
    if msg = [] ∨ nul ∈ msg then none
    else if msgSize < msg.length then some mine
    else some { mine with ui := .lock id msg }
  | _ => none

def uiStep (capacity : Nat) (mine : Side) (n : Nat) : Option Side :=
  match mine.ui with
  | .lock id msg =>
    if mine.mutex = none then
      some { mine with
        mutex := some .ui
        ui := if id = 1 ∧ mine.listed then .writing msg else .unlock }
    else none
  | .writing rest =>
    if 0 < n ∧ n ≤ rest.length ∧ mine.out.length + n ≤ capacity then
      some { mine with
        out := mine.out ++ rest.take n
        ui := if n = rest.length then .unlock else .writing (rest.drop n) }
    else none
  | .unlock => some { mine with mutex := none, ui := .idle }
  | .idle | .gone => none

def chatStep (peer : Peer) (mine theirs : Side) (n : Nat) : Option ((Side × Side) × List Printed) :=
  match mine.chat with
  | .reading =>
    if 0 < n ∧ n ≤ buffSize - 1 ∧ n ≤ theirs.out.length then
      match chatReceiveMessage (.data (theirs.out.take n)) with
      | some buffer =>
        some (({ mine with chat := .lock buffer }, { theirs with out := theirs.out.drop n }), [])
      | none => none
    else none
  | .lock buffer =>
    if mine.mutex = none then
      some (({ mine with mutex := some .chat, chat := .lookup buffer }, theirs), [])
    else none
  | .lookup buffer =>
    if mine.listed = false ∨ buffer = terminateMsg then
      some (({ mine with mutex := none, chat := .leaving }, theirs), [])
    else some (({ mine with mutex := none, chat := .reading }, theirs), [⟨peer, buffer⟩])
  | .leaving =>
    if mine.mutex = none then
      some (({ mine with mutex := some .chat, chat := .removing }, theirs), [])
    else none
  | .removing =>
    some (({ mine with mutex := none, listed := false, chat := .closing }, theirs), [])
  | .closing => some (({ mine with closed := true, chat := .ended }, theirs), [])
  | .ended => none

def UiPc.isWriting : UiPc → Bool
  | .writing _ => true
  | _ => false

def localStep (capacity : Nat) (peer : Peer) (mine theirs : Side) :
    Act → Option ((Side × Side) × List Printed)
  | .send id msg => (sendStep mine id msg).map fun mine => ((mine, theirs), [])
  | .ui n => (uiStep capacity mine n).map fun mine => ((mine, theirs), [])
  | .writeFails =>
    if mine.ui.isWriting ∧ theirs.closed then some (({ mine with ui := .unlock }, theirs), [])
    else none
  | .killed =>
    if mine.ui.isWriting ∧ theirs.closed then
      some (({ mine with ui := .gone, chat := .ended, closed := true }, theirs), [])
    else none
  | .chat n => chatStep peer mine theirs n
  | .readEnds =>
    if mine.chat = .reading ∧ theirs.closed then
      some (({ mine with chat := .leaving }, theirs), [])
    else none

abbrev State := Peer → Side

/-- The state with these two sides. -/
def both (peer : Peer) (mine theirs : Side) : State := fun p => if p = peer then mine else theirs

def start : State := fun _ => .start

def step (capacity : Peer → Nat) (s : State) (act : Peer × Act) : Option (State × List Printed) :=
  (localStep (capacity act.1) act.1 (s act.1) (s act.1.other) act.2).map fun q =>
    (both act.1 q.1.1 q.1.2, q.2)

/-! ## Who waits for whom -/

/-- At a lock of `client_mutex`. -/
def ChatPc.Waits : ChatPc → Prop
  | .lock _ | .leaving => True
  | _ => False

instance (pc : ChatPc) : Decidable pc.Waits :=
  match pc with
  | .lock _ | .leaving => inferInstanceAs (Decidable True)
  | .reading | .lookup _ | .removing | .closing | .ended => inferInstanceAs (Decidable False)

/-- In `chat_sendMessage`, with the channel full. -/
def Side.UiBlocked (side : Side) (capacity : Nat) : Prop :=
  side.ui.isWriting = true ∧ capacity ≤ side.out.length

/-- At the lock, which another thread holds. -/
def Side.ChatBlocked (side : Side) : Prop := side.chat.Waits ∧ side.mutex ≠ none

def Side.Stuck (side : Side) (capacity : Nat) : Prop :=
  side.UiBlocked capacity ∧ side.ChatBlocked

instance (side : Side) (capacity : Nat) : Decidable (side.Stuck capacity) :=
  inferInstanceAs (Decidable ((_ ∧ _) ∧ _ ∧ _))

def Deadlocked (capacity : Peer → Nat) (s : State) : Prop := ∀ p, (s p).Stuck (capacity p)

/-! ## One step -/

/-- What is in the channel fits, and only a thread that has ended has closed. -/
structure Side.Sound (side : Side) (capacity : Nat) : Prop where
  fits : side.out.length ≤ capacity
  closed : side.closed = true → side.chat = .ended

theorem Side.start_sound (capacity : Nat) : Side.start.Sound capacity :=
  ⟨Nat.zero_le _, fun h => nomatch h⟩

section Local

variable {capacity capacity' : Nat} {peer : Peer} {mine theirs mine' theirs' : Side}
  {os : List Printed}

theorem not_stuck_of_chat (h : ¬mine.chat.Waits) : ¬mine.Stuck capacity :=
  fun hstuck => h hstuck.2.1

theorem Side.Sound.not_stuck_of_closed (h : mine.Sound capacity) (hclosed : mine.closed = true) :
    ¬mine.Stuck capacity := by
  refine not_stuck_of_chat ?_
  rw [h.closed hclosed]
  exact id

/-- The chat thread reads from the channel, goes on in its own process, or closes. -/
theorem chatStep_cases {n : Nat} (h : chatStep peer mine theirs n = some ((mine', theirs'), os)) :
    mine.chat ≠ .ended ∧
    ((∃ chat, mine' = { mine with chat } ∧ theirs' = { theirs with out := theirs.out.drop n } ∧
        0 < n ∧ n ≤ theirs.out.length) ∨
      (∃ chat mutex listed, mine' = { mine with chat, mutex, listed } ∧ theirs' = theirs) ∨
      (mine' = { mine with closed := true, chat := .ended } ∧ theirs' = theirs)) := by
  cases hchat : mine.chat with
  | ended => simp [chatStep, hchat] at h
  | reading =>
    simp only [chatStep, hchat] at h
    obtain ⟨⟨hpos, _, hle⟩, h⟩ := Option.ite_none_right_eq_some.mp h
    split at h
    · obtain ⟨hq, _⟩ := Prod.mk.inj (Option.some.inj h)
      obtain ⟨rfl, rfl⟩ := Prod.mk.inj hq
      exact ⟨ChatPc.noConfusion, .inl ⟨_, rfl, rfl, hpos, hle⟩⟩
    · cases h
  | lock buffer =>
    simp only [chatStep, hchat] at h
    obtain ⟨_, h⟩ := Option.ite_none_right_eq_some.mp h
    obtain ⟨hq, _⟩ := Prod.mk.inj (Option.some.inj h)
    obtain ⟨rfl, rfl⟩ := Prod.mk.inj hq
    exact ⟨ChatPc.noConfusion, .inr (.inl ⟨_, _, _, rfl, rfl⟩)⟩
  | lookup buffer =>
    simp only [chatStep, hchat] at h
    split at h <;>
      · obtain ⟨hq, _⟩ := Prod.mk.inj (Option.some.inj h)
        obtain ⟨rfl, rfl⟩ := Prod.mk.inj hq
        exact ⟨ChatPc.noConfusion, .inr (.inl ⟨_, _, _, rfl, rfl⟩)⟩
  | leaving =>
    simp only [chatStep, hchat] at h
    obtain ⟨_, h⟩ := Option.ite_none_right_eq_some.mp h
    obtain ⟨hq, _⟩ := Prod.mk.inj (Option.some.inj h)
    obtain ⟨rfl, rfl⟩ := Prod.mk.inj hq
    exact ⟨ChatPc.noConfusion, .inr (.inl ⟨_, _, _, rfl, rfl⟩)⟩
  | removing =>
    simp only [chatStep, hchat] at h
    obtain ⟨hq, _⟩ := Prod.mk.inj (Option.some.inj h)
    obtain ⟨rfl, rfl⟩ := Prod.mk.inj hq
    exact ⟨ChatPc.noConfusion, .inr (.inl ⟨_, _, _, rfl, rfl⟩)⟩
  | closing =>
    simp only [chatStep, hchat] at h
    obtain ⟨hq, _⟩ := Prod.mk.inj (Option.some.inj h)
    obtain ⟨rfl, rfl⟩ := Prod.mk.inj hq
    exact ⟨ChatPc.noConfusion, .inr (.inr ⟨rfl, rfl⟩)⟩

theorem uiStep_sound {n : Nat} (hmine : mine.Sound capacity)
    (h : uiStep capacity mine n = some mine') : mine'.Sound capacity := by
  unfold uiStep at h
  split at h
  · obtain ⟨_, h⟩ := Option.ite_none_right_eq_some.mp h
    obtain rfl := Option.some.inj h
    exact ⟨hmine.fits, hmine.closed⟩
  · obtain ⟨⟨_, hle, hfits⟩, h⟩ := Option.ite_none_right_eq_some.mp h
    obtain rfl := Option.some.inj h
    refine ⟨?_, hmine.closed⟩
    show (mine.out ++ List.take n _).length ≤ capacity
    rw [List.length_append, List.length_take_of_le hle]
    exact hfits
  · obtain rfl := Option.some.inj h
    exact ⟨hmine.fits, hmine.closed⟩
  · cases h
  · cases h

theorem sendStep_sound {id : Int} {msg : List Byte} (hmine : mine.Sound capacity)
    (h : sendStep mine id msg = some mine') : mine'.Sound capacity := by
  unfold sendStep at h
  split at h
  · obtain ⟨_, h⟩ := Option.ite_none_left_eq_some.mp h
    split at h
    · obtain rfl := Option.some.inj h
      exact hmine
    · obtain rfl := Option.some.inj h
      exact ⟨hmine.fits, hmine.closed⟩
  · cases h

/-- A thread that goes on has not closed. -/
theorem Side.Sound.open_of_chat (h : mine.Sound capacity) (hchat : mine.chat ≠ .ended) :
    mine.closed = false := by
  cases hclosed : mine.closed with
  | false => rfl
  | true => exact absurd (h.closed hclosed) hchat

theorem Side.Sound.setChat (h : mine.Sound capacity) (hchat : mine.chat ≠ .ended)
    (chat : ChatPc) (mutex : Option Thread) (listed : Bool) :
    Side.Sound { mine with chat, mutex, listed } capacity :=
  ⟨h.fits, fun hclosed => by rw [h.open_of_chat hchat] at hclosed; cases hclosed⟩

theorem chatStep_sound {n : Nat} (hmine : mine.Sound capacity)
    (htheirs : theirs.Sound capacity')
    (h : chatStep peer mine theirs n = some ((mine', theirs'), os)) :
    mine'.Sound capacity ∧ theirs'.Sound capacity' := by
  obtain ⟨hchat, ⟨chat, rfl, rfl, _, _⟩ | ⟨chat, mutex, listed, rfl, rfl⟩ | ⟨rfl, rfl⟩⟩ :=
    chatStep_cases h
  · refine ⟨hmine.setChat hchat _ _ _, ?_, htheirs.closed⟩
    exact Nat.le_trans (List.length_drop ▸ Nat.sub_le ..) htheirs.fits
  · exact ⟨hmine.setChat hchat _ _ _, htheirs⟩
  · exact ⟨⟨hmine.fits, fun _ => rfl⟩, htheirs⟩

theorem localStep_sound {act : Act} (hmine : mine.Sound capacity)
    (htheirs : theirs.Sound capacity')
    (h : localStep capacity peer mine theirs act = some ((mine', theirs'), os)) :
    mine'.Sound capacity ∧ theirs'.Sound capacity' := by
  cases act with
  | send id msg =>
    obtain ⟨side, hside, hq⟩ := Option.map_eq_some_iff.mp h
    obtain ⟨hq, _⟩ := Prod.mk.inj hq
    obtain ⟨rfl, rfl⟩ := Prod.mk.inj hq
    exact ⟨sendStep_sound hmine hside, htheirs⟩
  | ui n =>
    obtain ⟨side, hside, hq⟩ := Option.map_eq_some_iff.mp h
    obtain ⟨hq, _⟩ := Prod.mk.inj hq
    obtain ⟨rfl, rfl⟩ := Prod.mk.inj hq
    exact ⟨uiStep_sound hmine hside, htheirs⟩
  | writeFails =>
    obtain ⟨_, h⟩ := Option.ite_none_right_eq_some.mp h
    obtain ⟨hq, _⟩ := Prod.mk.inj (Option.some.inj h)
    obtain ⟨rfl, rfl⟩ := Prod.mk.inj hq
    exact ⟨⟨hmine.fits, hmine.closed⟩, htheirs⟩
  | killed =>
    obtain ⟨_, h⟩ := Option.ite_none_right_eq_some.mp h
    obtain ⟨hq, _⟩ := Prod.mk.inj (Option.some.inj h)
    obtain ⟨rfl, rfl⟩ := Prod.mk.inj hq
    exact ⟨⟨hmine.fits, fun _ => rfl⟩, htheirs⟩
  | chat n => exact chatStep_sound hmine htheirs h
  | readEnds =>
    obtain ⟨⟨hchat, _⟩, h⟩ := Option.ite_none_right_eq_some.mp h
    obtain ⟨hq, _⟩ := Prod.mk.inj (Option.some.inj h)
    obtain ⟨rfl, rfl⟩ := Prod.mk.inj hq
    refine ⟨hmine.setChat ?_ _ _ _, htheirs⟩
    rw [hchat]
    exact ChatPc.noConfusion

end Local

/-! ## Runs of both peers -/

section Runs

variable {capacity : Peer → Nat} {s t : State} {os : List Printed}

theorem Peer.other_ne (p : Peer) : p.other ≠ p := by
  cases p <;> exact Peer.noConfusion

/-- What holds of both sides. -/
theorem forall_both {P : Peer → Side → Prop} {peer : Peer} {mine theirs : Side} :
    (∀ p, P p (both peer mine theirs p)) ↔ P peer mine ∧ P peer.other theirs := by
  have hself : both peer mine theirs peer = mine := if_pos rfl
  have hother : both peer mine theirs peer.other = theirs := if_neg peer.other_ne
  constructor
  · intro h
    have hmine := h peer
    have htheirs := h peer.other
    rw [hself] at hmine
    rw [hother] at htheirs
    exact ⟨hmine, htheirs⟩
  · rintro ⟨hmine, htheirs⟩ p
    by_cases hp : p = peer
    · rw [hp, hself]
      exact hmine
    · obtain rfl : p = peer.other := by
        cases p <;> cases peer <;> first | rfl | exact absurd rfl hp
      rw [hother]
      exact htheirs

theorem step_sound {act : Peer × Act} (hsound : ∀ p, (s p).Sound (capacity p))
    (h : step capacity s act = some (t, os)) : ∀ p, (t p).Sound (capacity p) := by
  obtain ⟨⟨⟨mine, theirs⟩, shown⟩, hlocal, hq⟩ := Option.map_eq_some_iff.mp h
  obtain ⟨rfl, rfl⟩ := Prod.mk.inj hq
  exact (forall_both (P := fun p side => side.Sound (capacity p))).mpr
    (localStep_sound (hsound act.1) (hsound act.1.other) hlocal)

/-- Nothing moves in a stuck process that the other one could not help. -/
theorem localStep_of_stuck {capacity capacity' : Nat} {peer : Peer} {mine theirs : Side}
    (hmine : mine.Stuck capacity) (htheirs : theirs.Stuck capacity')
    (hsound : theirs.Sound capacity') (act : Act) :
    localStep capacity peer mine theirs act = none := by
  have hopen : theirs.closed ≠ true :=
    fun hclosed => hsound.not_stuck_of_closed hclosed htheirs
  obtain ⟨⟨hwriting, hfull⟩, hwaits, hheld⟩ := hmine
  obtain ⟨rest, hui⟩ : ∃ rest, mine.ui = .writing rest := by
    cases hui : mine.ui with
    | writing rest => exact ⟨rest, rfl⟩
    | _ =>
      rw [hui] at hwriting
      cases hwriting
  cases act with
  | send id msg => simp [localStep, sendStep, hui]
  | ui n =>
    have hroom : ¬(0 < n ∧ n ≤ rest.length ∧ mine.out.length + n ≤ capacity) := by
      omega
    simp [localStep, uiStep, hui, hroom]
  | writeFails => exact if_neg fun h => hopen h.2
  | killed => exact if_neg fun h => hopen h.2
  | chat n =>
    cases hchat : mine.chat with
    | lock buffer => simp [localStep, chatStep, hchat, hheld]
    | leaving => simp [localStep, chatStep, hchat, hheld]
    | _ =>
      rw [hchat] at hwaits
      exact hwaits.elim
  | readEnds => exact if_neg fun h => hopen h.2

/-- Two deadlocked peers stay so for ever. -/
theorem deadlocked_forever (h : Machine.Reachable (step capacity) start s)
    (hdead : Deadlocked capacity s) (act : Peer × Act) : step capacity s act = none := by
  have hsound : ∀ p, (s p).Sound (capacity p) :=
    h.invariant (I := fun u => ∀ p, (u p).Sound (capacity p))
      (fun _ _ _ _ hu hstep => step_sound hu hstep) (fun _ => Side.start_sound _)
  rw [step, localStep_of_stuck (hdead act.1) (hdead act.1.other) (hsound act.1.other)]
  rfl

end Runs

/- Both channels hold four bytes and both users send eight or more.  Each chat thread takes
what is in its channel, and the UI threads fill the channels again. -/
def fourBytes : Peer → Nat := fun _ => 4

def crossing : List (Peer × Act) :=
  [(.a, .send 1 [104, 101, 108, 108, 111, 32, 98, 111, 98]), (.a, .ui 0), (.a, .ui 4),
    (.b, .send 1 [104, 101, 108, 108, 111, 32, 97, 110, 110]), (.b, .ui 0), (.b, .ui 4),
    (.a, .chat 4), (.b, .chat 4), (.a, .ui 4), (.b, .ui 4)]

theorem crossing_deadlocks :
    ∃ t os, Machine.run (step fourBytes) start crossing = some (t, os) ∧
      Deadlocked fourBytes t := by
  refine ⟨_, _, rfl, fun p => ?_⟩
  cases p <;>
    exact ⟨⟨rfl, Nat.le_refl 4⟩, trivial, fun h => nomatch h⟩

/-! ## Room for the messages of one peer

A UI thread that has taken the mutex only with room for its whole message never waits, and
one peer that never waits in `write` keeps both going. -/

/-- The message for which the UI thread is about to take the mutex. -/
def UiPc.message? : UiPc → Option (List Byte)
  | .lock _ msg => some msg
  | _ => none

def Act.isUi : Act → Bool
  | .ui _ => true
  | _ => false

/-- When the UI thread of this peer takes the mutex for a message, the channel has room for
the whole of it. -/
def FindsRoom (capacity : Peer → Nat) (peer : Peer) (s : State) (act : Peer × Act) : Prop :=
  act.1 = peer → act.2.isUi = true → ∀ msg ∈ (s peer).ui.message?,
    (s peer).out.length + msg.length ≤ capacity peer

instance (capacity : Peer → Nat) (peer : Peer) (s : State) (act : Peer × Act) :
    Decidable (FindsRoom capacity peer s act) :=
  inferInstanceAs (Decidable (_ → _ → ∀ msg ∈ (s peer).ui.message?, _))

/-- Messages are not empty, and what is left of one fits. -/
structure Side.Roomy (side : Side) (capacity : Nat) : Prop where
  lock : ∀ id msg, side.ui = .lock id msg → msg ≠ []
  writing : ∀ rest, side.ui = .writing rest →
    rest ≠ [] ∧ side.out.length + rest.length ≤ capacity

section Room

variable {capacity : Nat} {peer : Peer} {mine theirs mine' theirs' : Side} {os : List Printed}

theorem Side.Roomy.not_blocked (h : mine.Roomy capacity) : ¬mine.UiBlocked capacity := by
  rintro ⟨hwriting, hfull⟩
  cases hui : mine.ui with
  | writing rest =>
    obtain ⟨hne, hfits⟩ := h.writing rest hui
    have hpos := List.length_pos_iff.mpr hne
    omega
  | _ =>
    rw [hui] at hwriting
    cases hwriting

/-- A thread that is at no message. -/
theorem roomy_of_ui {pc : UiPc} (h : mine.ui = pc) (hlock : ∀ id msg, pc ≠ .lock id msg)
    (hwriting : ∀ rest, pc ≠ .writing rest) : mine.Roomy capacity :=
  ⟨fun id msg hui => absurd (h.symm.trans hui) (hlock id msg),
    fun rest hui => absurd (h.symm.trans hui) (hwriting rest)⟩

theorem Side.Roomy.drain (h : mine.Roomy capacity) (n : Nat) :
    Side.Roomy { mine with out := mine.out.drop n } capacity := by
  refine ⟨h.lock, fun rest hui => ⟨(h.writing rest hui).1, ?_⟩⟩
  have hfits := (h.writing rest hui).2
  show (mine.out.drop n).length + rest.length ≤ capacity
  rw [List.length_drop]
  omega

theorem sendStep_roomy {id : Int} {msg : List Byte} (hmine : mine.Roomy capacity)
    (h : sendStep mine id msg = some mine') : mine'.Roomy capacity := by
  unfold sendStep at h
  split at h
  · obtain ⟨hmsg, h⟩ := Option.ite_none_left_eq_some.mp h
    split at h
    · obtain rfl := Option.some.inj h
      exact hmine
    · obtain rfl := Option.some.inj h
      refine ⟨fun id' msg' hui => ?_, fun rest hui => UiPc.noConfusion hui⟩
      obtain ⟨_, rfl⟩ := UiPc.lock.inj hui
      exact fun hnil => hmsg (Or.inl hnil)
  · cases h

theorem uiStep_roomy {n : Nat} (hmine : mine.Roomy capacity)
    (hroom : ∀ id msg, mine.ui = .lock id msg → mine.out.length + msg.length ≤ capacity)
    (h : uiStep capacity mine n = some mine') : mine'.Roomy capacity := by
  cases hui : mine.ui with
  | idle => simp [uiStep, hui] at h
  | gone => simp [uiStep, hui] at h
  | lock id msg =>
    simp only [uiStep, hui] at h
    obtain ⟨_, h⟩ := Option.ite_none_right_eq_some.mp h
    obtain rfl := Option.some.inj h
    by_cases hid : id = 1 ∧ mine.listed = true
    · refine ⟨fun id' msg' hui' => ?_, fun rest hui' => ?_⟩
      · rw [if_pos hid] at hui'
        cases hui'
      · rw [if_pos hid] at hui'
        obtain rfl := UiPc.writing.inj hui'
        exact ⟨hmine.lock id msg hui, hroom id msg hui⟩
    · exact roomy_of_ui (if_neg hid) (fun _ _ => UiPc.noConfusion) (fun _ => UiPc.noConfusion)
  | writing rest =>
    simp only [uiStep, hui] at h
    obtain ⟨⟨_, hle, _⟩, h⟩ := Option.ite_none_right_eq_some.mp h
    obtain rfl := Option.some.inj h
    have hfits := (hmine.writing rest hui).2
    by_cases hend : n = rest.length
    · exact roomy_of_ui (if_pos hend) (fun _ _ => UiPc.noConfusion) (fun _ => UiPc.noConfusion)
    · refine ⟨fun id' msg' hui' => ?_, fun rest' hui' => ?_⟩
      · rw [if_neg hend] at hui'
        cases hui'
      · rw [if_neg hend] at hui'
        obtain rfl := UiPc.writing.inj hui'
        refine ⟨?_, ?_⟩
        · rw [← List.length_pos_iff, List.length_drop]
          omega
        · show (mine.out ++ rest.take n).length + _ ≤ capacity
          rw [List.length_append, List.length_take_of_le hle, List.length_drop]
          omega
  | unlock =>
    simp only [uiStep, hui] at h
    obtain rfl := Option.some.inj h
    exact roomy_of_ui rfl (fun _ _ => UiPc.noConfusion) (fun _ => UiPc.noConfusion)

/-- The steps of a peer whose messages find room. -/
theorem localStep_roomy {act : Act} (hmine : mine.Roomy capacity)
    (hroom : act.isUi = true → ∀ msg ∈ mine.ui.message?,
      mine.out.length + msg.length ≤ capacity)
    (h : localStep capacity peer mine theirs act = some ((mine', theirs'), os)) :
    mine'.Roomy capacity := by
  cases act with
  | send id msg =>
    obtain ⟨side, hside, hq⟩ := Option.map_eq_some_iff.mp h
    obtain ⟨hq, _⟩ := Prod.mk.inj hq
    obtain ⟨rfl, rfl⟩ := Prod.mk.inj hq
    exact sendStep_roomy hmine hside
  | ui n =>
    obtain ⟨side, hside, hq⟩ := Option.map_eq_some_iff.mp h
    obtain ⟨hq, _⟩ := Prod.mk.inj hq
    obtain ⟨rfl, rfl⟩ := Prod.mk.inj hq
    refine uiStep_roomy hmine (fun id msg hui => hroom rfl msg ?_) hside
    rw [hui]
    rfl
  | writeFails =>
    obtain ⟨_, h⟩ := Option.ite_none_right_eq_some.mp h
    obtain ⟨hq, _⟩ := Prod.mk.inj (Option.some.inj h)
    obtain ⟨rfl, rfl⟩ := Prod.mk.inj hq
    exact roomy_of_ui rfl (fun _ _ => UiPc.noConfusion) (fun _ => UiPc.noConfusion)
  | killed =>
    obtain ⟨_, h⟩ := Option.ite_none_right_eq_some.mp h
    obtain ⟨hq, _⟩ := Prod.mk.inj (Option.some.inj h)
    obtain ⟨rfl, rfl⟩ := Prod.mk.inj hq
    exact roomy_of_ui rfl (fun _ _ => UiPc.noConfusion) (fun _ => UiPc.noConfusion)
  | chat n =>
    obtain ⟨_, ⟨chat, rfl, rfl, _, _⟩ | ⟨chat, mutex, listed, rfl, rfl⟩ | ⟨rfl, rfl⟩⟩ :=
      chatStep_cases h
    · exact ⟨hmine.lock, hmine.writing⟩
    · exact ⟨hmine.lock, hmine.writing⟩
    · exact ⟨hmine.lock, hmine.writing⟩
  | readEnds =>
    obtain ⟨_, h⟩ := Option.ite_none_right_eq_some.mp h
    obtain ⟨hq, _⟩ := Prod.mk.inj (Option.some.inj h)
    obtain ⟨rfl, rfl⟩ := Prod.mk.inj hq
    exact ⟨hmine.lock, hmine.writing⟩

/-- The other peer only takes from the channel. -/
theorem localStep_roomy_other {act : Act} (htheirs : theirs.Roomy capacity) {capacity' : Nat}
    (h : localStep capacity' peer mine theirs act = some ((mine', theirs'), os)) :
    theirs'.Roomy capacity := by
  cases act with
  | send id msg =>
    obtain ⟨side, _, hq⟩ := Option.map_eq_some_iff.mp h
    obtain ⟨rfl, rfl⟩ := Prod.mk.inj (Prod.mk.inj hq).1
    exact htheirs
  | ui n =>
    obtain ⟨side, _, hq⟩ := Option.map_eq_some_iff.mp h
    obtain ⟨rfl, rfl⟩ := Prod.mk.inj (Prod.mk.inj hq).1
    exact htheirs
  | chat n =>
    obtain ⟨_, ⟨chat, rfl, rfl, _, _⟩ | ⟨chat, mutex, listed, rfl, rfl⟩ | ⟨rfl, rfl⟩⟩ :=
      chatStep_cases h
    · exact htheirs.drain n
    · exact htheirs
    · exact htheirs
  | writeFails | killed | readEnds =>
    obtain ⟨_, h⟩ := Option.ite_none_right_eq_some.mp h
    obtain ⟨rfl, rfl⟩ := Prod.mk.inj (Prod.mk.inj (Option.some.inj h)).1
    exact htheirs

end Room

section Runs

variable {capacity : Peer → Nat} {peer : Peer} {s t : State} {os : List Printed}

theorem step_roomy {act : Peer × Act} (h : (s peer).Roomy (capacity peer))
    (hroom : FindsRoom capacity peer s act) (hstep : step capacity s act = some (t, os)) :
    (t peer).Roomy (capacity peer) := by
  obtain ⟨⟨⟨mine, theirs⟩, shown⟩, hlocal, hq⟩ := Option.map_eq_some_iff.mp hstep
  obtain ⟨rfl, rfl⟩ := Prod.mk.inj hq
  obtain ⟨p, act⟩ := act
  by_cases hp : p = peer
  · subst hp
    have hself : both p mine theirs p = mine := if_pos rfl
    rw [hself]
    exact localStep_roomy h (hroom rfl) hlocal
  · obtain rfl : peer = p.other := by
      cases p <;> cases peer <;> first | rfl | exact absurd rfl hp
    have hother : both p mine theirs p.other = theirs := if_neg p.other_ne
    rw [hother]
    exact localStep_roomy_other h hlocal

/-- A peer whose every message finds room for the whole of it never waits in
`chat_sendMessage`. -/
theorem never_blocked_of_room {acts : List (Peer × Act)}
    (hroom : Machine.Meets (step capacity) (FindsRoom capacity peer) start acts)
    (h : Machine.run (step capacity) start acts = some (t, os)) :
    ¬(t peer).UiBlocked (capacity peer) := by
  have hroomy : (t peer).Roomy (capacity peer) := by
    refine Machine.meets_induction (P := fun _ u => (u peer).Roomy (capacity peer)) ?_ ?_ hroom h
    · exact roomy_of_ui rfl (fun _ _ => UiPc.noConfusion) (fun _ => UiPc.noConfusion)
    · exact fun _ u _ t _ hu hfinds hstep => step_roomy hu hfinds hstep
  exact hroomy.not_blocked

/-- When every message of one peer finds room for the whole of it, no state of the run has both
UI threads blocked in `chat_sendMessage` and both chat threads at the mutex. -/
theorem never_deadlocked_of_room {acts : List (Peer × Act)}
    (hroom : ∃ peer, Machine.Meets (step capacity) (FindsRoom capacity peer) start acts) :
    Machine.Always (step capacity) (fun _ u => ¬Deadlocked capacity u) start acts := by
  obtain ⟨peer, hroom⟩ := hroom
  intro bs cs u os' hacts hu hdead
  rw [hacts, Machine.meets_append_iff hu] at hroom
  exact never_blocked_of_room hroom.1 hu (hdead peer).1

end Runs

/- The message of the first user is longer than the channel, that of the second one is not.
Both chat threads take what there is while both writes go on. -/
def inTurn : List (Peer × Act) :=
  [(.a, .send 1 [104, 101, 108, 108, 111]), (.a, .ui 0), (.a, .ui 4),
    (.b, .send 1 [104, 105]), (.b, .ui 0), (.b, .ui 2), (.a, .chat 2), (.b, .ui 0), (.b, .chat 4),
    (.a, .ui 1), (.a, .ui 0), (.a, .chat 0), (.a, .chat 0)]

theorem never_deadlocked_of_room_inTurn :
    ∃ t os, Machine.run (step fourBytes) start inTurn = some (t, os) ∧
      ¬Machine.Meets (step fourBytes) (FindsRoom fourBytes .a) start inTurn ∧
      Machine.Always (step fourBytes) (fun _ u => ¬Deadlocked fourBytes u) start inTurn := by
  obtain ⟨⟨t, os⟩, hrun⟩ := Option.isSome_iff_exists.mp
    (show (Machine.run (step fourBytes) start inTurn).isSome from rfl)
  exact ⟨t, os, hrun, by decide, never_deadlocked_of_room ⟨.b, by decide⟩⟩

/-! ## Every capacity

Messages of one byte fill both channels and one of two bytes does not fit.  A byte read
from each makes room for the first of the two. -/

section EveryCapacity

variable {capacity : Peer → Nat} {peer : Peer} {mine theirs mine' theirs' : Side} {s : State}
  {os : List Printed}

theorem step_both {act : Act}
    (h : localStep (capacity peer) peer mine theirs act = some ((mine', theirs'), os)) :
    step capacity (both peer mine theirs) (peer, act) = some (both peer mine' theirs', os) := by
  have hself : both peer mine theirs peer = mine := if_pos rfl
  have hother : both peer mine theirs peer.other = theirs := if_neg peer.other_ne
  simp only [step, hself, hother, h, Option.map_some]

theorem both_swap : both peer mine theirs = both peer.other theirs mine := by
  funext p
  cases p <;> cases peer <;> rfl

def letter : Byte := 120

/-- Between two commands, with `n` letters in the channel. -/
def Side.sent (n : Nat) : Side := { Side.start with out := List.replicate n letter }

/-- The first message that does not fit. -/
def Side.jammed (n : Nat) : Side :=
  { Side.sent n with ui := .writing [letter, letter], mutex := some .ui }

theorem step_copy {rest : List Byte} {n : Nat} (hui : mine.ui = .writing rest) (hpos : 0 < n)
    (hle : n ≤ rest.length) (hfits : mine.out.length + n ≤ capacity peer) :
    step capacity (both peer mine theirs) (peer, .ui n) =
      some (both peer { mine with
        out := mine.out ++ rest.take n
        ui := if n = rest.length then .unlock else .writing (rest.drop n) } theirs, []) := by
  refine step_both ?_
  have hcopy : uiStep (capacity peer) mine n = some { mine with
      out := mine.out ++ rest.take n
      ui := if n = rest.length then .unlock else .writing (rest.drop n) } := by
    simp only [uiStep, hui]
    exact if_pos ⟨hpos, hle, hfits⟩
  rw [localStep, hcopy]
  rfl

theorem step_take {n : Nat} (hchat : mine.chat = .reading) (hpos : 0 < n) (hbuff : n ≤ buffSize - 1)
    (hle : n ≤ theirs.out.length) {buffer : List Byte}
    (hbuffer : chatReceiveMessage (.data (theirs.out.take n)) = some buffer) :
    step capacity (both peer mine theirs) (peer, .chat n) =
      some (both peer { mine with chat := .lock buffer } { theirs with out := theirs.out.drop n },
        []) := by
  refine step_both ?_
  simp only [localStep, chatStep, hchat]
  rw [if_pos ⟨hpos, hbuff, hle⟩, hbuffer]

/-- Messages of one letter go into the channel until it is full. -/
theorem reach_sent (h : Machine.Reachable (step capacity) s (both peer (.sent 0) theirs)) :
    ∀ n ≤ capacity peer, Machine.Reachable (step capacity) s (both peer (.sent n) theirs) := by
  intro n
  induction n with
  | zero => exact fun _ => h
  | succ n ih =>
    intro hle
    have hout : (Side.sent n).out.length + 1 ≤ capacity peer := by
      show (List.replicate n letter).length + 1 ≤ _
      rw [List.length_replicate]
      exact hle
    have hlock := (ih (Nat.le_of_succ_le hle)).tail
      (step_both (show localStep _ _ _ theirs (.send 1 [letter]) = some ((_, _), _) from rfl))
    have hwrite := hlock.tail
      (step_both (show localStep _ _ _ _ (.ui 0) = some ((_, _), _) from rfl))
    have hcopy := hwrite.tail (step_copy rfl Nat.one_pos (Nat.le_refl 1) hout)
    have hdone := hcopy.tail
      (step_both (show localStep _ _ _ _ (.ui 0) = some ((_, _), _) from rfl))
    have hsent : List.replicate n letter ++ [letter] = List.replicate (n + 1) letter :=
      List.replicate_succ'.symm
    rw [Side.sent, ← hsent]
    exact hdone

theorem reach_jammed (h : Machine.Reachable (step capacity) s (both peer (.sent 0) theirs)) :
    Machine.Reachable (step capacity) s (both peer (.jammed (capacity peer)) theirs) := by
  have hlock := (reach_sent h (capacity peer) (Nat.le_refl _)).tail
    (step_both (show localStep _ _ _ theirs (.send 1 [letter, letter]) = some ((_, _), _) from rfl))
  exact hlock.tail (step_both (show localStep _ _ _ _ (.ui 0) = some ((_, _), _) from rfl))

/-- The chat thread takes a letter, and the UI thread of the other peer fills the channel
again. -/
theorem reach_stuck (h : Machine.Reachable (step capacity) s (both peer mine theirs))
    (hpos : 0 < capacity peer.other) (hchat : mine.chat = .reading)
    (hui : theirs.ui = .writing [letter, letter])
    (hout : theirs.out = List.replicate (capacity peer.other) letter) :
    Machine.Reachable (step capacity) s
      (both peer { mine with chat := .lock [letter] } { theirs with ui := .writing [letter] }) := by
  obtain ⟨n, hn⟩ : ∃ n, capacity peer.other = n + 1 := ⟨capacity peer.other - 1, by omega⟩
  rw [hn, List.replicate_succ] at hout
  have hbuffer : chatReceiveMessage (.data (theirs.out.take 1)) = some [letter] := by
    rw [hout]
    rfl
  have hle : 1 ≤ theirs.out.length := by
    rw [hout, List.length_cons]
    omega
  have htake := h.tail (step_take hchat Nat.one_pos (by decide) hle hbuffer)
  rw [both_swap] at htake
  have hcopy := htake.tail (step_copy hui Nat.one_pos (Nat.le_succ 1) (by
    show (theirs.out.drop 1).length + 1 ≤ _
    rw [hout, List.drop_one, List.tail_cons, List.length_replicate, hn]))
  rw [both_swap] at hcopy
  have hfull : theirs.out.tail ++ [letter] = theirs.out := by
    rw [hout, List.tail_cons, ← List.replicate_succ', List.replicate_succ]
  have hsame : peer.other.other = peer := by
    cases peer <;> rfl
  simpa [hsame, hfull] using hcopy

/-- Whatever the channels hold, if they hold anything, the peers can deadlock. -/
theorem deadlock_reachable (hpos : ∀ p, 0 < capacity p) :
    ∃ t, Machine.Reachable (step capacity) start t ∧ Deadlocked capacity t := by
  have hstart : (start : State) = both .a (.sent 0) (.sent 0) := by
    funext p
    cases p <;> rfl
  have hempty : Machine.Reachable (step capacity) start (both .a (.sent 0) (.sent 0)) := by
    rw [← hstart]
    exact .refl start
  have ha := reach_jammed hempty
  rw [both_swap] at ha
  have hb := reach_jammed ha
  have hwaits := reach_stuck hb (hpos .a) rfl rfl rfl
  rw [both_swap] at hwaits
  have hdead := reach_stuck hwaits (hpos .b) rfl rfl rfl
  refine ⟨_, hdead, (forall_both (P := fun p side => side.Stuck (capacity p))).mpr ⟨?_, ?_⟩⟩
  · exact ⟨⟨rfl, Nat.le_of_eq List.length_replicate.symm⟩, trivial, fun h => nomatch h⟩
  · exact ⟨⟨rfl, Nat.le_of_eq List.length_replicate.symm⟩, trivial, fun h => nomatch h⟩

end EveryCapacity

end Traffic
end Chat
end LinuxEmbedded
