import LinuxEmbedded.Chat.Commands
import LinuxEmbedded.Chat.OwnNumber

/-
Is a message ever taken for control?

One connection, from the process whose user sends to the process of its peer, which goes on
with all its other connections as in `UiRun`.  Each `read` from the connection returns what
one `write` wrote.
-/
namespace LinuxEmbedded
namespace Chat
namespace UserText

open Machine
open Framing (Byte)
open UiRun (Pc)

abbrev Message := { m : List Byte // Commands.Accepted m }

/-- The connection, as the receiver counts it, with the port of the sender's handshake. -/
structure Conn where
  conn : Nat
  port : Port

/-- What the sender writes: a message of its user, or the text of `terminate` and `exit`. -/
inductive Write where
  | message (m : Message)
  | terminate

def Write.bytes : Write → List Byte
  | .message m => m.1
  | .terminate => terminateMsg

structure State where
  receiver : UiRun.State
  /-- Written and not read. -/
  inFlight : List Write
  /-- What the thread of the connection has read and not shown (ghost). -/
  inHand : Option Write
  /-- The sender's user has terminated. -/
  hungUp : Bool
  lost : Bool
  /-- The receiver's user has terminated (ghost). -/
  terminatedHere : Bool

def start : State := ⟨UiRun.start, [], none, false, false, false⟩

inductive Act where
  | send (m : Message)
  /-- `terminate` or `exit` of the sender; its `write` may fail. -/
  | hangUp (written : Bool)
  /-- The connection is lost, with all in flight but the first `kept` writes. -/
  | lose (kept : Nat)
  | receiver (a : UiRun.Act)

inductive Event where
  | sent (m : Message)
  | arrived (w : Write)
  | receiver (e : UiRun.Event)

/-- What a `read` gets: the next write, or the end. -/
def deliver (s : State) : ReadResult → Option (Option Write × List Write)
  | .data bytes =>
    match s.inFlight with
    | w :: rest => if bytes = w.bytes then some (some w, rest) else none
    | [] => none
  | .eof | .error =>
    if s.inFlight.isEmpty && (s.hungUp || s.lost) then some (none, []) else none

/-- The connection in a step of the receiver; `none` if the step cannot be. -/
def arriving (c : Conn) (s : State) : UiRun.Act → Option (Option Write × List Write)
  | .thread (.enter side _ listeningPort) =>
    if s.receiver.threads.busy side = some c.conn ∧ listeningPort ≠ c.port.toNat then none
    else some (none, s.inFlight)
  | .read conn received =>
    if s.receiver.ui conn = .reading (some c.conn) then deliver s received
    else some (none, s.inFlight)
  | _ => some (none, s.inFlight)

def hand (c : Conn) (s : State) (arrived : Option Write) (receiver : UiRun.State) :
    Option Write :=
  match s.receiver.ui c.conn, receiver.ui c.conn with
  | .reading _, .lookup _ _ => arrived
  | _, .lookup _ _ | _, .printing _ _ _ => s.inHand
  | _, _ => none

def events (arrived : Option Write) (es : List UiRun.Event) : List Event :=
  arrived.toList.map .arrived ++ es.map .receiver

def step (c : Conn) (s : State) : Act → Option (State × List Event)
  | .send m =>
    if s.hungUp then none
    else if s.lost then some (s, [.sent m])
    else some ({ s with inFlight := s.inFlight ++ [.message m] }, [.sent m])
  | .hangUp written =>
    if s.hungUp then none
    else if s.lost || !written then some ({ s with hungUp := true }, [])
    else some ({ s with inFlight := s.inFlight ++ [.terminate], hungUp := true }, [])
  | .lose kept => some ({ s with inFlight := s.inFlight.take kept, lost := true }, [])
  | .receiver a => do
    let (arrived, inFlight) ← arriving c s a
    let (receiver, es) ← UiRun.step s.receiver a
    some ({ s with
      receiver, inFlight
      inHand := hand c s arrived receiver
      terminatedHere := s.terminatedHere || OwnNumber.ends c.conn s.receiver a },
      events arrived es)

/-! ## What the user is promised -/

def messages (ws : List Write) : List (List Byte) :=
  ws.filterMap fun
    | .message m => some m.1
    | .terminate => none

def sentMessages (os : List Event) : List (List Byte) :=
  os.filterMap fun
    | .sent m => some m.1
    | _ => none

def receivedMessages (os : List Event) : List (List Byte) :=
  os.filterMap fun
    | .arrived (.message m) => some m.1
    | _ => none

/-- The thread of the connection has shown what arrived on it. -/
def shownMessages (c : Conn) (os : List Event) : List (List Byte) :=
  os.filterMap fun
    | .receiver (.shown conn file _ shown) =>
      if conn = c.conn ∧ file = c.conn then some shown.message else none
    | _ => none

def HasLeft (c : Conn) (os : List Event) : Prop := .receiver (.left c.conn) ∈ os

/-- At the end of `chat_thread`. -/
def ending : Threads.Place → Bool
  | .leaving _ | .closing _ => true
  | _ => false

/-- The thread is at its end or over. -/
def Over (c : Nat) (s : Threads.State) : Prop :=
  c < s.next ∧ ∀ fd, s.place c ≠ .handshake fd ∧ s.place c ≠ .starting fd ∧ s.place c ≠ .reading fd

/-- Unless the receiver's user terminates, the entry is in the table until the loop is left
and the descriptor open until the thread closes it.  The entry is removed and the descriptor
closed by a thread that has left the loop only, and it does not come back. -/
structure Lasts (c : Conn) (os : List Event) (u : State) : Prop where
  up : u.terminatedHere = false → OwnNumber.Up c.conn u.receiver.threads
  removes : ending (u.receiver.threads.place c.conn) = true → HasLeft c os
  atEnd : HasLeft c os → Over c.conn u.receiver.threads

/-- Every message sent arrives, unless the connection is lost, and is displayed, in order; the
loop is left after a `terminate` or `exit` or with a lost connection only, after a `terminate`
or `exit` of the sender with every message displayed; and until then the connection lasts. -/
structure Faithful (c : Conn) (os : List Event) (u : State) : Prop where
  arrives : receivedMessages os ++ messages u.inFlight <+: sentMessages os
  complete : u.lost = false → receivedMessages os ++ messages u.inFlight = sentMessages os
  ordered : shownMessages c os <+: receivedMessages os
  displays : (HasLeft c os → u.terminatedHere = false) →
    shownMessages c os ++ messages u.inHand.toList = receivedMessages os
  leaves : HasLeft c os → u.hungUp = true ∨ u.lost = true ∨ u.terminatedHere = true
  finished : HasLeft c os → u.lost = false → u.terminatedHere = false →
    shownMessages c os = sentMessages os
  lasts : Lasts c os u

/-- The message `ui_run` looks at is not `TERMINATE`. -/
def NotControl (c : Conn) (s : State) : Act → Prop
  | .receiver (.lookup conn) =>
    conn = c.conn → s.terminatedHere = false → terminateMsg ∉ messages s.inHand.toList
  | _ => True

instance (c : Conn) (s : State) (a : Act) : Decidable (NotControl c s a) :=
  match a with
  | .receiver (.lookup _) => inferInstanceAs (Decidable (_ → _ → _))
  | .send _ | .hangUp _ | .lose _ | .receiver (.thread _) | .receiver (.call _)
  | .receiver (.read _ _) | .receiver (.print _) => isTrue trivial

/-- The connection is made with a descriptor number that nothing in the receiver still
carries. -/
def FreeNumber (c : Conn) (s : State) : Act → Prop
  | .receiver a => OwnNumber.Free c.conn s.receiver a
  | _ => True

instance (c : Conn) (s : State) (a : Act) : Decidable (FreeNumber c s a) :=
  match a with
  | .receiver a => inferInstanceAs (Decidable (OwnNumber.Free c.conn s.receiver a))
  | .send _ | .hangUp _ | .lose _ => isTrue trivial

/-! ## What a step does -/

inductive Moves (c : Conn) (s : State) : Act → State → List Event → Prop where
  | send (m : Message) (hhungUp : s.hungUp = false) (hlost : s.lost = false) :
    Moves c s (.send m) { s with inFlight := s.inFlight ++ [.message m] } [.sent m]
  | sendLost (m : Message) (hlost : s.lost = true) : Moves c s (.send m) s [.sent m]
  | hangUp (written : Bool) (ws : List Write) (hhungUp : s.hungUp = false)
    (hws : ws = [] ∨ ws = [.terminate]) :
    Moves c s (.hangUp written) { s with inFlight := s.inFlight ++ ws, hungUp := true } []
  | lose (kept : Nat) :
    Moves c s (.lose kept) { s with inFlight := s.inFlight.take kept, lost := true } []
  | receiver {a : UiRun.Act} {arrived : Option Write} {inFlight : List Write}
    {receiver : UiRun.State} {es : List UiRun.Event}
    (harriving : arriving c s a = some (arrived, inFlight))
    (hmoves : UiRun.Moves s.receiver a receiver es) :
    Moves c s (.receiver a)
      { s with
        receiver, inFlight
        inHand := hand c s arrived receiver
        terminatedHere := s.terminatedHere || OwnNumber.ends c.conn s.receiver a }
      (events arrived es)

theorem step_moves {c : Conn} {s t : State} {a : Act} {os : List Event}
    (h : step c s a = some (t, os)) : Moves c s a t os := by
  cases a with
  | send m =>
    obtain ⟨hhungUp, h⟩ := Option.ite_none_left_eq_some.mp h
    split at h
    · next hlost =>
      obtain ⟨rfl, rfl⟩ := Prod.mk.inj (Option.some.inj h)
      exact .sendLost m hlost
    · next hlost =>
      obtain ⟨rfl, rfl⟩ := Prod.mk.inj (Option.some.inj h)
      exact .send m (by simpa using hhungUp) (by simpa using hlost)
  | hangUp written =>
    obtain ⟨hhungUp, h⟩ := Option.ite_none_left_eq_some.mp h
    have hnot : s.hungUp = false := by simpa using hhungUp
    split at h
    · obtain ⟨rfl, rfl⟩ := Prod.mk.inj (Option.some.inj h)
      have hnone := Moves.hangUp (c := c) (s := s) written [] hnot (Or.inl rfl)
      rwa [List.append_nil] at hnone
    · obtain ⟨rfl, rfl⟩ := Prod.mk.inj (Option.some.inj h)
      exact .hangUp written [.terminate] hnot (Or.inr rfl)
  | lose kept =>
    obtain ⟨rfl, rfl⟩ := Prod.mk.inj (Option.some.inj h)
    exact .lose kept
  | receiver a =>
    obtain ⟨⟨arrived, inFlight⟩, harriving, h⟩ := Option.bind_eq_some_iff.mp h
    obtain ⟨⟨receiver, es⟩, hstep, h⟩ := Option.bind_eq_some_iff.mp h
    obtain ⟨rfl, rfl⟩ := Prod.mk.inj (Option.some.inj h)
    exact .receiver harriving (UiRun.step_moves hstep)

/-! ## What a read gets -/

theorem Write.accepted (w : Write) : Commands.Accepted w.bytes := by
  cases w with
  | message m => exact m.2
  | terminate => decide

section Arriving

variable {c : Conn} {s : State} {a : UiRun.Act} {arrived : Option Write} {inFlight : List Write}
  (h : arriving c s a = some (arrived, inFlight))
include h

theorem arriving_names : OwnNumber.Names c.conn c.port.toNat s.receiver a := by
  rintro side ipAddr listeningPort rfl hbusy
  obtain ⟨hport, _⟩ := Option.ite_none_left_eq_some.mp h
  by_contra hne
  exact hport ⟨hbusy, hne⟩

/-- Nothing is lost or made up on the way. -/
theorem arriving_flight : arrived.toList ++ inFlight = s.inFlight := by
  unfold arriving at h
  split at h
  · obtain ⟨_, h⟩ := Option.ite_none_left_eq_some.mp h
    obtain ⟨rfl, rfl⟩ := Prod.mk.inj (Option.some.inj h)
    rfl
  · split at h
    · unfold deliver at h
      split at h
      · split at h
        · next w rest hflight =>
          obtain ⟨_, h⟩ := Option.ite_none_right_eq_some.mp h
          obtain ⟨rfl, rfl⟩ := Prod.mk.inj (Option.some.inj h)
          exact hflight.symm
        · cases h
      all_goals
        obtain ⟨hend, h⟩ := Option.ite_none_right_eq_some.mp h
        obtain ⟨rfl, rfl⟩ := Prod.mk.inj (Option.some.inj h)
        exact (List.isEmpty_iff.mp (Bool.and_eq_true_iff.mp hend).1).symm
    · obtain ⟨rfl, rfl⟩ := Prod.mk.inj (Option.some.inj h)
      rfl
  · obtain ⟨rfl, rfl⟩ := Prod.mk.inj (Option.some.inj h)
    rfl

/-- Only a read from the connection takes something from it. -/
theorem arriving_none (hread : ∀ conn received, a = .read conn received →
    s.receiver.ui conn ≠ .reading (some c.conn)) : arrived = none := by
  unfold arriving at h
  split at h
  · obtain ⟨_, h⟩ := Option.ite_none_left_eq_some.mp h
    exact (Prod.mk.inj (Option.some.inj h)).1.symm
  · next conn received =>
    rw [if_neg (hread conn received rfl)] at h
    exact (Prod.mk.inj (Option.some.inj h)).1.symm
  · exact (Prod.mk.inj (Option.some.inj h)).1.symm

end Arriving

theorem deliver_message {s : State} {received : ReadResult} {buffer : List Byte}
    {arrived : Option Write} {inFlight : List Write}
    (h : deliver s received = some (arrived, inFlight))
    (hread : chatReceiveMessage received = some buffer) :
    ∃ w, arrived = some w ∧ w.bytes = buffer := by
  unfold deliver at h
  split at h
  · split at h
    · next w rest hflight =>
      obtain ⟨hbytes, h⟩ := Option.ite_none_right_eq_some.mp h
      obtain ⟨rfl, _⟩ := Prod.mk.inj (Option.some.inj h)
      rw [hbytes, chatReceiveMessage_chunk w.accepted.1 w.accepted.2.2] at hread
      exact ⟨w, rfl, Option.some.inj hread⟩
    · cases h
  all_goals cases hread

theorem deliver_end {s : State} {received : ReadResult} {arrived : Option Write}
    {inFlight : List Write} (h : deliver s received = some (arrived, inFlight))
    (hread : chatReceiveMessage received = none) :
    arrived = none ∧ s.inFlight = [] ∧ (s.hungUp = true ∨ s.lost = true) := by
  unfold deliver at h
  split at h
  · split at h
    · next w rest hflight =>
      obtain ⟨hbytes, _⟩ := Option.ite_none_right_eq_some.mp h
      rw [hbytes, chatReceiveMessage_chunk w.accepted.1 w.accepted.2.2] at hread
      cases hread
    · cases h
  all_goals
    obtain ⟨hend, h⟩ := Option.ite_none_right_eq_some.mp h
    obtain ⟨rfl, _⟩ := Prod.mk.inj (Option.some.inj h)
    obtain ⟨hempty, hend⟩ := Bool.and_eq_true_iff.mp hend
    exact ⟨rfl, List.isEmpty_iff.mp hempty, Bool.or_eq_true_iff.mp hend⟩

/-! ## What every step keeps -/

/-- What is written and not shown. -/
def State.pending (s : State) : List Write := s.inHand.toList ++ s.inFlight

/-- The bytes in hand that arrived on the connection. -/
def heldBytes (c : Conn) : Pc → Option (List Byte)
  | .lookup file buffer | .printing file _ buffer => if file = c.conn then some buffer else none
  | .idle | .reading _ => none

/-- The connection keeps its number, its thread has in hand what it has read, and a
`TERMINATE` of `terminate` or `exit` is the last write. -/
structure Inv (c : Conn) (u : State) : Prop where
  followed : OwnNumber.Followed c.conn c.port.toNat u.terminatedHere u.receiver
  inHand : u.inHand.map Write.bytes = heldBytes c (u.receiver.ui c.conn)
  printing : ∀ file found buffer, u.receiver.ui c.conn = .printing file found buffer →
    buffer ≠ terminateMsg
  hungUp : .terminate ∈ u.pending → u.hungUp = true
  last : u.pending.Pairwise fun w _ => w ≠ .terminate

theorem inv_start (c : Conn) : Inv c start where
  followed := OwnNumber.followed_start _ _
  inHand := rfl
  printing := fun _ _ _ h => by cases h
  hungUp := fun h => (List.not_mem_nil h).elim
  last := List.Pairwise.nil

/-- How the step of the receiver looks from the connection. -/
inductive Seen (c : Conn) (s : State) (a : UiRun.Act) (arrived : Option Write)
    (receiver : UiRun.State) (es : List UiRun.Event) : Prop where
  /-- Its thread reads, shows and leaves nothing. -/
  | quiet (harrived : arrived = none) (hhand : hand c s arrived receiver = s.inHand)
    (hheld : heldBytes c (receiver.ui c.conn) = heldBytes c (s.receiver.ui c.conn))
    (hleft : .left c.conn ∉ es) (hshown : ∀ file own shown, .shown c.conn file own shown ∉ es)
    (hcontrol : NotControl c s (.receiver a))
  | reads {w : Write} {received : ReadResult} (hact : a = .read c.conn received)
    (harrived : arrived = some w) (hempty : s.inHand = none)
    (hhand : hand c s arrived receiver = some w)
    (hheld : heldBytes c (receiver.ui c.conn) = some w.bytes)
    (hes : es = [.received c.conn c.conn w.bytes])
    (hplace : ∃ fd, s.receiver.threads.place c.conn = .reading fd)
  | shows {file : Nat} {own : Option ClientInfo} {shown : Shown} (hact : a = .print c.conn)
    (harrived : arrived = none)
    (hmessage : s.inHand.map Write.bytes = if file = c.conn then some shown.message else none)
    (hmsg : shown.message ≠ terminateMsg)
    (hui : receiver.ui c.conn = .idle) (hes : es = [.shown c.conn file own shown])
    (hplace : ∃ fd, s.receiver.threads.place c.conn = .reading fd)
  | leaves {fd : Int} (harrived : arrived = none) (hui : receiver.ui c.conn = .idle)
    (hes : es = [.left c.conn]) (hplace : s.receiver.threads.place c.conn = .reading fd)
    (hthreads : receiver.threads = s.receiver.threads.setPlace c.conn (.leaving fd))
    (hwhy : s.terminatedHere = true ∨
      (s.inHand = none ∧ s.inFlight = [] ∧ (s.hungUp = true ∨ s.lost = true) ∧
        NotControl c s (.receiver a)) ∨
      (a = .lookup c.conn ∧ ∃ w, s.inHand = some w ∧ w.bytes = terminateMsg))

/-- A message is what its write wrote. -/
theorem exists_of_mem_messages {ws : List Write} {m : List Byte} (h : m ∈ messages ws) :
    ∃ w ∈ ws, w.bytes = m := by
  obtain ⟨w, hw, he⟩ := List.mem_filterMap.mp h
  cases w with
  | message m' => exact ⟨_, hw, Option.some.inj he⟩
  | terminate => cases he

section Seen

variable {c : Conn} {s : State} (hinv : Inv c s) {arrived : Option Write}
  {receiver : UiRun.State}
include hinv

/-- A step in which the thread does not move. -/
theorem hand_same (hui : receiver.ui c.conn = s.receiver.ui c.conn) :
    hand c s arrived receiver = s.inHand := by
  have hhand := hinv.inHand
  unfold hand
  rw [hui]
  cases hpc : s.receiver.ui c.conn with
  | idle | reading =>
    rw [hpc] at hhand
    exact (Option.map_eq_none_iff.mp hhand).symm
  | lookup | printing => rfl

/-- What is in hand is a write of the sender, when it arrived on the connection. -/
theorem inHand_of_bytes {buffer : List Byte}
    (hheld : heldBytes c (s.receiver.ui c.conn) = some buffer) :
    ∃ w, s.inHand = some w ∧ w.bytes = buffer :=
  Option.map_eq_some_iff.mp (hinv.inHand.trans hheld)

theorem inHand_none (hheld : heldBytes c (s.receiver.ui c.conn) = none) : s.inHand = none :=
  Option.map_eq_none_iff.mp (hinv.inHand.trans hheld)

theorem seen_quiet {a : UiRun.Act} {es : List UiRun.Event} (harrived : arrived = none)
    (hui : receiver.ui c.conn = s.receiver.ui c.conn) (hleft : .left c.conn ∉ es)
    (hshown : ∀ file own shown, .shown c.conn file own shown ∉ es)
    (hcontrol : NotControl c s (.receiver a)) : Seen c s a arrived receiver es :=
  .quiet harrived (hand_same hinv hui) (by rw [hui]) hleft hshown hcontrol

theorem seen {a : UiRun.Act} {es : List UiRun.Event} {inFlight : List Write}
    (harriving : arriving c s a = some (arrived, inFlight))
    (hmoves : UiRun.Moves s.receiver a receiver es) : Seen c s a arrived receiver es := by
  have hother : ∀ {x : Nat} (pc : Pc), x ≠ c.conn →
      (s.receiver.setUi x pc).ui c.conn = s.receiver.ui c.conn :=
    fun pc hx => UiRun.State.setUi_of_ne _ pc (Ne.symm hx)
  have gone_of_file : s.receiver.ui c.conn ≠ .idle →
      (s.receiver.ui c.conn).file? ≠ some c.conn → s.terminatedHere = true := by
    intro hne hfile
    by_contra hgone
    exact hfile (hinv.followed.own (by simpa using hgone) hne)
  -- nobody else reads from the connection
  have hnobody : ∀ {x : Nat} {file : Option Nat}, x ≠ c.conn →
      s.receiver.ui x = .reading file → s.receiver.ui x ≠ .reading (some c.conn) := by
    intro x file hx hui hown
    exact hx (hinv.followed.file x (by rw [hown]; rfl))
  cases hmoves with
  | @thread a threads es table hstep =>
    refine seen_quiet hinv (arriving_none harriving fun _ _ he => by cases he) rfl ?_ ?_ ?_
    · simp
    · simp
    · trivial
  | @call x fd hplace hui =>
    have harrived := arriving_none harriving fun _ _ he => by cases he
    by_cases hx : x = c.conn
    · subst hx
      have hidle : heldBytes c (s.receiver.ui c.conn) = none := by rw [hui]; rfl
      have hnone := inHand_none hinv hidle
      refine .quiet harrived ?_ ?_ (by simp) (by simp) trivial
      · simp [hand, hui, hnone]
      · rw [hidle, UiRun.State.setUi_self]
        rfl
    · exact seen_quiet hinv harrived (hother _ hx) (by simp) (by simp) trivial
  | @received x file fd received buffer hplace hui hread =>
    by_cases hx : x = c.conn
    · subst hx
      have hnone := inHand_none hinv (by rw [hui]; rfl)
      by_cases hfile : file = c.conn
      · subst hfile
        have hdeliver : deliver s received = some (arrived, inFlight) := by
          rw [← harriving]
          exact (if_pos hui).symm
        obtain ⟨w, rfl, rfl⟩ := deliver_message hdeliver hread
        refine .reads rfl rfl hnone ?_ ?_ rfl ⟨fd, hplace⟩
        · simp [hand, hui]
        · rw [UiRun.State.setUi_self]
          exact if_pos rfl
      · have harrived := arriving_none harriving fun conn _ he => by
          cases he
          rw [hui]
          intro heq
          cases heq
          exact hfile rfl
        refine .quiet harrived ?_ ?_ (by simp) (by simp) trivial
        · simp [hand, hui, hnone, harrived]
        · rw [UiRun.State.setUi_self, hui]
          exact if_neg hfile
    · have harrived := arriving_none harriving fun conn _ he => by
        cases he
        exact hnobody hx hui
      exact seen_quiet hinv harrived (hother _ hx) (by simp) (by simp) trivial
  | @ended x fd file received hplace hui hread =>
    by_cases hx : x = c.conn
    · subst hx
      have hnone := inHand_none hinv (by rw [hui]; rfl)
      have hidle : (s.receiver.leave c.conn fd).ui c.conn = .idle := UiRun.State.setUi_self ..
      by_cases hfile : file = some c.conn
      · have hdeliver : deliver s received = some (arrived, inFlight) := by
          rw [← harriving]
          exact (if_pos (hui.trans (by rw [hfile]))).symm
        obtain ⟨harrived, hflight, hend⟩ := deliver_end hdeliver hread
        exact .leaves harrived hidle rfl hplace rfl
          (Or.inr (Or.inl ⟨hnone, hflight, hend, trivial⟩))
      · have harrived := arriving_none harriving fun conn _ he => by
          cases he
          rw [hui]
          intro heq
          cases heq
          exact hfile rfl
        exact .leaves harrived hidle rfl hplace rfl (Or.inl (gone_of_file (by rw [hui]; simp) (by
          rw [hui]
          exact hfile)))
    · have harrived := arriving_none harriving fun conn _ he => by
        cases he
        exact hnobody hx hui
      exact seen_quiet hinv harrived (hother _ hx) (by simpa using Ne.symm hx) (by simp) trivial
  | @leave x file fd buffer hplace hui hwhy =>
    have harrived := arriving_none harriving fun _ _ he => by cases he
    by_cases hx : x = c.conn
    · subst hx
      refine .leaves harrived (UiRun.State.setUi_self ..) rfl hplace rfl ?_
      by_cases hgone : s.terminatedHere = true
      · exact Or.inl hgone
      · have hgone : s.terminatedHere = false := by simpa using hgone
        rcases hwhy with hlookup | rfl
        · exact absurd hlookup (hinv.followed.lookup_ne_none (by omega) hgone hplace)
        · have hfile := hinv.followed.own hgone (by rw [hui]; simp)
          rw [hui] at hfile
          have hheld : heldBytes c (s.receiver.ui c.conn) = some terminateMsg := by
            rw [hui]
            exact if_pos (Option.some.inj hfile)
          obtain ⟨w, hw, hbytes⟩ := inHand_of_bytes hinv hheld
          exact Or.inr (Or.inr ⟨rfl, w, hw, hbytes⟩)
    · exact seen_quiet hinv harrived (hother _ hx) (by simpa using Ne.symm hx) (by simp)
        fun he => absurd he hx
  | @found x file slot fd buffer peer hplace hui hlookup hbuffer =>
    have harrived := arriving_none harriving fun _ _ he => by cases he
    by_cases hx : x = c.conn
    · subst hx
      refine .quiet harrived ?_ ?_ (by simp) (by simp) fun _ _ => ?_
      · simp [hand, hui]
      · rw [UiRun.State.setUi_self, hui]
        rfl
      · intro hmem
        obtain ⟨w, hw, hbytes⟩ := exists_of_mem_messages hmem
        have hhand := hinv.inHand
        rw [Option.mem_toList.mp hw, hui] at hhand
        obtain ⟨_, hheld⟩ := Option.ite_none_right_eq_some.mp hhand.symm
        exact hbuffer ((Option.some.inj hheld).trans hbytes)
    · exact seen_quiet hinv harrived (hother _ hx) (by simp) (by simp) fun he => absurd he hx
  | @print x file fd found buffer info hplace hui hinfo =>
    have harrived := arriving_none harriving fun _ _ he => by cases he
    by_cases hx : x = c.conn
    · subst hx
      refine .shows rfl harrived ?_ (hinv.printing file found buffer hui)
        (UiRun.State.setUi_self ..) rfl ⟨fd, hplace⟩
      rw [hinv.inHand, hui]
      rfl
    · exact seen_quiet hinv harrived (hother _ hx) (by simp) (by simp [Ne.symm hx]) trivial

end Seen

/-- `ui_run` prints what is not `TERMINATE`. -/
theorem printing_moves {s t : UiRun.State} {a : UiRun.Act} {es : List UiRun.Event} {c : Nat}
    (h : ∀ file found buffer, s.ui c = .printing file found buffer → buffer ≠ terminateMsg)
    (hmoves : UiRun.Moves s a t es) :
    ∀ file found buffer, t.ui c = .printing file found buffer → buffer ≠ terminateMsg := by
  have hset : ∀ (x : Nat) (pc : Pc),
      (∀ file found buffer, pc = .printing file found buffer → buffer ≠ terminateMsg) →
      ∀ file found buffer, (s.setUi x pc).ui c = .printing file found buffer →
        buffer ≠ terminateMsg := by
    intro x pc hpc file found buffer hui
    by_cases hx : c = x
    · rw [hx, UiRun.State.setUi_self] at hui
      exact hpc file found buffer hui
    · rw [UiRun.State.setUi_of_ne s pc hx] at hui
      exact h file found buffer hui
  cases hmoves with
  | thread => exact h
  | call | received | print => exact hset _ _ fun _ _ _ he => by cases he
  | ended | leave => exact hset _ .idle fun _ _ _ he => by cases he
  | found _ _ _ hbuffer =>
    refine hset _ _ fun _ _ _ he => ?_
    cases he
    exact hbuffer

theorem hand_idle {c : Conn} {s : State} {arrived : Option Write} {receiver : UiRun.State}
    (hui : receiver.ui c.conn = .idle) : hand c s arrived receiver = none := by
  simp [hand, hui]

/-- A write of `terminate` or `exit` is the last. -/
theorem Inv.write {c : Conn} {u t : State} {w : Write} (h : Inv c u) (hnot : u.hungUp = false)
    (hreceiver : t.receiver = u.receiver) (hhand : t.inHand = u.inHand)
    (hhere : t.terminatedHere = u.terminatedHere) (hflight : t.inFlight = u.inFlight ++ [w])
    (hw : w = .terminate → t.hungUp = true) : Inv c t := by
  have hpending : t.pending = u.pending ++ [w] := by
    rw [State.pending, State.pending, hhand, hflight, List.append_assoc]
  have hnone : .terminate ∉ u.pending := by
    intro hmem
    rw [h.hungUp hmem] at hnot
    cases hnot
  refine ⟨?_, ?_, ?_, ?_, ?_⟩
  · rw [hreceiver, hhere]
    exact h.followed
  · rw [hreceiver, hhand]
    exact h.inHand
  · rw [hreceiver]
    exact h.printing
  · rw [hpending]
    intro hmem
    rcases List.mem_append.mp hmem with hmem | hmem
    · exact absurd hmem hnone
    · exact hw (List.mem_singleton.mp hmem).symm
  · rw [hpending, List.pairwise_append]
    refine ⟨h.last, List.pairwise_singleton _ _, ?_⟩
    rintro v hv _ _ rfl
    exact hnone hv

theorem Inv.moves {c : Conn} {u t : State} {a : Act} {os : List Event} (h : Inv c u)
    (hfree : FreeNumber c u a) (hmoves : Moves c u a t os) : Inv c t := by
  cases hmoves with
  | send m hhungUp hlost => exact h.write hhungUp rfl rfl rfl rfl fun he => by cases he
  | sendLost m hlost => exact h
  | hangUp written ws hhungUp hws =>
    rcases hws with rfl | rfl
    · refine ⟨h.followed, h.inHand, h.printing, fun _ => rfl, ?_⟩
      simpa [State.pending] using h.last
    · exact h.write hhungUp rfl rfl rfl rfl fun _ => rfl
  | lose kept =>
    have hpending : (u.inHand.toList ++ u.inFlight.take kept).Sublist u.pending :=
      (List.take_sublist _ _).append_left _
    exact ⟨h.followed, h.inHand, h.printing, fun hmem => h.hungUp (hpending.subset hmem),
      h.last.sublist hpending⟩
  | @receiver a arrived inFlight receiver es harriving hmoves =>
    have hflight := arriving_flight harriving
    have hfollowed := h.followed.moves hfree (arriving_names harriving) hmoves
    have hprinting := printing_moves h.printing hmoves
    -- what was in flight may come into the hand, and what was in the hand goes
    have hkeep : ∀ inHand : Option Write, hand c u arrived receiver = inHand →
        inHand.map Write.bytes = heldBytes c (receiver.ui c.conn) →
        (inHand.toList ++ inFlight).Sublist u.pending →
        Inv c { u with
          receiver, inFlight
          inHand := hand c u arrived receiver
          terminatedHere := u.terminatedHere || OwnNumber.ends c.conn u.receiver a } := by
      rintro _ rfl hheld hpending
      exact ⟨hfollowed, hheld, hprinting, fun hmem => h.hungUp (hpending.subset hmem),
        h.last.sublist hpending⟩
    have hgone : ∀ ws : List Write, ws = inFlight → arrived = none → ws.Sublist u.pending := by
      rintro _ rfl rfl
      rw [State.pending, ← hflight]
      exact List.sublist_append_right ..
    cases seen h harriving hmoves with
    | quiet harrived hhand hheld =>
      refine hkeep u.inHand hhand (h.inHand.trans hheld.symm) ?_
      rw [State.pending, ← hflight, harrived]
      exact List.Sublist.refl _
    | @reads w _ _ harrived _ hhand hheld =>
      refine hkeep (some w) hhand hheld.symm ?_
      rw [State.pending, ← hflight, harrived]
      exact List.sublist_append_right ..
    | shows _ harrived _ _ hui =>
      exact hkeep none (hand_idle hui) (by rw [hui]; rfl) (hgone _ rfl harrived)
    | leaves harrived hui =>
      exact hkeep none (hand_idle hui) (by rw [hui]; rfl) (hgone _ rfl harrived)

/-! ## The thread and its end -/

section Threads

variable {c : Nat} {s t : Threads.State} {a : Threads.Act} {es : List Threads.Event}

theorem Over.moves (h : Over c s) (hmoves : Threads.Moves s a t es) : Over c t := by
  obtain ⟨hlt, hplace⟩ := h
  have hset : ∀ {x : Nat} (p : Threads.Place),
      (∀ fd, p ≠ .handshake fd ∧ p ≠ .starting fd ∧ p ≠ .reading fd) →
      ∀ fd, Function.update s.place x p c ≠ .handshake fd ∧
        Function.update s.place x p c ≠ .starting fd ∧
        Function.update s.place x p c ≠ .reading fd := by
    intro x p hp fd
    by_cases hx : c = x
    · rw [hx, Function.update_self]
      exact hp fd
    · rw [Function.update_of_ne hx]
      exact hplace fd
  -- a thread before its end is another one
  have hother : ∀ {x : Nat} (p : Threads.Place), x ≠ c →
      ∀ fd, Function.update s.place x p c ≠ .handshake fd ∧
        Function.update s.place x p c ≠ .starting fd ∧
        Function.update s.place x p c ≠ .reading fd := by
    intro x p hx fd
    rw [Function.update_of_ne (Ne.symm hx)]
    exact hplace fd
  cases hmoves with
  | make => exact ⟨Nat.lt_succ_of_lt hlt, hother _ (Nat.ne_of_gt hlt)⟩
  | append _ hp | full _ hp => exact ⟨hlt, hother _ fun he => (hplace _).1 (he ▸ hp)⟩
  | create _ hp => exact ⟨hlt, hother _ fun he => (hplace _).2.1 (he ▸ hp)⟩
  | leave hp => exact ⟨hlt, hother _ fun he => (hplace _).2.2 (he ▸ hp)⟩
  | remove | close => exact ⟨hlt, hset _ fun _ => by simp⟩
  | stay | terminate | noSuchId => exact ⟨hlt, hplace⟩

/-- Outside `ui_run` no thread comes to its end. -/
theorem ending_of_moves (hout : ∀ message fd, a = .chat c message → s.place c ≠ .reading fd)
    (hmoves : Threads.Moves s a t es) (h : ending (t.place c) = true) :
    ending (s.place c) = true := by
  have hset : ∀ {x : Nat} {p : Threads.Place}, ending (Function.update s.place x p c) = true →
      (x = c → ending p = true → ending (s.place c) = true) → ending (s.place c) = true := by
    intro x p hend hp
    by_cases hx : c = x
    · rw [hx, Function.update_self] at hend
      exact hp hx.symm hend
    · rwa [Function.update_of_ne hx] at hend
  cases hmoves with
  | make => exact hset (p := .handshake _) h fun _ he => by cases he
  | append => exact hset (p := .starting _) h fun _ he => by cases he
  | full => exact hset (p := .absent) h fun _ he => by cases he
  | create => exact hset (p := .reading _) h fun _ he => by cases he
  | @leave x message fd hp =>
    refine hset (p := .leaving fd) h fun hx _ => ?_
    subst hx
    exact absurd hp (hout message fd rfl)
  | @remove x message fd hp =>
    refine hset (p := .closing fd) h fun hx _ => ?_
    rw [← hx, hp]
    rfl
  | close => exact hset (p := .absent) h fun _ he => by cases he
  | stay | terminate | noSuchId => exact h

end Threads

/-- A thread that leaves the loop. -/
theorem Over.leave {c x : Nat} {s : UiRun.State} {fd : Int}
    (hplace : s.threads.place x = .reading fd) (h : Over c s.threads) :
    Over c (s.leave x fd).threads := by
  refine ⟨h.1, fun fd' => ?_⟩
  have hx : c ≠ x := by
    rintro rfl
    exact (h.2 fd).2.2 hplace
  have hsame : (s.leave x fd).threads.place c = s.threads.place c :=
    Threads.State.setPlace_of_ne _ _ hx
  rw [hsame]
  exact h.2 fd'

theorem over_of_leave {c : Nat} {s : UiRun.State} {fd : Int} (hfresh : Threads.Fresh s.threads)
    (hplace : s.threads.place c = .reading fd) : Over c (s.leave c fd).threads := by
  refine ⟨hfresh.lt hplace (by simp), fun fd' => ?_⟩
  have hnow : (s.leave c fd).threads.place c = .leaving fd := Threads.State.setPlace_self ..
  rw [hnow]
  simp

/-- A thread comes to its end where it leaves the loop, and stays there. -/
theorem end_of_moves {c : Nat} {s r : UiRun.State} {a : UiRun.Act} {es : List UiRun.Event}
    (hfresh : Threads.Fresh s.threads) (hmoves : UiRun.Moves s a r es) :
    (ending (r.threads.place c) = true → ending (s.threads.place c) = true ∨ .left c ∈ es) ∧
      (Over c s.threads ∨ .left c ∈ es → Over c r.threads) := by
  have hleave : ∀ {x : Nat} {fd : Int}, s.threads.place x = .reading fd →
      (ending ((s.leave x fd).threads.place c) = true →
        ending (s.threads.place c) = true ∨ UiRun.Event.left c ∈ [.left x]) ∧
      (Over c s.threads ∨ UiRun.Event.left c ∈ [.left x] → Over c (s.leave x fd).threads) := by
    intro x fd hplace
    by_cases hx : c = x
    · subst hx
      exact ⟨fun _ => Or.inr (List.mem_singleton_self _), fun _ => over_of_leave hfresh hplace⟩
    · refine ⟨fun hend => Or.inl ?_, ?_⟩
      · have hend : ending ((s.threads.setPlace x _).place c) = true := hend
        rwa [Threads.State.setPlace_of_ne _ _ hx] at hend
      · rintro (hover | hmem)
        · exact hover.leave hplace
        · cases List.mem_singleton.mp hmem
          exact absurd rfl hx
  cases hmoves with
  | @thread a threads es table hstep _ hout =>
    have hthreads := Threads.step_moves hstep
    refine ⟨fun hend => Or.inl (ending_of_moves ?_ hthreads hend), ?_⟩
    · intro message fd he hplace
      have hloop := hout c message he
      rw [UiRun.State.inLoop_of_place hplace] at hloop
      cases hloop
    · rintro (hover | hmem)
      · exact hover.moves hthreads
      · simp at hmem
  | call | found => exact ⟨Or.inl, fun h => h.resolve_right (by simp)⟩
  | received | print => exact ⟨Or.inl, fun h => h.resolve_right (by simp)⟩
  | ended hplace => exact hleave hplace
  | leave hplace => exact hleave hplace

theorem hasLeft_append {c : Conn} {os os' : List Event} :
    HasLeft c (os ++ os') ↔ HasLeft c os ∨ HasLeft c os' := List.mem_append

theorem hasLeft_events {c : Conn} {os : List Event} {arrived : Option Write}
    {es : List UiRun.Event} :
    HasLeft c (os ++ events arrived es) ↔ HasLeft c os ∨ .left c.conn ∈ es := by
  rw [hasLeft_append]
  simp [HasLeft, events]

/-- What the sender does leaves the connection where it is. -/
theorem Lasts.sender {c : Conn} {os os' : List Event} {u t : State} (h : Lasts c os u)
    (hreceiver : t.receiver = u.receiver) (hhere : t.terminatedHere = u.terminatedHere)
    (hleft : ¬HasLeft c os') : Lasts c (os ++ os') t := by
  obtain ⟨hup, hremoves, hatEnd⟩ := h
  rw [← hreceiver, ← hhere] at hup
  rw [← hreceiver] at hremoves hatEnd
  exact ⟨hup, fun hend => hasLeft_append.mpr (Or.inl (hremoves hend)),
    fun hmem => hatEnd ((hasLeft_append.mp hmem).resolve_right hleft)⟩

theorem Lasts.receiver {c : Conn} {os : List Event} {u t : State} (h : Lasts c os u)
    {a : UiRun.Act} {arrived : Option Write} {es : List UiRun.Event} (hinv : Inv c u)
    (hinv' : Inv c t) (hmoves : UiRun.Moves u.receiver a t.receiver es) :
    Lasts c (os ++ events arrived es) t := by
  obtain ⟨hend, hover⟩ := end_of_moves (c := c.conn) hinv.followed.sound.fresh hmoves
  refine ⟨hinv'.followed.up, fun hnow => ?_, fun hmem => hover ?_⟩
  · exact hasLeft_events.mpr ((hend hnow).imp_left h.removes)
  · exact (hasLeft_events.mp hmem).imp_left h.atEnd

/-! ## The promise, step by step -/

theorem messages_append (ws ws' : List Write) :
    messages (ws ++ ws') = messages ws ++ messages ws' :=
  List.filterMap_append

theorem sentMessages_append (os os' : List Event) :
    sentMessages (os ++ os') = sentMessages os ++ sentMessages os' :=
  List.filterMap_append

theorem receivedMessages_append (os os' : List Event) :
    receivedMessages (os ++ os') = receivedMessages os ++ receivedMessages os' :=
  List.filterMap_append

theorem shownMessages_append (c : Conn) (os os' : List Event) :
    shownMessages c (os ++ os') = shownMessages c os ++ shownMessages c os' :=
  List.filterMap_append

section Events

variable (c : Conn) (os : List Event) (arrived : Option Write) (es : List UiRun.Event)

theorem sentMessages_events : sentMessages (os ++ events arrived es) = sentMessages os := by
  rw [sentMessages_append]
  simp [sentMessages, events]

theorem receivedMessages_events :
    receivedMessages (os ++ events arrived es) =
      receivedMessages os ++ messages arrived.toList := by
  rw [receivedMessages_append]
  congr 1
  cases arrived with
  | none => simp [receivedMessages, messages, events]
  | some w => cases w <;> simp [receivedMessages, messages, events]

theorem shownMessages_events :
    shownMessages c (os ++ events arrived es) =
      shownMessages c os ++ shownMessages c (es.map .receiver) := by
  rw [shownMessages_append, events, shownMessages_append]
  simp [shownMessages]

/-- A message sent shows nothing at the receiver. -/
theorem receiver_of_sent (m : Message) :
    receivedMessages (os ++ [.sent m]) = receivedMessages os ∧
      shownMessages c (os ++ [.sent m]) = shownMessages c os ∧
      (HasLeft c (os ++ [.sent m]) ↔ HasLeft c os) := by
  refine ⟨?_, ?_, ?_⟩
  · exact (receivedMessages_append ..).trans (List.append_nil _)
  · exact (shownMessages_append ..).trans (List.append_nil _)
  · rw [hasLeft_append, or_iff_left (by simp [HasLeft])]

end Events

theorem faithful_start (c : Conn) : Faithful c [] start where
  arrives := List.prefix_rfl
  complete := fun _ => rfl
  ordered := List.prefix_rfl
  displays := fun _ => rfl
  leaves := fun h => by cases h
  finished := fun h => by cases h
  lasts :=
    { up := fun _ => OwnNumber.up_start c.conn
      removes := fun h => by cases h
      atEnd := fun h => by cases h }

section Promise

variable {c : Conn} {os : List Event} {u : State} (h : Faithful c os u)
include h

/-- A step that moves no message of the connection, but for some lost in flight. -/
theorem Faithful.quiet {os' : List Event} {t : State} (hsent : sentMessages os' = [])
    (hreceived : receivedMessages os' = []) (hshown : shownMessages c os' = [])
    (hleft : ¬HasLeft c os') (hflight : messages t.inFlight <+: messages u.inFlight)
    (hlost : t.lost = false → u.lost = false ∧ messages t.inFlight = messages u.inFlight)
    (hhand : t.inHand = u.inHand) (hhungUp : u.hungUp = true → t.hungUp = true)
    (hhere : u.terminatedHere = true → t.terminatedHere = true)
    (hlasts : Lasts c (os ++ os') t) : Faithful c (os ++ os') t := by
  have hsent' : sentMessages (os ++ os') = sentMessages os := by
    rw [sentMessages_append, hsent, List.append_nil]
  have hreceived' : receivedMessages (os ++ os') = receivedMessages os := by
    rw [receivedMessages_append, hreceived, List.append_nil]
  have hshown' : shownMessages c (os ++ os') = shownMessages c os := by
    rw [shownMessages_append, hshown, List.append_nil]
  have hleft' : HasLeft c (os ++ os') ↔ HasLeft c os := by
    rw [hasLeft_append, or_iff_left hleft]
  have hnot : t.terminatedHere = false → u.terminatedHere = false := by
    intro ht
    by_contra hu
    rw [hhere (by simpa using hu)] at ht
    cases ht
  have hkept : t.lost = false → u.lost = false := fun ht => (hlost ht).1
  refine ⟨?_, fun ht => ?_, ?_, fun ht => ?_, fun hmem => ?_, fun hmem ht hgone => ?_, hlasts⟩
  · rw [hsent', hreceived']
    exact ((List.prefix_append_right_inj _).mpr hflight).trans h.arrives
  · rw [hsent', hreceived', (hlost ht).2]
    exact h.complete (hkept ht)
  · rw [hshown', hreceived']
    exact h.ordered
  · rw [hreceived', hshown', hhand]
    exact h.displays fun hmem => hnot (ht (hleft'.mpr hmem))
  · rcases h.leaves (hleft'.mp hmem) with he | he | he
    · exact Or.inl (hhungUp he)
    · refine Or.inr (Or.inl ?_)
      by_contra hne
      rw [hkept (by simpa using hne)] at he
      cases he
    · exact Or.inr (Or.inr (hhere he))
  · rw [hshown', hsent']
    exact h.finished (hleft'.mp hmem) (hkept ht) (hnot hgone)

theorem Faithful.send (m : Message) (hhungUp : u.hungUp = false) (hlost : u.lost = false) :
    Faithful c (os ++ [.sent m]) { u with inFlight := u.inFlight ++ [.message m] } := by
  obtain ⟨hreceived, hshown, hleft⟩ := receiver_of_sent c os m
  have hcomplete : receivedMessages (os ++ [.sent m]) ++ messages (u.inFlight ++ [.message m]) =
      sentMessages (os ++ [.sent m]) := by
    rw [hreceived, sentMessages_append, messages_append, ← List.append_assoc, h.complete hlost]
    rfl
  refine ⟨?_, fun _ => hcomplete, ?_, ?_, fun hmem => h.leaves (hleft.mp hmem), ?_, ?_⟩
  · exact hcomplete ▸ List.prefix_rfl
  · rw [hshown, hreceived]
    exact h.ordered
  · rw [hshown, hreceived, hleft]
    exact h.displays
  · -- nobody has left who had no reason to
    intro hmem _ hgone
    rcases h.leaves (hleft.mp hmem) with he | he | he
    · cases hhungUp.symm.trans he
    · cases hlost.symm.trans he
    · cases hgone.symm.trans he
  · exact h.lasts.sender rfl rfl (by simp [HasLeft])

/-- What is sent over a lost connection is lost. -/
theorem Faithful.sendLost (m : Message) (hlost : u.lost = true) :
    Faithful c (os ++ [.sent m]) u := by
  obtain ⟨hreceived, hshown, hleft⟩ := receiver_of_sent c os m
  refine ⟨?_, fun he => ?_, ?_, ?_, fun hmem => h.leaves (hleft.mp hmem), fun _ he => ?_, ?_⟩
  · rw [hreceived, sentMessages_append]
    exact h.arrives.trans (List.prefix_append _ _)
  · cases hlost.symm.trans he
  · rw [hshown, hreceived]
    exact h.ordered
  · rw [hshown, hreceived, hleft]
    exact h.displays
  · cases hlost.symm.trans he
  · exact h.lasts.sender rfl rfl (by simp [HasLeft])

/-- The thread reads a write of the sender. -/
theorem Faithful.reads {t : State} {w : Write} {buffer : List Byte} (hempty : u.inHand = none)
    (hhand : t.inHand = some w) (hflight : w :: t.inFlight = u.inFlight)
    (hflags : t.hungUp = u.hungUp ∧ t.lost = u.lost ∧ t.terminatedHere = u.terminatedHere)
    (hlasts : Lasts c (os ++ events (some w) [.received c.conn c.conn buffer]) t) :
    Faithful c (os ++ events (some w) [.received c.conn c.conn buffer]) t := by
  obtain ⟨hhungUp, hlost, hhere⟩ := hflags
  have hsent := sentMessages_events os (some w) [.received c.conn c.conn buffer]
  have hreceived := receivedMessages_events os (some w) [.received c.conn c.conn buffer]
  have hshown : shownMessages c (os ++ events (some w) [.received c.conn c.conn buffer]) =
      shownMessages c os := (shownMessages_events ..).trans (List.append_nil _)
  have hleft : HasLeft c (os ++ events (some w) [.received c.conn c.conn buffer]) ↔
      HasLeft c os := by
    rw [hasLeft_events, or_iff_left (by simp)]
  have hmoved : receivedMessages os ++ messages (some w).toList ++ messages t.inFlight =
      receivedMessages os ++ messages u.inFlight := by
    rw [List.append_assoc, ← messages_append, ← hflight]
    rfl
  have hnothing : messages u.inHand.toList = [] := by
    rw [hempty]
    rfl
  refine ⟨?_, ?_, ?_, ?_, ?_, ?_, hlasts⟩
  · rw [hsent, hreceived, hmoved]
    exact h.arrives
  · rw [hsent, hreceived, hmoved, hlost]
    exact h.complete
  · rw [hshown, hreceived]
    exact h.ordered.trans (List.prefix_append _ _)
  · rw [hleft, hhere, hshown, hreceived, hhand]
    intro hcond
    rw [← h.displays hcond, hnothing, List.append_nil]
  · rw [hleft, hhungUp, hlost, hhere]
    exact h.leaves
  · rw [hleft, hlost, hhere, hshown, hsent]
    exact h.finished

/-- The thread shows what it has in hand. -/
theorem Faithful.shows {t : State} {m : Message} {own : Option ClientInfo} {shown : Shown}
    (hloop : ¬HasLeft c os) (hhand : u.inHand = some (.message m)) (hmessage : shown.message = m.1)
    (hempty : t.inHand = none) (hflight : t.inFlight = u.inFlight) (hlost : t.lost = u.lost)
    (hlasts : Lasts c (os ++ events none [.shown c.conn c.conn own shown]) t) :
    Faithful c (os ++ events none [.shown c.conn c.conn own shown]) t := by
  have hsent := sentMessages_events os none [.shown c.conn c.conn own shown]
  have hreceived : receivedMessages (os ++ events none [.shown c.conn c.conn own shown]) =
      receivedMessages os := (receivedMessages_events ..).trans (List.append_nil _)
  have hleft : ¬HasLeft c (os ++ events none [.shown c.conn c.conn own shown]) := by
    rw [hasLeft_events, or_iff_left (by simp)]
    exact hloop
  have hall : shownMessages c (os ++ events none [.shown c.conn c.conn own shown]) =
      receivedMessages os := by
    rw [shownMessages_events, ← h.displays fun hmem => absurd hmem hloop, hhand]
    simp [shownMessages, messages, hmessage]
  refine ⟨?_, ?_, ?_, fun _ => ?_, fun hmem => absurd hmem hleft, fun hmem => absurd hmem hleft,
    hlasts⟩
  · rw [hsent, hreceived, hflight]
    exact h.arrives
  · rw [hsent, hreceived, hflight, hlost]
    exact h.complete
  · rw [hall, hreceived]
  · rw [hall, hreceived, hempty]
    exact List.append_nil _

/-- The thread leaves the loop, with everything shown or after its own user's `terminate`. -/
theorem Faithful.leave {t : State} (hflight : t.inFlight = u.inFlight) (hempty : t.inHand = none)
    (hlost : t.lost = u.lost)
    (hwhy : t.hungUp = true ∨ t.lost = true ∨ t.terminatedHere = true)
    (hshown : t.terminatedHere = false → shownMessages c os = receivedMessages os)
    (hfinished : t.terminatedHere = false → t.lost = false → messages u.inFlight = [])
    (hlasts : Lasts c (os ++ events none [.left c.conn]) t) :
    Faithful c (os ++ events none [.left c.conn]) t := by
  have hsent' := sentMessages_events os none [.left c.conn]
  have hreceived' : receivedMessages (os ++ events none [.left c.conn]) = receivedMessages os :=
    (receivedMessages_events ..).trans (List.append_nil _)
  have hshown' : shownMessages c (os ++ events none [.left c.conn]) = shownMessages c os :=
    (shownMessages_events ..).trans (List.append_nil _)
  have hleft : HasLeft c (os ++ events none [.left c.conn]) :=
    hasLeft_events.mpr (Or.inr (List.mem_singleton_self _))
  refine ⟨?_, ?_, ?_, fun hcond => ?_, fun _ => hwhy, fun _ he hgone => ?_, hlasts⟩
  · rw [hsent', hreceived', hflight]
    exact h.arrives
  · rw [hsent', hreceived', hflight, hlost]
    exact h.complete
  · rw [hshown', hreceived']
    exact h.ordered
  · rw [hshown', hreceived', hempty, hshown (hcond hleft)]
    exact List.append_nil _
  · have hcomplete := h.complete (hlost ▸ he)
    rw [hfinished hgone he, List.append_nil] at hcomplete
    rw [hshown', hsent', hshown hgone]
    exact hcomplete

/-- A message taken for control is not shown. -/
theorem Faithful.not_left {t : State} {m : Message} (hgone : u.terminatedHere = false)
    (hhand : u.inHand = some (.message m)) (hgone' : t.terminatedHere = false)
    (hempty : t.inHand = none) : ¬ Faithful c (os ++ events none [.left c.conn]) t := by
  intro hleft
  have hnothing := hleft.displays fun _ => hgone'
  rw [receivedMessages_events, shownMessages_events, ← h.displays fun _ => hgone, hhand,
    hempty] at hnothing
  have hlength := congrArg List.length hnothing
  simp [messages, shownMessages] at hlength

end Promise

theorem notControl_of_terminatedHere {c : Conn} {u : State} {a : UiRun.Act}
    (hgone : u.terminatedHere = true) : NotControl c u (.receiver a) := by
  cases a with
  | lookup conn =>
    intro _ hfalse
    rw [hgone] at hfalse
    cases hfalse
  | thread | call | read | print => trivial

/-- Nothing that arrived on the connection is shown. -/
theorem shownMessages_eq_nil {c : Conn} {es : List UiRun.Event}
    (h : ∀ own shown, .shown c.conn c.conn own shown ∉ es) :
    shownMessages c (events none es) = [] := by
  refine List.filterMap_eq_nil_iff.mpr fun e he => ?_
  obtain ⟨e, hmem, rfl⟩ := List.mem_map.mp (show e ∈ es.map .receiver from he)
  cases e with
  | shown conn file own shown =>
    refine if_neg ?_
    rintro ⟨rfl, hfile⟩
    exact h own shown (hfile ▸ hmem)
  | thread | received | left => rfl

section Step

variable {c : Conn} {os : List Event} {u : State} (h : Faithful c os u)
include h

theorem not_hasLeft {fd : Int} (hplace : u.receiver.threads.place c.conn = .reading fd) :
    ¬HasLeft c os := fun hmem => ((h.lasts.atEnd hmem).2 fd).2.2 hplace

/-- The step of the receiver takes nothing from the connection and shows nothing of it. -/
theorem receiver_quiet {t : State} {es : List UiRun.Event} (hleft : .left c.conn ∉ es)
    (hshown : ∀ own shown, .shown c.conn c.conn own shown ∉ es)
    (hflight : t.inFlight = u.inFlight) (hhand : t.inHand = u.inHand)
    (hflags : t.hungUp = u.hungUp ∧ t.lost = u.lost)
    (hhere : u.terminatedHere = true → t.terminatedHere = true)
    (hlasts : Lasts c (os ++ events none es) t) : Faithful c (os ++ events none es) t := by
  obtain ⟨hhungUp, hlost⟩ := hflags
  refine h.quiet ?_ ?_ (shownMessages_eq_nil hshown) ?_ ?_ ?_ hhand ?_ hhere hlasts
  · exact sentMessages_events [] none es
  · exact receivedMessages_events [] none es
  · intro hmem
    have hmem : HasLeft c ([] ++ events none es) := hmem
    exact hleft ((hasLeft_events.mp hmem).resolve_left List.not_mem_nil)
  · rw [hflight]
  · exact fun ht => ⟨hlost ▸ ht, by rw [hflight]⟩
  · rw [hhungUp]
    exact id

/-- Out of the loop with `TERMINATE` in hand: right for the text of `terminate` and `exit`, and
wrong for a message. -/
theorem control_iff_of_leave (hinv : Inv c u) {t : State} {w : Write}
    (hgone : u.terminatedHere = false)
    (hloop : ¬HasLeft c os) (hw : u.inHand = some w) (hbytes : w.bytes = terminateMsg)
    (hempty : t.inHand = none) (hflight : t.inFlight = u.inFlight)
    (hflags : t.hungUp = u.hungUp ∧ t.lost = u.lost ∧ t.terminatedHere = u.terminatedHere)
    (hlasts : Lasts c (os ++ events none [.left c.conn]) t) :
    NotControl c u (.receiver (.lookup c.conn)) ↔
      Faithful c (os ++ events none [.left c.conn]) t := by
  obtain ⟨hhungUp, hlost, hhere⟩ := hflags
  cases w with
  | message m =>
    refine iff_of_false (fun hcontrol => hcontrol rfl hgone ?_)
      (h.not_left hgone hw (hhere.trans hgone) hempty)
    have hbytes : m.1 = terminateMsg := hbytes
    rw [hw, ← hbytes]
    exact List.mem_singleton_self _
  | terminate =>
    have hpending : u.pending = .terminate :: u.inFlight := by
      rw [State.pending, hw]
      rfl
    have hlast := hinv.last
    rw [hpending, List.pairwise_cons] at hlast
    -- nothing is behind it
    have hnothing : u.inFlight = [] :=
      List.eq_nil_iff_forall_not_mem.mpr fun v hv => hlast.1 v hv rfl
    have hall : shownMessages c os = receivedMessages os := by
      have hdisplays := h.displays fun hmem => absurd hmem hloop
      rw [hw] at hdisplays
      exact (List.append_nil _).symm.trans hdisplays
    refine iff_of_true (fun _ _ => ?_) (h.leave hflight hempty hlost (Or.inl ?_) (fun _ => hall)
      (fun _ _ => by rw [hnothing]; rfl) hlasts)
    · rw [hw]
      exact List.not_mem_nil
    · rw [hhungUp]
      refine hinv.hungUp ?_
      rw [hpending]
      exact List.mem_cons_self

theorem receiver_iff (hinv : Inv c u) {a : UiRun.Act} {arrived : Option Write}
    {inFlight : List Write} {receiver : UiRun.State} {es : List UiRun.Event}
    (harriving : arriving c u a = some (arrived, inFlight))
    (hmoves : UiRun.Moves u.receiver a receiver es) {t : State}
    (ht : t = { u with
      receiver, inFlight
      inHand := hand c u arrived receiver
      terminatedHere := u.terminatedHere || OwnNumber.ends c.conn u.receiver a })
    (hinv' : Inv c t) :
    NotControl c u (.receiver a) ↔ Faithful c (os ++ events arrived es) t := by
  have hreceiver : t.receiver = receiver := by rw [ht]
  have hflight := arriving_flight harriving
  have hlasts : Lasts c (os ++ events arrived es) t :=
    h.lasts.receiver hinv hinv' (hreceiver ▸ hmoves)
  have hhere : u.terminatedHere = true → t.terminatedHere = true := by
    intro hu
    rw [ht, hu]
    rfl
  have hkept : arrived = none → t.inFlight = u.inFlight := by
    rintro rfl
    rw [ht]
    exact hflight
  cases seen hinv harriving hmoves with
  | quiet harrived hhand _ hleft hshown hcontrol =>
    subst harrived
    refine iff_of_true hcontrol (receiver_quiet h hleft (fun own shown => hshown _ own shown)
      (hkept rfl) ?_ ⟨by rw [ht], by rw [ht]⟩ hhere hlasts)
    rw [ht]
    exact hhand
  | reads hact harrived hempty hhand _ hes _ =>
    subst hact harrived hes
    refine iff_of_true trivial (h.reads hempty ?_ ?_ ⟨by rw [ht], by rw [ht], ?_⟩ hlasts)
    · rw [ht]
      exact hhand
    · rw [ht]
      exact hflight
    · rw [ht]
      exact Bool.or_false _
  | @shows file own shown hact harrived hmessage hmsg hui hes hplace =>
    obtain ⟨fd, hplace⟩ := hplace
    subst hact harrived hes
    have hempty : t.inHand = none := by
      rw [ht]
      exact hand_idle hui
    refine iff_of_true trivial ?_
    by_cases hfile : file = c.conn
    · subst hfile
      rw [if_pos rfl] at hmessage
      obtain ⟨w, hw, hbytes⟩ := Option.map_eq_some_iff.mp hmessage
      cases w with
      | message m =>
        exact h.shows (not_hasLeft h hplace) hw hbytes.symm hempty (hkept rfl) (by rw [ht]) hlasts
      | terminate => exact absurd hbytes.symm hmsg
    · rw [if_neg hfile] at hmessage
      have hnone := Option.map_eq_none_iff.mp hmessage
      refine receiver_quiet h (by simp) (by simp [Ne.symm hfile]) (hkept rfl)
        (hempty.trans hnone.symm) ⟨by rw [ht], by rw [ht]⟩ hhere hlasts
  | @leaves fd harrived hui hes hplace hthreads hwhy =>
    subst harrived hes
    have hempty : t.inHand = none := by
      rw [ht]
      exact hand_idle hui
    have hloop := not_hasLeft h hplace
    by_cases hgone : u.terminatedHere = true
    · have hgone' := hhere hgone
      have hnot : ∀ {p : Prop}, t.terminatedHere = false → p := by
        intro p hfalse
        rw [hgone'] at hfalse
        cases hfalse
      exact iff_of_true (notControl_of_terminatedHere hgone) (h.leave (hkept rfl) hempty
        (by rw [ht]) (Or.inr (Or.inr hgone')) hnot (fun hfalse _ => hnot hfalse) hlasts)
    · have hgone : u.terminatedHere = false := by simpa using hgone
      rcases hwhy with htrue | ⟨hnone, hnothing, hend, hcontrol⟩ | ⟨rfl, w, hw, hbytes⟩
      · rw [hgone] at htrue
        cases htrue
      · refine iff_of_true hcontrol (h.leave (hkept rfl) hempty (by rw [ht]) ?_ ?_ ?_ hlasts)
        · rw [ht]
          exact hend.imp_right Or.inl
        · intro _
          have hdisplays := h.displays fun hmem => absurd hmem hloop
          rw [hnone] at hdisplays
          exact (List.append_nil _).symm.trans hdisplays
        · intro _ _
          rw [hnothing]
          rfl
      · refine control_iff_of_leave h hinv hgone hloop hw hbytes hempty (hkept rfl)
          ⟨by rw [ht], by rw [ht], ?_⟩ hlasts
        rw [ht]
        exact Bool.or_false _

/-- A step keeps the promise exactly when it takes no message for control. -/
theorem control_iff (hinv : Inv c u) {a : Act} {t : State} {os' : List Event}
    (hmoves : Moves c u a t os') (hinv' : Inv c t) :
    NotControl c u a ↔ Faithful c (os ++ os') t := by
  have hnone : ¬HasLeft c [] := List.not_mem_nil
  cases hmoves with
  | send m hhungUp hlost => exact iff_of_true trivial (h.send m hhungUp hlost)
  | sendLost m hlost => exact iff_of_true trivial (h.sendLost m hlost)
  | hangUp written ws hhungUp hws =>
    have hmessages : messages (u.inFlight ++ ws) = messages u.inFlight := by
      rcases hws with rfl | rfl
      · rw [List.append_nil]
      · exact (messages_append ..).trans (List.append_nil _)
    exact iff_of_true trivial (h.quiet rfl rfl rfl hnone (by rw [hmessages])
      (fun hu => ⟨hu, hmessages⟩) rfl (fun _ => rfl) id (h.lasts.sender rfl rfl hnone))
  | lose kept =>
    have hcut : messages (u.inFlight.take kept) <+: messages u.inFlight :=
      (List.take_prefix _ _).filterMap _
    exact iff_of_true trivial (h.quiet rfl rfl rfl hnone hcut (fun he => by cases he) rfl id id
      (h.lasts.sender rfl rfl hnone))
  | receiver harriving hmoves => exact receiver_iff h hinv harriving hmoves rfl hinv'

end Step

/-! ## Runs -/

/-- In every run in which the connection is made with a free number: the user's messages are
displayed and the connection lasts, exactly when no message looked at is `TERMINATE`. -/
theorem text_not_control_iff {c : Conn} {as : List Act} {t : State} {os : List Event}
    (h : run (step c) start as = some (t, os)) (hfree : Meets (step c) (FreeNumber c) start as) :
    Meets (step c) (NotControl c) start as ↔ Always (step c) (Faithful c) start as :=
  meets_iff_always_of_meets (faithful_start c) (inv_start c)
    (fun _ _ _ _ hinv hu ha => hinv.moves hu (step_moves ha))
    (fun _ _ _ _ _ hinv hu hfaithful ha =>
      control_iff hfaithful hinv (step_moves ha) (hinv.moves hu (step_moves ha))) h hfree

/-- The first connection of the receiver. -/
def host : Conn := ⟨0, 5000⟩

/-- It is accepted with the number 4. -/
def connected : List Act :=
  [.receiver (.thread (.make .accept 4)), .receiver (.thread (.enter .accept [49, 46, 49] 5000)),
    .receiver (.thread (.create .accept))]

/-- `send 1 hi`, then `exit`. -/
def farewell : List Act :=
  connected ++ [.send ⟨[104, 105], by decide⟩, .receiver (.call 0),
    .receiver (.read 0 (.data [104, 105])), .receiver (.lookup 0), .receiver (.print 0),
    .hangUp true, .receiver (.call 0), .receiver (.read 0 (.data terminateMsg)),
    .receiver (.lookup 0), .receiver (.thread (.chat 0 false)),
    .receiver (.thread (.chat 0 false))]

theorem text_not_control_iff_farewell :
    ∃ t os, run (step host) start farewell = some (t, os) ∧
      shownMessages host os = [[104, 105]] ∧ t.receiver.threads.place 0 = .absent ∧
      Always (step host) (Faithful host) start farewell := by
  have hrun : ∃ t os, run (step host) start farewell = some (t, os) ∧
      shownMessages host os = [[104, 105]] ∧ t.receiver.threads.place 0 = .absent :=
    ⟨_, _, rfl, rfl, rfl⟩
  obtain ⟨t, os, h, hshown, hplace⟩ := hrun
  exact ⟨t, os, h, hshown, hplace,
    (text_not_control_iff h (by decide +kernel)).mp (by decide +kernel)⟩

/-- `send 1 TERMINATE`. -/
def typed : List Byte := Commands.cmdSend ++ [space, 49, space] ++ terminateMsg

/-- The user sends `TERMINATE` and then `hi`. -/
def cutOff : List Act :=
  connected ++ [.send ⟨terminateMsg, by decide⟩, .send ⟨[104, 105], by decide⟩,
    .receiver (.call 0), .receiver (.read 0 (.data terminateMsg)), .receiver (.lookup 0),
    .receiver (.thread (.chat 0 false)), .receiver (.thread (.chat 0 false))]

/-- `send` accepts `TERMINATE`.  With the connection up and no `terminate` or `exit`, the peer
shows nothing, leaves its loop, removes its entry and closes, and what was sent after is not
read. -/
theorem terminate_hangs_up :
    Commands.execute 0 typed = some ⟨0, .send, .send 1 terminateMsg⟩ ∧
      Meets (step host) (FreeNumber host) start cutOff ∧
      ∃ t os, run (step host) start cutOff = some (t, os) ∧
        t.receiver.threads.place 0 = .absent ∧ t.receiver.threads.clients = [] ∧
        t.hungUp = false ∧ t.lost = false ∧ t.terminatedHere = false ∧
        messages t.inFlight = [[104, 105]] ∧ sentMessages os = [terminateMsg, [104, 105]] ∧
        shownMessages host os = [] ∧
        ¬ Always (step host) (Faithful host) start cutOff := by
  have hrun : ∃ t os, run (step host) start cutOff = some (t, os) ∧
      (t.receiver.threads.place 0 = .absent ∧ t.receiver.threads.clients = [] ∧
        t.hungUp = false ∧ t.lost = false ∧ t.terminatedHere = false ∧
        messages t.inFlight = [[104, 105]] ∧ sentMessages os = [terminateMsg, [104, 105]] ∧
        shownMessages host os = []) ∧ receivedMessages os = [terminateMsg] ∧ t.inHand = none :=
    ⟨_, _, rfl, ⟨rfl, rfl, rfl, rfl, rfl, rfl, rfl, rfl⟩, rfl, rfl⟩
  obtain ⟨t, os, hrun, ⟨hplace, hclients, hhungUp, hlost, hgone, hflight, hsent, hshown⟩,
    hreceived, hempty⟩ := hrun
  refine ⟨by decide, by decide +kernel, t, os, hrun, hplace, hclients, hhungUp, hlost, hgone,
    hflight, hsent, hshown, fun hall => ?_⟩
  -- nobody has terminated, and a message that was read is not shown
  have hdisplays := (hall cutOff [] t os (List.append_nil _).symm hrun).displays fun _ => hgone
  rw [hshown, hreceived, hempty] at hdisplays
  cases hdisplays

end UserText
end Chat
end LinuxEmbedded
