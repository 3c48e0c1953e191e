import LinuxEmbedded.Chat.Handshake
import LinuxEmbedded.Lib.LineBuffer
import LinuxEmbedded.Lib.Machine
import LinuxEmbedded.Lib.Tokens

/-
The commands of the user, `ui_commandHandler`.

A turn of the loop reads with `fgets` and runs the command it finds at the start of the
buffer.  It does not know whether the buffer is a whole line, and the end of the input
is one more turn without a command.
-/
namespace LinuxEmbedded
namespace Chat
namespace Commands

open Machine LineBuffer
open Framing (Byte)

def newline : Byte := 10

/-- `"help"`. -/
def cmdHelp : List Byte := [104, 101, 108, 112]

/-- `"myip"`. -/
def cmdMyip : List Byte := [109, 121, 105, 112]

/-- `"myport"`. -/
def cmdMyport : List Byte := [109, 121, 112, 111, 114, 116]

/-- `"connect"`. -/
def cmdConnect : List Byte := [99, 111, 110, 110, 101, 99, 116]

/-- `"list"`. -/
def cmdList : List Byte := [108, 105, 115, 116]

/-- `"terminate"`. -/
def cmdTerminate : List Byte := [116, 101, 114, 109, 105, 110, 97, 116, 101]

/-- `"send"`. -/
def cmdSend : List Byte := [115, 101, 110, 100]

/-- `"exit"`. -/
def cmdExit : List Byte := [101, 120, 105, 116]

/-- A branch of the handler. -/
inductive Name where
  | help
  | myip
  | myport
  | connect
  | list
  | terminate
  | send
  | exit
  | invalid
  deriving DecidableEq, Repr

def name (token : List Byte) : Name :=
  if token = cmdHelp then .help
  else if token = cmdMyip then .myip
  else if token = cmdMyport then .myport
  else if token = cmdConnect then .connect
  else if token = cmdList then .list
  else if token = cmdTerminate then .terminate
  else if token = cmdSend then .send
  else if token = cmdExit then .exit
  else .invalid

/-- What a branch does, with the arguments it found. -/
inductive Command where
  | help
  | myip
  | myport
  | connect (ipAddr : List Byte) (portNum : Int)
  | list
  | terminate (id : Int)
  | send (id : Int) (msg : List Byte)
  | messageTooLong
  | exit
  | usage (name : Name)
  | invalid
  deriving DecidableEq, Repr

def isBlank (b : Byte) : Bool := b == space

/-- `strtok(s, " ")`, with the rest of the string. -/
def strtok (s : List Byte) : Option (List Byte × List Byte) := Tokens.next isBlank s

/-- The arguments, from what is left after the command. -/
def parse (rest : List Byte) : Name → Command
  | .help => .help
  | .myip => .myip
  | .myport => .myport
  | .connect =>
    match strtok rest with
    | none => .usage .connect
    | some (ipAddr, rest) =>
      match strtok rest with
      | none => .usage .connect
      | some (portStr, _) => .connect ipAddr (atoi portStr)
  | .list => .list
  | .terminate =>
    match strtok rest with
    | none => .usage .terminate
    | some (idStr, _) => .terminate (atoi idStr)
  | .send =>
    match strtok rest with
    | none => .usage .send
    -- `strtok(NULL, "")` is the rest, unless nothing is left
    | some (idStr, msg) =>
      if msg = [] then .usage .send
      else if msgSize < msg.length then .messageTooLong
      else .send (atoi idStr) msg
  | .exit => .exit
  | .invalid => .invalid

/-- A command that was run, and the line its text is in. -/
structure Executed where
  line : Nat
  name : Name
  command : Command
  deriving DecidableEq, Repr

/-- `command[strcspn(command, "\n")] = 0`. -/
def cutLine (command : List Byte) : List Byte :=
  command.takeWhile fun b => b != newline && b != nul

def execute (line : Nat) (command : List Byte) : Option Executed :=
  (strtok (cutLine command)).map fun p => ⟨line, name p.1, parse p.2 (name p.1)⟩

/-- The handler, the input it has not read, and how many lines it has read to their end. -/
structure Ui where
  input : List Byte
  line : Nat
  running : Bool
  deriving DecidableEq, Repr

/-- `BUFF_SIZE - 1`, what `fgets` has room for. -/
def lineSize : Nat := buffSize - 1

/-- A turn of the loop.  The process may end in a command, or because of another thread:
`survives` says whether it does not. -/
def step (s : Ui) (survives : Bool) : Option (Ui × List Executed) :=
  if s.running then
    match gets lineSize newline s.input with
    | none => some ({ s with running := survives }, [])
    | some (command, rest) =>
      let executed := execute s.line command
      some (⟨rest, s.line + command.count newline,
        survives && executed.all fun e => e.name != .exit⟩, executed.toList)
  else none

def start (input : List Byte) : Ui := ⟨input, 0, true⟩

/-! ## What a message is -/

/-- What `send` accepts. -/
def Accepted (msg : List Byte) : Prop := msg ≠ [] ∧ msg.length ≤ msgSize ∧ nul ∉ msg

instance (msg : List Byte) : Decidable (Accepted msg) := inferInstanceAs (Decidable (_ ∧ _))

theorem strtok_mem {s token rest : List Byte} (h : strtok s = some (token, rest)) :
    ∀ b ∈ rest, b ∈ s := by
  induction s with
  | nil => cases h
  | cons x xs ih =>
    intro b hb
    by_cases hx : isBlank x = true
    · rw [strtok, Tokens.next_sep hx] at h
      exact List.mem_cons_of_mem _ (ih h b hb)
    · rw [strtok, Tokens.next_cons (by simpa using hx)] at h
      obtain ⟨_, rfl⟩ := Prod.mk.inj (Option.some.inj h)
      exact List.mem_cons_of_mem _ ((List.dropWhile_sublist _).subset (List.mem_of_mem_drop hb))

theorem nul_not_mem_cutLine (command : List Byte) : nul ∉ cutLine command := by
  intro h
  have hb := List.mem_takeWhile_imp h
  simp at hb

/-- Every message that is sent was accepted. -/
theorem execute_send {line : Nat} {command msg : List Byte} {id : Int} {e : Executed}
    (h : execute line command = some e) (hsend : e.command = .send id msg) : Accepted msg := by
  obtain ⟨⟨token, rest⟩, htoken, rfl⟩ := Option.map_eq_some_iff.mp h
  have hnul : nul ∉ rest := fun hmem => nul_not_mem_cutLine command (strtok_mem htoken _ hmem)
  dsimp only at hsend
  cases hname : name token with
  | send =>
    rw [hname, parse] at hsend
    cases hid : strtok rest with
    | none =>
      rw [hid] at hsend
      cases hsend
    | some p =>
      obtain ⟨idStr, text⟩ := p
      rw [hid] at hsend
      dsimp only at hsend
      by_cases hne : text = []
      · rw [if_pos hne] at hsend
        cases hsend
      · by_cases hlong : msgSize < text.length
        · rw [if_neg hne, if_pos hlong] at hsend
          cases hsend
        · rw [if_neg hne, if_neg hlong] at hsend
          obtain ⟨_, rfl⟩ := Command.send.inj hsend
          exact ⟨hne, Nat.le_of_not_lt hlong, fun hmem => hnul (strtok_mem hid _ hmem)⟩
  | connect =>
    rw [hname, parse] at hsend
    split at hsend
    · cases hsend
    · split at hsend <;> cases hsend
  | terminate =>
    rw [hname, parse] at hsend
    split at hsend <;> cases hsend
  | help | myip | myport | list | exit | invalid =>
    rw [hname] at hsend
    cases hsend

end Commands
end Chat
end LinuxEmbedded
