import LinuxEmbedded.Lib.Framing
import LinuxEmbedded.Lib.Tokens
import Mathlib.Data.List.TakeWhile

/-
The byte stream between `log_event` and `log_process_run`, `log.c`.

Both ends work on bytes.  They are written here over cells that carry a byte and
may carry more, so that a byte can be followed from the call that wrote it to
the entry it ends up in; neither end looks at anything but the byte.  The time
in an entry is left out.
-/
namespace LinuxEmbedded
namespace Gateway
namespace LogStream

open Framing (Byte)

def newline : Byte := 10

def nul : Byte := 0

/-- `sizeof(msg_with_newline)`. -/
def msgSize : Nat := 256

section Ends

variable {α : Type}

/-- `snprintf(msg_with_newline, sizeof(msg_with_newline), "%s\n", msg)`, the bytes
`log_event` then writes. -/
def msgWithNewline (nl : α) (msg : List α) : List α := (msg ++ [nl]).take (msgSize - 1)

/-- A line of the log file. -/
structure Entry (α : Type) where
  seqNum : BitVec 32
  line : List α
  deriving DecidableEq, Repr

variable (byte : α → Byte)

/-- What `buffer[bytes_read] = '\0'` makes a C string of. -/
def cString (buffer : List α) : List α := buffer.takeWhile fun x => byte x != nul

/-- The lines `strtok_r` finds in one read. -/
def lines (buffer : List α) : List (List α) :=
  Tokens.tokens (fun x => byte x == newline) (cString byte buffer)

/-- `fprintf(log_fp, "%u %s %s\n", seq_num++, time_str, line)` for each line. -/
def writeEntries : BitVec 32 → List (List α) → List (Entry α)
  | _, [] => []
  | seqNum, line :: rest => ⟨seqNum, line⟩ :: writeEntries (seqNum + 1) rest

/-- The loop of `log_process_run` over the results of its reads. -/
def readLoop : BitVec 32 → List (List α) → List (Entry α)
  | _, [] => []
  | seqNum, buffer :: reads =>
    let found := lines byte buffer
    writeEntries seqNum found ++ readLoop (seqNum + BitVec.ofNat 32 found.length) reads

def logProcessRun (reads : List (List α)) : List (Entry α) := readLoop byte 1 reads

end Ends

/-! ## What the reader writes -/

section Reader

variable {α : Type} {byte : α → Byte}

theorem count_on (seqNum : BitVec 32) (n : Nat) :
    seqNum + 1 + BitVec.ofNat 32 n = seqNum + BitVec.ofNat 32 (n + 1) := by
  rw [BitVec.add_assoc, Nat.add_comm n 1, BitVec.ofNat_add]
  rfl

theorem writeEntries_append (seqNum : BitVec 32) (xs ys : List (List α)) :
    writeEntries seqNum (xs ++ ys) =
      writeEntries seqNum xs ++ writeEntries (seqNum + BitVec.ofNat 32 xs.length) ys := by
  induction xs generalizing seqNum with
  | nil => simp [writeEntries]
  | cons x xs ih =>
    have hnum := count_on seqNum xs.length
    show _ :: writeEntries (seqNum + 1) (xs ++ ys) = _ :: (_ ++ _)
    rw [ih, hnum]
    rfl

/-- The entries are the lines of all reads, numbered through. -/
theorem readLoop_eq (seqNum : BitVec 32) (reads : List (List α)) :
    readLoop byte seqNum reads = writeEntries seqNum (reads.flatMap (lines byte)) := by
  induction reads generalizing seqNum with
  | nil => rfl
  | cons buffer reads ih =>
    rw [readLoop, List.flatMap_cons, writeEntries_append, ih]

theorem writeEntries_length (seqNum : BitVec 32) (xs : List (List α)) :
    (writeEntries seqNum xs).length = xs.length := by
  induction xs generalizing seqNum with
  | nil => rfl
  | cons x xs ih =>
    show (writeEntries (seqNum + 1) xs).length + 1 = xs.length + 1
    rw [ih]

theorem writeEntries_getElem? (seqNum : BitVec 32) (xs : List (List α)) (i : Nat) :
    (writeEntries seqNum xs)[i]? = xs[i]?.map fun line => ⟨seqNum + BitVec.ofNat 32 i, line⟩ := by
  induction xs generalizing seqNum i with
  | nil => rfl
  | cons x xs ih =>
    cases i with
    | zero => simp [writeEntries]
    | succ i =>
      have hnum := count_on seqNum i
      show (writeEntries (seqNum + 1) xs)[i]? = xs[i]?.map _
      rw [ih, hnum]

/-- The reader sees bytes only. -/
theorem logProcessRun_map (reads : List (List α)) :
    logProcessRun id (reads.map (List.map byte)) =
      (logProcessRun byte reads).map fun e => ⟨e.seqNum, e.line.map byte⟩ := by
  have hlines : ∀ buffer : List α,
      lines id (buffer.map byte) = (lines byte buffer).map (List.map byte) := by
    intro buffer
    have hstring : cString id (buffer.map byte) = (cString byte buffer).map byte := by
      rw [cString, cString, List.takeWhile_map]
      rfl
    rw [lines, lines, hstring]
    exact Tokens.tokens_map byte (fun _ => rfl) _
  have hloop : ∀ seqNum, readLoop id seqNum (reads.map (List.map byte)) =
      (readLoop byte seqNum reads).map fun e => ⟨e.seqNum, e.line.map byte⟩ := by
    have hwrite : ∀ seqNum (xs : List (List α)), writeEntries seqNum (xs.map (List.map byte)) =
        (writeEntries seqNum xs).map fun e => ⟨e.seqNum, e.line.map byte⟩ := by
      intro seqNum xs
      induction xs generalizing seqNum with
      | nil => rfl
      | cons x xs ih => simp [writeEntries, ih]
    intro seqNum
    rw [readLoop_eq, readLoop_eq, ← hwrite, List.flatMap_map, List.map_flatMap]
    simp only [hlines]
  exact hloop 1

end Reader

/-! ## Bytes with the number of their message -/

/-- A byte in the FIFO and the number of the `log_event` call that wrote it. -/
abbrev Cell := Nat × Byte

/-- A message a caller can pass to `log_event`: a nonempty C string of one
line. -/
structure Loggable (msg : List Byte) : Prop where
  nonempty : msg ≠ []
  one_line : newline ∉ msg
  c_string : nul ∉ msg

def numbered (n : Nat) (msg : List Byte) : List Cell := msg.map fun b => (n, b)

/-- The bytes of calls `n`, `n + 1`, … one after the other. -/
def written (n : Nat) : List (List Byte) → List Cell
  | [] => []
  | msg :: msgs => msgWithNewline (n, newline) (numbered n msg) ++ written (n + 1) msgs

/-- One entry for each message, in order, numbered from 1, its text cut from that
message alone. -/
def Recorded (messages : List (List Byte)) (entries : List (Entry Cell)) : Prop :=
  entries.length = messages.length ∧
    ∀ i entry msg, entries[i]? = some entry → messages[i]? = some msg →
      entry.seqNum.toNat = i + 1 ∧ entry.line.map Prod.snd <+: msg ∧
        ∀ cell ∈ entry.line, cell.1 = i

/-- No read ends inside the first 255 bytes of a message, and one ends behind
them when they leave no room for the newline and another message follows. -/
def Aligned (cuts : List Nat) : Nat → List (List Byte) → Prop
  | _, [] => True
  | start, msg :: msgs =>
    (∀ cut ∈ cuts, ¬(start < cut ∧ cut < start + min msg.length (msgSize - 1))) ∧
      (msgSize - 1 ≤ msg.length → msgs ≠ [] → start + (msgSize - 1) ∈ cuts) ∧
      Aligned cuts (start + min (msg.length + 1) (msgSize - 1)) msgs

instance decidableAligned (cuts : List Nat) :
    (start : Nat) → (msgs : List (List Byte)) → Decidable (Aligned cuts start msgs)
  | _, [] => isTrue trivial
  | start, msg :: msgs =>
    have : Decidable (Aligned cuts (start + min (msg.length + 1) (msgSize - 1)) msgs) :=
      decidableAligned cuts _ msgs
    inferInstanceAs (Decidable (_ ∧ _ ∧ _))

def isNewline (cell : Cell) : Bool := cell.2 == newline

/-- A message as the stream shows it: what `snprintf` left of its text, and the
newline if it left that. -/
def block (n : Nat) (msg : List Byte) (h : Loggable msg) : Tokens.Block isNewline where
  text := numbered n (msg.take (msgSize - 1))
  seps := if msg.length < msgSize - 1 then [(n, newline)] else []
  text_ne := by
    intro hnil
    have hpos := List.length_pos_of_ne_nil h.nonempty
    have hlen : min (msgSize - 1) msg.length = 0 := by
      have hlen := congrArg List.length hnil
      rwa [numbered, List.length_map, List.length_take] at hlen
    simp only [msgSize] at hlen
    omega
  text_plain := by
    intro cell hcell
    obtain ⟨b, hb, rfl⟩ := List.mem_map.mp hcell
    have hne : b ≠ newline := fun he => h.one_line (he ▸ List.mem_of_mem_take hb)
    simpa [isNewline] using hne
  seps_sep := by
    intro cell hcell
    by_cases hlen : msg.length < msgSize - 1
    · rw [if_pos hlen] at hcell
      rw [List.mem_singleton.mp hcell]
      rfl
    · rw [if_neg hlen] at hcell
      cases hcell

def blocks (n : Nat) : (messages : List (List Byte)) → (∀ msg ∈ messages, Loggable msg) →
    List (Tokens.Block isNewline)
  | [], _ => []
  | msg :: msgs, h =>
    block n msg (h msg List.mem_cons_self) ::
      blocks (n + 1) msgs fun m hm => h m (List.mem_cons_of_mem msg hm)

theorem block_cells (n : Nat) {msg : List Byte} (h : Loggable msg) :
    (block n msg h).cells = msgWithNewline (n, newline) (numbered n msg) := by
  show numbered n (msg.take (msgSize - 1)) ++ (if _ then _ else _) = List.take _ (_ ++ _)
  rw [List.take_append, numbered, numbered, List.length_map, ← List.map_take]
  congr 1
  by_cases hlen : msg.length < msgSize - 1
  · rw [if_pos hlen, List.take_of_length_le]
    show 1 ≤ msgSize - 1 - msg.length
    omega
  · rw [if_neg hlen, Nat.sub_eq_zero_of_le (by omega), List.take_zero]

theorem stream_blocks (n : Nat) (messages : List (List Byte))
    (h : ∀ msg ∈ messages, Loggable msg) :
    Tokens.stream (blocks n messages h) = written n messages := by
  induction messages generalizing n with
  | nil => rfl
  | cons msg msgs ih =>
    have hrest := ih (n + 1) fun m hm => h m (List.mem_cons_of_mem msg hm)
    rw [written, ← block_cells n (h msg List.mem_cons_self), ← hrest]
    rfl

theorem clean_blocks_iff (cuts : List Nat) (start n : Nat) (messages : List (List Byte))
    (h : ∀ msg ∈ messages, Loggable msg) :
    Tokens.Clean cuts start (blocks n messages h) ↔ Aligned cuts start messages := by
  induction messages generalizing start n with
  | nil => exact Iff.rfl
  | cons msg msgs ih =>
    have hmsg := h msg List.mem_cons_self
    have hmsgs : ∀ m ∈ msgs, Loggable m := fun m hm => h m (List.mem_cons_of_mem msg hm)
    have htext : (block n msg hmsg).text.length = min msg.length (msgSize - 1) := by
      show (numbered n (msg.take (msgSize - 1))).length = _
      rw [numbered, List.length_map, List.length_take, Nat.min_comm]
    have hcells : (block n msg hmsg).cells.length = min (msg.length + 1) (msgSize - 1) := by
      rw [block_cells, msgWithNewline, List.length_take, List.length_append, numbered,
        List.length_map, List.length_singleton, Nat.min_comm]
    have hseps : (block n msg hmsg).seps = [] ↔ msgSize - 1 ≤ msg.length := by
      show (if _ then _ else _) = [] ↔ _
      by_cases hlen : msg.length < msgSize - 1
      · rw [if_pos hlen]
        simp
        omega
      · rw [if_neg hlen]
        simp
        omega
    have hnil : blocks (n + 1) msgs hmsgs ≠ [] ↔ msgs ≠ [] := by
      cases msgs <;> simp [blocks]
    show (_ ∧ _ ∧ _) ↔ (_ ∧ _ ∧ _)
    rw [htext, hcells, hseps, hnil, ih]
    constructor
    · intro ⟨hinside, hafter, hrest⟩
      refine ⟨hinside, ?_, hrest⟩
      intro hlen hne
      have hmem := hafter hlen hne
      rwa [Nat.min_eq_right hlen] at hmem
    · intro ⟨hinside, hafter, hrest⟩
      refine ⟨hinside, ?_, hrest⟩
      intro hlen hne
      rw [Nat.min_eq_right hlen]
      exact hafter hlen hne

/-- Lists of cells that carry the numbers of their places are told apart by what
they hold together. -/
theorem eq_of_flatten_eq {n : Nat} {xs ys : List (List Cell)}
    (hx : ∀ i line, xs[i]? = some line → ∀ cell ∈ line, cell.1 = n + i)
    (hy : ∀ i line, ys[i]? = some line → ∀ cell ∈ line, cell.1 = n + i)
    (hlen : xs.length = ys.length) (h : xs.flatten = ys.flatten) : xs = ys := by
  induction xs generalizing n ys with
  | nil => exact (List.eq_nil_of_length_eq_zero hlen.symm).symm
  | cons x xs ih =>
    cases ys with
    | nil => cases hlen
    | cons y ys =>
      have hshift : ∀ {zs : List (List Cell)} {z : List Cell},
          (∀ i line, (z :: zs)[i]? = some line → ∀ cell ∈ line, cell.1 = n + i) →
          ∀ i line, zs[i]? = some line → ∀ cell ∈ line, cell.1 = n + 1 + i := by
        intro zs z hz i line hi cell hcell
        rw [hz (i + 1) line hi cell hcell]
        omega
      -- the cells of the first place are those that carry its number
      have hfirst : ∀ {zs : List (List Cell)} {z : List Cell},
          (∀ i line, (z :: zs)[i]? = some line → ∀ cell ∈ line, cell.1 = n + i) →
          (z :: zs).flatten.filter (fun cell => cell.1 == n) = z := by
        intro zs z hz
        have hz0 : z.filter (fun cell => cell.1 == n) = z :=
          List.filter_eq_self.mpr fun cell hcell => by simpa using hz 0 z rfl cell hcell
        have hrest : zs.flatten.filter (fun cell => cell.1 == n) = [] := by
          apply List.filter_eq_nil_iff.mpr
          intro cell hcell
          obtain ⟨line, hline, hcell⟩ := List.mem_flatten.mp hcell
          obtain ⟨i, hi⟩ := List.getElem?_of_mem hline
          have hnum := hshift hz i line hi cell hcell
          simp only [beq_iff_eq]
          omega
        rw [List.flatten_cons, List.filter_append, hz0, hrest, List.append_nil]
      have hxy : x = y := by rw [← hfirst hx, h, hfirst hy]
      subst hxy
      rw [List.flatten_cons, List.flatten_cons] at h
      rw [ih (hshift hx) (hshift hy) (Nat.succ.inj hlen) (List.append_cancel_left h)]

/-- The text of message `i`, with its number on every byte. -/
theorem blocks_text (n : Nat) (messages : List (List Byte)) (h : ∀ msg ∈ messages, Loggable msg)
    (i : Nat) : ((blocks n messages h).map Tokens.Block.text)[i]? =
      messages[i]?.map fun msg => numbered (n + i) (msg.take (msgSize - 1)) := by
  induction messages generalizing n i with
  | nil => rfl
  | cons msg msgs ih =>
    cases i with
    | zero => rfl
    | succ i =>
      have hrest := ih (n + 1) (fun m hm => h m (List.mem_cons_of_mem msg hm)) i
      rw [Nat.add_assoc, Nat.add_comm 1 i] at hrest
      exact hrest

theorem blocks_length (n : Nat) (messages : List (List Byte))
    (h : ∀ msg ∈ messages, Loggable msg) : (blocks n messages h).length = messages.length := by
  induction messages generalizing n with
  | nil => rfl
  | cons msg msgs ih =>
    have hrest := ih (n + 1) fun m hm => h m (List.mem_cons_of_mem msg hm)
    show (blocks (n + 1) msgs _).length + 1 = msgs.length + 1
    rw [hrest]

theorem tokens_flatMap_flatten (reads : List (List Cell)) :
    (reads.flatMap (Tokens.tokens isNewline)).flatten =
      reads.flatten.filter fun cell => !isNewline cell := by
  induction reads with
  | nil => rfl
  | cons buffer reads ih =>
    rw [List.flatMap_cons, List.flatten_append, Tokens.tokens_flatten, ih, List.flatten_cons,
      List.filter_append]

theorem numbered_fst {n : Nat} {msg : List Byte} {cell : Cell} (h : cell ∈ numbered n msg) :
    cell.1 = n := by
  obtain ⟨b, _, rfl⟩ := List.mem_map.mp h
  rfl

theorem numbered_snd (n : Nat) (msg : List Byte) : (numbered n msg).map Prod.snd = msg := by
  rw [numbered, List.map_map]
  exact List.map_id msg

section Log

variable {messages : List (List Byte)} {reads : List (List Cell)}

/-- No byte in the FIFO is `\0`. -/
theorem written_c_string (h : ∀ msg ∈ messages, Loggable msg) (n : Nat) :
    ∀ cell ∈ written n messages, cell.2 ≠ nul := by
  induction messages generalizing n with
  | nil => simp [written]
  | cons msg msgs ih =>
    intro cell hcell
    rcases List.mem_append.mp hcell with hcell | hcell
    · rcases List.mem_append.mp (List.mem_of_mem_take hcell) with hcell | hcell
      · obtain ⟨b, hb, rfl⟩ := List.mem_map.mp hcell
        intro he
        exact (h msg List.mem_cons_self).c_string (he ▸ hb)
      · rw [List.mem_singleton.mp hcell]
        show newline ≠ nul
        decide
    · exact ih (fun m hm => h m (List.mem_cons_of_mem msg hm)) (n + 1) cell hcell

/-- The lines of the log file are the tokens of the reads. -/
theorem flatMap_lines (h : ∀ msg ∈ messages, Loggable msg)
    (hreads : reads.flatten = written 0 messages) :
    reads.flatMap (lines Prod.snd) = reads.flatMap (Tokens.tokens isNewline) := by
  apply List.flatMap_congr
  intro buffer hbuffer
  have hstring : cString Prod.snd buffer = buffer := by
    rw [cString, List.takeWhile_eq_self_iff]
    intro cell hcell
    have hmem : cell ∈ written 0 messages := hreads ▸ List.mem_flatten_of_mem hbuffer hcell
    simpa using written_c_string h 0 cell hmem
  rw [lines, hstring]
  rfl

/-- The log file is as it should be when its lines are the texts of the messages
and the numbers have not wrapped around. -/
theorem recorded_iff_lines (h : ∀ msg ∈ messages, Loggable msg)
    (hreads : reads.flatten = written 0 messages) :
    Recorded messages (logProcessRun Prod.snd reads) ↔ messages.length < 2 ^ 32 ∧
      reads.flatMap (Tokens.tokens isNewline) = (blocks 0 messages h).map Tokens.Block.text := by
  rw [logProcessRun, readLoop_eq, flatMap_lines h hreads]
  have htotal : (reads.flatMap (Tokens.tokens isNewline)).flatten =
      ((blocks 0 messages h).map Tokens.Block.text).flatten := by
    rw [← Tokens.stream_filter, stream_blocks, ← hreads]
    exact tokens_flatMap_flatten reads
  have htexts := blocks_text 0 messages h
  have hlength : ((blocks 0 messages h).map Tokens.Block.text).length = messages.length := by
    rw [List.length_map, blocks_length]
  generalize (blocks 0 messages h).map Tokens.Block.text = texts at htotal htexts hlength
  generalize reads.flatMap (Tokens.tokens isNewline) = found at htotal
  have hnum : ∀ i, (1 + BitVec.ofNat 32 i : BitVec 32).toNat = (1 + i) % 2 ^ 32 := by
    intro i
    rw [← BitVec.toNat_ofNat, BitVec.ofNat_add]
    rfl
  constructor
  · intro ⟨hlen, hentry⟩
    rw [writeEntries_length] at hlen
    have hget : ∀ i line, found[i]? = some line → ∃ msg, messages[i]? = some msg ∧
        (1 + i) % 2 ^ 32 = i + 1 ∧ ∀ cell ∈ line, cell.1 = i := by
      intro i line hi
      have hlt := (List.getElem?_eq_some_iff.mp hi).1
      rw [hlen] at hlt
      obtain ⟨hseq, _, hcells⟩ := hentry i _ messages[i]
        (by rw [writeEntries_getElem?, hi]; rfl) (List.getElem?_eq_getElem hlt)
      exact ⟨messages[i], List.getElem?_eq_getElem hlt, (hnum i).symm.trans hseq, hcells⟩
    constructor
    · by_cases hwrap : messages.length < 2 ^ 32
      · exact hwrap
      · -- the entry number `2 ^ 32 - 1` from 0 would carry the number 0
        have hlt : 2 ^ 32 - 1 < found.length := by omega
        obtain ⟨_, _, hseq, _⟩ := hget (2 ^ 32 - 1) found[2 ^ 32 - 1]
          (List.getElem?_eq_getElem hlt)
        omega
    · apply eq_of_flatten_eq (n := 0) ?_ ?_ (hlen.trans hlength.symm) htotal
      · intro i line hi cell hcell
        obtain ⟨_, _, _, hcells⟩ := hget i line hi
        rw [hcells cell hcell, Nat.zero_add]
      · intro i line hi cell hcell
        rw [htexts i] at hi
        obtain ⟨msg, _, rfl⟩ := Option.map_eq_some_iff.mp hi
        exact numbered_fst hcell
  · intro ⟨hwrap, hfound⟩
    rw [hfound]
    refine ⟨by rw [writeEntries_length, hlength], ?_⟩
    intro i entry msg hi hmsg
    have hlt := (List.getElem?_eq_some_iff.mp hmsg).1
    rw [writeEntries_getElem?, htexts i, hmsg] at hi
    rw [← Option.some.inj hi]
    refine ⟨?_, ?_, ?_⟩
    · have hseq := hnum i
      rw [Nat.mod_eq_of_lt (by omega), Nat.add_comm] at hseq
      exact hseq
    · show (numbered (0 + i) _).map Prod.snd <+: msg
      rw [numbered_snd]
      exact List.take_prefix _ _
    · intro cell hcell
      rw [numbered_fst hcell, Nat.zero_add]

/-- For every way the stream is cut into reads, the log file has its one entry
for each message exactly when the sequence number does not wrap around and the
cuts are aligned with the messages. -/
theorem recorded_iff_aligned (h : ∀ msg ∈ messages, Loggable msg)
    (hreads : reads.flatten = written 0 messages) :
    Recorded messages (logProcessRun Prod.snd reads) ↔
      messages.length < 2 ^ 32 ∧ Aligned (Tokens.cuts 0 reads) 0 messages := by
  have hstream : reads.flatten = [] ++ Tokens.stream (blocks 0 messages h) := by
    rw [List.nil_append, stream_blocks, hreads]
  rw [recorded_iff_lines h hreads, Tokens.tokens_eq_texts_iff (by simp) 0 hstream,
    clean_blocks_iff]
  rfl

end Log

/- A message of 300 bytes and two short ones. -/
def threeMessages : List (List Byte) := [List.replicate 300 120, [97, 98], [99]]

theorem threeMessages_loggable : ∀ msg ∈ threeMessages, Loggable msg := by
  intro msg hmsg
  simp only [threeMessages, List.mem_cons, List.not_mem_nil, or_false] at hmsg
  rcases hmsg with rfl | rfl | rfl
  · refine ⟨by decide, ?_, ?_⟩
    · intro hmem
      exact absurd (List.eq_of_mem_replicate hmem) (by decide)
    · intro hmem
      exact absurd (List.eq_of_mem_replicate hmem) (by decide)
  · exact ⟨by decide, by decide, by decide⟩
  · exact ⟨by decide, by decide, by decide⟩

/-- With a read that ends behind the 255 bytes of the long one they are recorded; with one more
that ends inside the second message they are not. -/
theorem recorded_iff_aligned_cuts :
    Recorded threeMessages (logProcessRun Prod.snd [List.replicate 255 (0, 120),
      [(1, 97), (1, 98), (1, 10), (2, 99), (2, 10)]]) ∧
    ¬Recorded threeMessages (logProcessRun Prod.snd [List.replicate 255 (0, 120), [(1, 97)],
      [(1, 98), (1, 10), (2, 99), (2, 10)]]) := by
  constructor
  · exact (recorded_iff_aligned threeMessages_loggable (by decide +kernel)).mpr
      ⟨by decide, by decide +kernel⟩
  · intro hrecorded
    have haligned := (recorded_iff_aligned threeMessages_loggable (by decide +kernel)).mp hrecorded
    exact absurd haligned.2 (by decide +kernel)

/-- A message of 300 bytes, as the SQLite callback can log it, loses its newline
in the buffer of 256 and takes the next message into its entry. -/
theorem long_message_takes_next :
    ∃ messages reads, (∀ msg ∈ messages, Loggable msg ∧ msg.length < 512) ∧
      (∀ read ∈ reads, read ≠ [] ∧ read.length ≤ 4095) ∧
      reads.flatten = written 0 messages ∧
      ¬Recorded messages (logProcessRun Prod.snd reads) := by
  let messages : List (List Byte) := [List.replicate 300 120, [98]]
  have hmessages : ∀ msg ∈ messages, Loggable msg ∧ msg.length < 512 := by
    intro msg hmsg
    simp only [messages, List.mem_cons, List.not_mem_nil, or_false] at hmsg
    rcases hmsg with rfl | rfl
    · refine ⟨⟨by decide, ?_, ?_⟩, by rw [List.length_replicate]; decide⟩
      · intro hmem
        exact absurd (List.eq_of_mem_replicate hmem) (by decide)
      · intro hmem
        exact absurd (List.eq_of_mem_replicate hmem) (by decide)
    · exact ⟨⟨by decide, by decide, by decide⟩, by decide⟩
  have hone : (logProcessRun Prod.snd [written 0 messages]).length = 1 := by decide +kernel
  refine ⟨messages, [written 0 messages], hmessages, ?_, by rw [List.flatten_singleton], ?_⟩
  · intro read hread
    rw [List.mem_singleton.mp hread]
    decide +kernel
  · intro hrecorded
    have hlen := hrecorded.1
    rw [hone] at hlen
    cases hlen

end LogStream
end Gateway
end LinuxEmbedded
