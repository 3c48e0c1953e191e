import LinuxEmbedded.Gateway.LogStream
import LinuxEmbedded.Lib.Decimal
import Mathlib.Data.List.SplitBy

/-
The log file, `log.c`.

Every run of the gateway appends its entries, numbered from 1, to one file, which has
no mark between two runs.  What a reader of the file needs is that the entries can be
told apart again, field by field, and the runs by the numbers.
-/
namespace LinuxEmbedded
namespace Gateway
namespace LogFile

open Framing (Byte)
open LogStream (Entry newline nul)

def space : Byte := 0x20

/-- `sizeof(time_str)` without the newline and the NUL of `ctime_r`. -/
def stampSize : Nat := 24

/-- `time_str` once its newline is cut off. -/
structure Stamp where
  bytes : List Byte
  length_eq : bytes.length = stampSize
  one_line : newline ∉ bytes

/-- One call of `fprintf`. -/
structure Record where
  seqNum : BitVec 32
  stamp : Stamp
  line : List Byte

/-- `fprintf(log_fp, "%u %s %s\n", seq_num++, time_str, line)`. -/
def Record.text (r : Record) : List Byte :=
  Decimal.text r.seqNum.toNat ++ space :: (r.stamp.bytes ++ space :: r.line) ++ [newline]

/-- One run of the gateway: the reads of its log process, and the clock at each entry. -/
structure Run where
  reads : List (List Byte)
  stamp : Nat → Stamp

/-- What the run writes. -/
def Run.records (run : Run) : List Record :=
  (LogStream.logProcessRun id run.reads).mapIdx fun i e => ⟨e.seqNum, run.stamp i, e.line⟩

/-- `fopen(log_file, "a+")` and the entries of the run. -/
def append (file : List Byte) (run : Run) : List Byte := file ++ run.records.flatMap Record.text

/-! ## Reading the file back -/

/-- An entry as a reader of the file sees it. -/
structure Parsed where
  number : Nat
  stamp : List Byte
  line : List Byte
  deriving DecidableEq, Repr

def parseRecord (line : List Byte) : Option Parsed :=
  match line.dropWhile Decimal.isDigit with
  | [] => none
  | sep :: rest =>
    match rest.drop stampSize with
    | [] => none
    | sep' :: text =>
      if sep = space ∧ sep' = space then
        some ⟨Decimal.value (line.takeWhile Decimal.isDigit), rest.take stampSize, text⟩
      else none

def endsLine (b : Byte) : Bool := b == newline

def parse (file : List Byte) : List Parsed :=
  (Tokens.tokens endsLine file).filterMap parseRecord

/-- The entries of one run follow each other by number. -/
def follows (a b : Parsed) : Bool := b.number == (a.number + 1) % 2 ^ 32

def splitRuns (file : List Byte) : List (List Parsed) := (parse file).splitBy follows

def Record.parsed (r : Record) : Parsed := ⟨r.seqNum.toNat, r.stamp.bytes, r.line⟩

/-- The line of an entry without its newline. -/
def Record.head (r : Record) : List Byte :=
  Decimal.text r.seqNum.toNat ++ space :: (r.stamp.bytes ++ space :: r.line)

theorem parseRecord_head (r : Record) : parseRecord r.head = some r.parsed := by
  have hdigits : ∀ b ∈ Decimal.text r.seqNum.toNat, Decimal.isDigit b = true :=
    fun b hb => Decimal.text_digits hb
  have hstop : Decimal.isDigit space = false := rfl
  have htake : r.head.takeWhile Decimal.isDigit = Decimal.text r.seqNum.toNat := by
    rw [Record.head, List.takeWhile_append_of_pos hdigits,
      List.takeWhile_cons_of_neg (by rw [hstop]; exact Bool.false_ne_true), List.append_nil]
  have hdrop : r.head.dropWhile Decimal.isDigit =
      space :: (r.stamp.bytes ++ space :: r.line) := by
    rw [Record.head, List.dropWhile_append_of_pos hdigits,
      List.dropWhile_cons_of_neg (by rw [hstop]; exact Bool.false_ne_true)]
  have hstamp := r.stamp.length_eq
  rw [parseRecord, hdrop, htake]
  dsimp only
  rw [List.drop_left' hstamp, List.take_left' hstamp, Decimal.value_text]
  exact if_pos ⟨rfl, rfl⟩

theorem newline_not_mem_head {r : Record} (h : newline ∉ r.line) : newline ∉ r.head := by
  have hnewline : Decimal.isDigit newline = false := rfl
  have hspace : newline ≠ space := by decide
  intro hmem
  rcases List.mem_append.mp hmem with hmem | hmem
  · rw [Decimal.text_digits hmem] at hnewline
    cases hnewline
  · rcases List.mem_cons.mp hmem with heq | hmem
    · exact hspace heq
    · rcases List.mem_append.mp hmem with hmem | hmem
      · exact r.stamp.one_line hmem
      · rcases List.mem_cons.mp hmem with heq | hmem
        · exact hspace heq
        · exact h hmem

/-- One entry more at the front of the file. -/
theorem parse_cons {r : Record} (h : newline ∉ r.line) (file : List Byte) :
    parse (r.text ++ file) = r.parsed :: parse file := by
  have hne : r.head ≠ [] := by
    rw [Record.head]
    simp
  have hplain : ∀ b ∈ r.head, endsLine b = false := by
    intro b hb
    rw [endsLine, beq_eq_false_iff_ne]
    intro he
    rw [he] at hb
    exact newline_not_mem_head h hb
  have hsep : endsLine newline = true := rfl
  have hend : ∀ b, (newline :: file).head? = some b → endsLine b = true := by
    intro b hb
    rw [← Option.some.inj hb]
    exact hsep
  have hsplit : r.text ++ file = r.head ++ newline :: file := List.append_assoc ..
  rw [parse, hsplit, Tokens.tokens_text hne hplain hend, Tokens.tokens_sep hsep,
    List.filterMap_cons_some (parseRecord_head r)]
  rfl

theorem parse_records {records : List Record} (h : ∀ r ∈ records, newline ∉ r.line) :
    parse (records.flatMap Record.text) = records.map Record.parsed := by
  induction records with
  | nil => rfl
  | cons r records ih =>
    rw [List.flatMap_cons, parse_cons (h r List.mem_cons_self),
      ih fun q hq => h q (List.mem_cons_of_mem r hq), List.map_cons]

/-! ## What a run writes -/

theorem newline_not_mem_token {buffer line : List Byte} (h : line ∈ LogStream.lines id buffer) :
    newline ∉ line := by
  intro hmem
  have hcells : newline ∈ (LogStream.lines id buffer).flatten :=
    List.mem_flatten.mpr ⟨line, h, hmem⟩
  rw [LogStream.lines, Tokens.tokens_flatten] at hcells
  simp at hcells

theorem records_getElem? (run : Run) (i : Nat) :
    run.records[i]? = (run.reads.flatMap (LogStream.lines id))[i]?.map fun line =>
      ⟨1 + BitVec.ofNat 32 i, run.stamp i, line⟩ := by
  rw [Run.records, List.getElem?_mapIdx, LogStream.logProcessRun, LogStream.readLoop_eq,
    LogStream.writeEntries_getElem?, Option.map_map]
  rfl

theorem records_one_line (run : Run) : ∀ r ∈ run.records, newline ∉ r.line := by
  intro r hr
  obtain ⟨i, hi⟩ := List.mem_iff_getElem?.mp hr
  rw [records_getElem?] at hi
  obtain ⟨line, hline, rfl⟩ := Option.map_eq_some_iff.mp hi
  obtain ⟨buffer, -, hbuffer⟩ := List.mem_flatMap.mp (List.mem_of_getElem? hline)
  exact newline_not_mem_token hbuffer

theorem number_eq {run : Run} {i : Nat} {r : Record} (h : run.records[i]? = some r) :
    r.parsed.number = (i + 1) % 2 ^ 32 := by
  rw [records_getElem?] at h
  obtain ⟨line, -, rfl⟩ := Option.map_eq_some_iff.mp h
  show (1 + BitVec.ofNat 32 i).toNat = _
  rw [BitVec.toNat_add, BitVec.toNat_ofNat, Nat.add_comm]
  show (i % 2 ^ 32 + 1) % 2 ^ 32 = _
  rw [Nat.mod_add_mod]

/-- Consecutive entries of a run follow each other. -/
theorem records_isChain (run : Run) :
    (run.records.map Record.parsed).IsChain fun a b => follows a b = true := by
  rw [List.isChain_iff_getElem]
  intro i hi
  rw [List.length_map] at hi
  rw [List.getElem_map, List.getElem_map, follows, beq_iff_eq,
    number_eq (List.getElem?_eq_getElem hi), number_eq (List.getElem?_eq_getElem (by omega)),
    Nat.mod_add_mod]

theorem head_number {run : Run} (h : run.records.map Record.parsed ≠ []) :
    ((run.records.map Record.parsed).head h).number = 1 := by
  have hpos : 0 < run.records.length := by
    have hpos := List.length_pos_of_ne_nil h
    rwa [List.length_map] at hpos
  rw [List.head_eq_getElem, List.getElem_map, number_eq (List.getElem?_eq_getElem hpos)]
  rfl

theorem last_number {run : Run} (h : run.records.map Record.parsed ≠ []) :
    ((run.records.map Record.parsed).getLast h).number = run.records.length % 2 ^ 32 := by
  have hpos : 0 < run.records.length := by
    have hpos := List.length_pos_of_ne_nil h
    rwa [List.length_map] at hpos
  have hlast : run.records.length - 1 < run.records.length := by omega
  simp only [List.getLast_eq_getElem, List.getElem_map, List.length_map]
  rw [number_eq (List.getElem?_eq_getElem hlast), Nat.sub_add_cancel hpos]

theorem foldl_append (file : List Byte) (runs : List Run) :
    runs.foldl append file = file ++ (runs.flatMap Run.records).flatMap Record.text := by
  induction runs generalizing file with
  | nil => exact (List.append_nil file).symm
  | cons run runs ih =>
    rw [List.foldl_cons, ih, append, List.flatMap_cons, List.flatMap_append, List.append_assoc]

/-- The file gives back every entry of every run, number, time and text, and the runs apart,
unless a run logged nothing or a multiple of 2 ^ 32 entries. -/
theorem log_file_round_trip {runs : List Run}
    (h : ∀ run ∈ runs, run.records.length % 2 ^ 32 ≠ 0) :
    splitRuns (runs.foldl append []) = runs.map fun run => run.records.map Record.parsed := by
  have hline : ∀ r ∈ runs.flatMap Run.records, newline ∉ r.line := by
    intro r hr
    obtain ⟨run, -, hr⟩ := List.mem_flatMap.mp hr
    exact records_one_line run r hr
  have hnonempty : ∀ run ∈ runs, run.records.map Record.parsed ≠ [] := by
    intro run hrun hnil
    have hzero := congrArg List.length hnil
    rw [List.length_map] at hzero
    have hlength := h run hrun
    rw [hzero] at hlength
    exact hlength rfl
  rw [splitRuns, foldl_append, List.nil_append, parse_records hline, List.splitBy_eq_iff]
  refine ⟨?_, ?_, ?_, ?_⟩
  · rw [List.map_flatMap, List.flatMap_def]
  · intro hmem
    obtain ⟨run, hrun, hnil⟩ := List.mem_map.mp hmem
    exact hnonempty run hrun hnil
  · intro parsed hparsed
    obtain ⟨run, -, rfl⟩ := List.mem_map.mp hparsed
    exact records_isChain run
  · -- between two runs the number falls back to 1
    rw [List.isChain_map]
    refine List.Pairwise.isChain (List.pairwise_iff_forall_sublist.mpr ?_)
    intro run run' hsub
    have hmem : run ∈ runs := hsub.subset List.mem_cons_self
    have hmem' : run' ∈ runs := hsub.subset (List.mem_cons_of_mem _ List.mem_cons_self)
    refine ⟨hnonempty run hmem, hnonempty run' hmem', ?_⟩
    rw [follows, beq_eq_false_iff_ne, head_number, last_number]
    have hlength := h run hmem
    omega

/- "Wed Jun 30 21:49:08 1993" -/
def aStamp : Stamp where
  bytes := [0x57, 0x65, 0x64, 0x20, 0x4a, 0x75, 0x6e, 0x20, 0x33, 0x30, 0x20, 0x32, 0x31, 0x3a,
    0x34, 0x39, 0x3a, 0x30, 0x38, 0x20, 0x31, 0x39, 0x39, 0x33]
  length_eq := rfl
  one_line := by decide

/- Two runs, the text of an entry of the second looking like an entry itself. -/
def aRun : Run := ⟨[[0x61, newline, 0x62], [newline]], fun _ => aStamp⟩

def anotherRun : Run := ⟨[[0x32, space, 0x61, newline]], fun _ => aStamp⟩

theorem log_file_round_trip_two :
    splitRuns ([aRun, anotherRun].foldl append []) =
      [aRun, anotherRun].map fun run => run.records.map Record.parsed := by
  apply log_file_round_trip
  intro run hrun
  rcases List.mem_cons.mp hrun with rfl | hrun
  · decide
  · rw [List.mem_singleton.mp hrun]
    decide

end LogFile
end Gateway
end LinuxEmbedded
