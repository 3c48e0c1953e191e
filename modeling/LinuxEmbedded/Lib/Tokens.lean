import Mathlib.Data.List.Basic
import Mathlib.Data.List.Infix

/-
Tokens of a stream that is read in pieces.

A token is a longest run of cells without a separator, as C's `strtok_r` finds
them.  A stream of blocks, each a text and the separators after it, is cut into
pieces by somebody else, and every piece is split into tokens on its own.  The
tokens are the texts exactly when no cut falls inside a text and a cut makes up
for every separator that is missing between two texts.
-/
namespace LinuxEmbedded
namespace Tokens

variable {α : Type} (sep : α → Bool)

/-- One call of `strtok_r`: the next token and what is left after the separator
that ends it. -/
def next (cells : List α) : Option (List α × List α) :=
  match cells.dropWhile sep with
  | [] => none
  | x :: xs => some (x :: xs.takeWhile fun y => !sep y, (xs.dropWhile fun y => !sep y).drop 1)

/-- The loop of calls.  The first argument bounds their number. -/
def loop : Nat → List α → List (List α)
  | 0, _ => []
  | fuel + 1, cells =>
    match next sep cells with
    | none => []
    | some (token, rest) => token :: loop fuel rest

def tokens (cells : List α) : List (List α) := loop sep cells.length cells

variable {sep}

theorem next_sep {x : α} (hx : sep x = true) (cells : List α) :
    next sep (x :: cells) = next sep cells := by
  rw [next, List.dropWhile_cons_of_pos hx]
  rfl

theorem next_cons {x : α} (hx : sep x = false) (cells : List α) :
    next sep (x :: cells) =
      some (x :: cells.takeWhile fun y => !sep y, (cells.dropWhile fun y => !sep y).drop 1) := by
  rw [next, List.dropWhile_cons_of_neg (by simp [hx])]

theorem next_length {cells token rest : List α} (h : next sep cells = some (token, rest)) :
    rest.length < cells.length := by
  induction cells with
  | nil => cases h
  | cons x cells ih =>
    by_cases hx : sep x = true
    · rw [next_sep hx] at h
      have hlt := ih h
      show rest.length < cells.length + 1
      omega
    · rw [next_cons (by simpa using hx)] at h
      obtain ⟨_, rfl⟩ := Prod.mk.inj (Option.some.inj h)
      have hle : (cells.dropWhile fun y => !sep y).length ≤ cells.length :=
        (List.dropWhile_sublist _).length_le
      rw [List.length_drop]
      show (cells.dropWhile fun y => !sep y).length - 1 < cells.length + 1
      omega

/-- Any bound from the number of cells on will do. -/
theorem loop_eq {fuel : Nat} {cells : List α} (h : cells.length ≤ fuel) :
    loop sep fuel cells = tokens sep cells := by
  have hall : ∀ n m (xs : List α), xs.length ≤ n → xs.length ≤ m →
      loop sep n xs = loop sep m xs := by
    intro n
    induction n with
    | zero =>
      intro m xs hn _
      have hnil : xs = [] := List.eq_nil_of_length_eq_zero (Nat.le_zero.mp hn)
      subst hnil
      cases m <;> rfl
    | succ n ih =>
      intro m xs hn hm
      cases m with
      | zero =>
        have hnil : xs = [] := List.eq_nil_of_length_eq_zero (Nat.le_zero.mp hm)
        subst hnil
        rfl
      | succ m =>
        show (match next sep xs with | none => [] | some (token, rest) => _) = _
        cases hnext : next sep xs with
        | none => simp [loop, hnext]
        | some q =>
          obtain ⟨token, rest⟩ := q
          have hlt := next_length hnext
          simp only [loop, hnext]
          rw [ih m rest (by omega) (by omega)]
  exact hall fuel cells.length cells h (Nat.le_refl _)

@[simp] theorem tokens_nil : tokens sep [] = [] := rfl

theorem tokens_eq {cells token rest : List α} (h : next sep cells = some (token, rest)) :
    tokens sep cells = token :: tokens sep rest := by
  have hlt := next_length h
  have hpos : cells.length = cells.length - 1 + 1 := by omega
  rw [tokens, hpos, loop]
  simp only [h]
  rw [loop_eq (by omega)]

theorem tokens_eq_nil {cells : List α} (h : next sep cells = none) : tokens sep cells = [] := by
  cases cells with
  | nil => rfl
  | cons x cells =>
    show loop sep (cells.length + 1) _ = []
    simp only [loop, h]

theorem tokens_sep {x : α} (hx : sep x = true) (cells : List α) :
    tokens sep (x :: cells) = tokens sep cells := by
  cases h : next sep cells with
  | none => rw [tokens_eq_nil h, tokens_eq_nil ((next_sep hx cells).trans h)]
  | some q => rw [tokens_eq h, tokens_eq ((next_sep hx cells).trans h)]

/-- Separators in front are skipped. -/
theorem tokens_seps {seps : List α} (h : ∀ x ∈ seps, sep x = true) (cells : List α) :
    tokens sep (seps ++ cells) = tokens sep cells := by
  induction seps with
  | nil => rfl
  | cons x seps ih =>
    rw [List.cons_append, tokens_sep (h x List.mem_cons_self),
      ih fun y hy => h y (List.mem_cons_of_mem x hy)]

/-- A text in front that a separator or the end follows is the first token. -/
theorem tokens_text {text : List α} (hne : text ≠ []) (h : ∀ x ∈ text, sep x = false)
    {cells : List α} (hend : ∀ x, cells.head? = some x → sep x = true) :
    tokens sep (text ++ cells) = text :: tokens sep cells := by
  obtain ⟨x, text, rfl⟩ := List.exists_cons_of_ne_nil hne
  have htext : ∀ y ∈ text, (!sep y) = true := by
    intro y hy
    rw [h y (List.mem_cons_of_mem x hy)]
    rfl
  have hstop : cells.takeWhile (fun y => !sep y) = [] ∧
      cells.dropWhile (fun y => !sep y) = cells := by
    cases cells with
    | nil => exact ⟨rfl, rfl⟩
    | cons y cells => simp [hend y rfl]
  have hnext : next sep (x :: (text ++ cells)) = some (x :: text, cells.drop 1) := by
    rw [next_cons (h x List.mem_cons_self), List.takeWhile_append_of_pos htext,
      List.dropWhile_append_of_pos htext, hstop.1, hstop.2, List.append_nil]
  rw [List.cons_append, tokens_eq hnext]
  congr 1
  cases cells with
  | nil => rfl
  | cons y cells => exact (tokens_sep (hend y rfl) cells).symm

theorem tokens_plain {text : List α} (hne : text ≠ []) (h : ∀ x ∈ text, sep x = false) :
    tokens sep text = [text] := by
  have hnil : ∀ x, ([] : List α).head? = some x → sep x = true := by
    intro x hx
    cases hx
  rw [← List.append_nil text, tokens_text hne h hnil, List.append_nil]
  rfl

/-- A first token is at least as long as the text it starts in. -/
theorem tokens_longer {text : List α} (hne : text ≠ []) (h : ∀ x ∈ text, sep x = false)
    {y : α} (hy : sep y = false) (cells : List α) :
    ∃ token rest, tokens sep (text ++ y :: cells) = token :: rest ∧
      text.length < token.length := by
  obtain ⟨x, text, rfl⟩ := List.exists_cons_of_ne_nil hne
  have htext : ∀ z ∈ text, (!sep z) = true := by
    intro z hz
    rw [h z (List.mem_cons_of_mem x hz)]
    rfl
  have hnext := next_cons (h x List.mem_cons_self) (text ++ y :: cells)
  rw [List.takeWhile_append_of_pos htext, List.takeWhile_cons_of_pos (by simp [hy])] at hnext
  refine ⟨_, _, tokens_eq hnext, ?_⟩
  simp only [List.length_cons, List.length_append]
  omega

/-- The tokens do not depend on what else a cell carries. -/
theorem tokens_map {β : Type} {sep' : β → Bool} (f : α → β) (h : ∀ x, sep' (f x) = sep x)
    (cells : List α) : tokens sep' (cells.map f) = (tokens sep cells).map (List.map f) := by
  have hnext : ∀ xs : List α, next sep' (xs.map f) =
      (next sep xs).map fun q => (q.1.map f, q.2.map f) := by
    have hsep : sep' ∘ f = sep := funext h
    have hplain : ((fun y => !sep' y) ∘ f) = fun y => !sep y := by
      funext x
      show (!sep' (f x)) = !sep x
      rw [h x]
    intro xs
    rw [next, next, List.dropWhile_map, hsep]
    cases xs.dropWhile sep with
    | nil => rfl
    | cons x ys =>
      show some (f x :: (ys.map f).takeWhile _, ((ys.map f).dropWhile _).drop 1) = _
      rw [List.takeWhile_map, List.dropWhile_map, hplain, ← List.map_drop]
      rfl
  have hloop : ∀ n (xs : List α), loop sep' n (xs.map f) = (loop sep n xs).map (List.map f) := by
    intro n
    induction n with
    | zero =>
      intro xs
      rfl
    | succ n ih =>
      intro xs
      simp only [loop, hnext]
      cases next sep xs with
      | none => rfl
      | some q => simp [ih]
  rw [tokens, List.length_map, hloop]
  rfl

/-- The tokens together are the cells that are no separators. -/
theorem tokens_flatten (cells : List α) :
    (tokens sep cells).flatten = cells.filter fun x => !sep x := by
  have hall : ∀ n (xs : List α), xs.length ≤ n →
      (tokens sep xs).flatten = xs.filter fun x => !sep x := by
    intro n
    induction n with
    | zero =>
      intro xs hn
      rw [List.eq_nil_of_length_eq_zero (Nat.le_zero.mp hn)]
      rfl
    | succ n ih =>
      intro xs hn
      cases xs with
      | nil => rfl
      | cons x xs =>
        have hn : xs.length ≤ n := Nat.le_of_succ_le_succ hn
        by_cases hx : sep x = true
        · rw [tokens_sep hx, ih xs hn, List.filter_cons_of_neg (by simp [hx])]
        · have hx : sep x = false := by simpa using hx
          have hlt := next_length (next_cons hx xs)
          have htext : (xs.takeWhile fun y => !sep y).filter (fun y => !sep y) =
              xs.takeWhile fun y => !sep y :=
            List.filter_eq_self.mpr fun y hy => List.all_eq_true.mp List.all_takeWhile y hy
          have hrest : ((xs.dropWhile fun y => !sep y).drop 1).filter (fun y => !sep y) =
              (xs.dropWhile fun y => !sep y).filter fun y => !sep y := by
            cases h : xs.dropWhile fun y => !sep y with
            | nil => rfl
            | cons y ys =>
              have hy := List.head?_dropWhile_not (fun y => !sep y) xs
              rw [h] at hy
              have hy : (!sep y) = false := by simpa using hy
              rw [List.filter_cons_of_neg (by simp [hy])]
              rfl
          rw [tokens_eq (next_cons hx xs), List.flatten_cons, ih _ (by simp at hlt ⊢; omega),
            hrest, List.filter_cons_of_pos (by simp [hx])]
          conv_rhs => rw [← List.takeWhile_append_dropWhile (p := fun y => !sep y) (l := xs)]
          rw [List.filter_append, htext]
          rfl
  exact hall cells.length cells (Nat.le_refl _)

/-! ## The first token -/

section First

variable (sep) in
def first (cells : List α) : Option (List α) := (next sep cells).map Prod.fst

theorem first_sep {x : α} (hx : sep x = true) (cells : List α) :
    first sep (x :: cells) = first sep cells := by
  rw [first, next_sep hx]
  rfl

theorem first_seps {seps : List α} (h : ∀ x ∈ seps, sep x = true) (cells : List α) :
    first sep (seps ++ cells) = first sep cells := by
  induction seps with
  | nil => rfl
  | cons x xs ih =>
    rw [List.cons_append, first_sep (h x List.mem_cons_self),
      ih fun y hy => h y (List.mem_cons_of_mem _ hy)]

/-- Separators at the end do not matter. -/
theorem first_append_seps (cells : List α) {seps : List α} (h : ∀ x ∈ seps, sep x = true) :
    first sep (cells ++ seps) = first sep cells := by
  induction cells with
  | nil =>
    have hseps := first_seps h []
    rw [List.append_nil] at hseps
    exact hseps
  | cons x xs ih =>
    rw [List.cons_append]
    by_cases hx : sep x = true
    · rw [first_sep hx, first_sep hx, ih]
    · have hx : sep x = false := by simpa using hx
      have htext : (xs ++ seps).takeWhile (fun y => !sep y) = xs.takeWhile fun y => !sep y := by
        have hnone : seps.takeWhile (fun y => !sep y) = [] := by
          cases seps with
          | nil => rfl
          | cons y ys =>
            exact List.takeWhile_cons_of_neg (by simp [h y List.mem_cons_self])
        rw [List.takeWhile_append, hnone, List.append_nil]
        split
        · next hall => exact ((List.takeWhile_prefix _).eq_of_length hall).symm
        · rfl
      rw [first, first, next_cons hx, next_cons hx, Option.map_some, Option.map_some, htext]

theorem first_eq_none_iff {cells : List α} :
    first sep cells = none ↔ ∀ x ∈ cells, sep x = true := by
  induction cells with
  | nil => exact iff_of_true rfl (by simp)
  | cons x xs ih =>
    by_cases hx : sep x = true
    · rw [first_sep hx, ih, List.forall_mem_cons]
      exact (and_iff_right hx).symm
    · refine iff_of_false ?_ fun hall => hx (hall x List.mem_cons_self)
      rw [first, next_cons (by simpa using hx)]
      exact Option.some_ne_none _

theorem seps_flatten {pieces : List (List α)} (h : ∀ p ∈ pieces, first sep p = none) :
    ∀ x ∈ pieces.flatten, sep x = true := by
  intro x hx
  obtain ⟨p, hp, hxp⟩ := List.mem_flatten.mp hx
  exact first_eq_none_iff.mp (h p hp) x hxp

/-- When one of the pieces has a token, the stream begins with that piece's first token. -/
theorem first_flatten {pieces : List (List α)} {p : List α}
    (h : (pieces.filter fun p => (first sep p).isSome) = [p]) :
    first sep pieces.flatten = first sep p := by
  induction pieces with
  | nil => cases h
  | cons q qs ih =>
    by_cases hq : (first sep q).isSome = true
    · rw [List.filter_cons, if_pos hq] at h
      obtain ⟨rfl, hrest⟩ := List.cons.inj h
      have hnone : ∀ r ∈ qs, first sep r = none := by
        intro r hr
        have hsome := List.filter_eq_nil_iff.mp hrest r hr
        simpa using hsome
      exact first_append_seps q (seps_flatten hnone)
    · rw [List.filter_cons, if_neg hq] at h
      have hnone : first sep q = none := by simpa using hq
      rw [List.flatten_cons, first_seps (first_eq_none_iff.mp hnone), ih h]

end First

/-! ## Streams cut into pieces -/

/-- A text and the separators after it. -/
structure Block (sep : α → Bool) where
  text : List α
  seps : List α
  text_ne : text ≠ []
  text_plain : ∀ x ∈ text, sep x = false
  seps_sep : ∀ x ∈ seps, sep x = true

namespace Block

def cells (b : Block sep) : List α := b.text ++ b.seps

theorem text_pos (b : Block sep) : 0 < b.text.length := List.length_pos_of_ne_nil b.text_ne

end Block

def stream (blocks : List (Block sep)) : List α := (blocks.map Block.cells).flatten

theorem stream_filter (blocks : List (Block sep)) :
    (stream blocks).filter (fun x => !sep x) = (blocks.map Block.text).flatten := by
  induction blocks with
  | nil => rfl
  | cons b bs ih =>
    have htext : b.text.filter (fun x => !sep x) = b.text :=
      List.filter_eq_self.mpr fun x hx => by rw [b.text_plain x hx]; rfl
    have hseps : b.seps.filter (fun x => !sep x) = [] :=
      List.filter_eq_nil_iff.mpr fun x hx => by rw [b.seps_sep x hx]; decide
    have hrest : (bs.map Block.cells).flatten.filter (fun x => !sep x) =
        (bs.map Block.text).flatten := ih
    rw [stream, List.map_cons, List.flatten_cons, List.filter_append, Block.cells,
      List.filter_append, htext, hseps, hrest, List.append_nil]
    rfl

/-- Where the pieces end, in a stream that starts at `pos`. -/
def cuts (pos : Nat) : List (List α) → List Nat
  | [] => []
  | piece :: pieces => (pos + piece.length) :: cuts (pos + piece.length) pieces

/-- No cut falls inside a text, and there is one after each text that is followed
by another text without a separator. -/
def Clean (cuts : List Nat) : Nat → List (Block sep) → Prop
  | _, [] => True
  | start, b :: bs =>
    (∀ cut ∈ cuts, ¬(start < cut ∧ cut < start + b.text.length)) ∧
      (b.seps = [] → bs ≠ [] → start + b.text.length ∈ cuts) ∧
      Clean cuts (start + b.cells.length) bs

theorem le_of_mem_cuts {pos cut : Nat} {pieces : List (List α)} (h : cut ∈ cuts pos pieces) :
    pos ≤ cut := by
  induction pieces generalizing pos with
  | nil => cases h
  | cons p ps ih =>
    rcases List.mem_cons.mp h with rfl | h
    · omega
    · have hle := ih h
      omega

/-- Cuts that lie behind do not matter. -/
theorem clean_append {early later : List Nat} {start : Nat} {blocks : List (Block sep)}
    (h : ∀ cut ∈ early, cut ≤ start) :
    Clean (early ++ later) start blocks ↔ Clean later start blocks := by
  induction blocks generalizing start with
  | nil => exact Iff.rfl
  | cons b bs ih =>
    have hpos := b.text_pos
    have hnext : ∀ cut ∈ early, cut ≤ start + b.cells.length := by
      intro cut hcut
      have hle := h cut hcut
      omega
    show (_ ∧ _ ∧ _) ↔ (_ ∧ _ ∧ _)
    rw [ih hnext]
    have hinside : (∀ cut ∈ early ++ later, ¬(start < cut ∧ cut < start + b.text.length)) ↔
        ∀ cut ∈ later, ¬(start < cut ∧ cut < start + b.text.length) := by
      constructor
      · intro hall cut hcut
        exact hall cut (List.mem_append_right early hcut)
      · intro hall cut hcut
        rcases List.mem_append.mp hcut with hcut | hcut
        · have hle := h cut hcut
          omega
        · exact hall cut hcut
    have hafter : start + b.text.length ∈ early ++ later ↔ start + b.text.length ∈ later := by
      constructor
      · intro hmem
        rcases List.mem_append.mp hmem with hmem | hmem
        · have hle := h _ hmem
          omega
        · exact hmem
      · exact List.mem_append_right early
    rw [hinside, hafter]

/-- What is left of the pieces after `seps`, which may reach over several of
them. -/
theorem skip (pos : Nat) {seps rest : List α} (hseps : ∀ x ∈ seps, sep x = true)
    {pieces : List (List α)} (h : pieces.flatten = seps ++ rest) (hrest : rest ≠ []) :
    ∃ early piece pieces', cuts pos pieces =
        early ++ cuts (pos + seps.length) (piece :: pieces') ∧
      (∀ cut ∈ early, cut ≤ pos + seps.length) ∧ piece ≠ [] ∧
      piece ++ pieces'.flatten = rest ∧
      pieces.flatMap (tokens sep) = (piece :: pieces').flatMap (tokens sep) := by
  induction pieces generalizing seps pos with
  | nil =>
    have hnil := (List.append_eq_nil_iff.mp h.symm).2
    exact absurd hnil hrest
  | cons p ps ih =>
    rw [List.flatten_cons] at h
    have hcase : (∃ seps', seps = p ++ seps' ∧ ps.flatten = seps' ++ rest) ∨
        ∃ piece, piece ≠ [] ∧ p = seps ++ piece ∧ rest = piece ++ ps.flatten := by
      rcases List.append_eq_append_iff.mp h with hshort | ⟨piece, hp, htail⟩
      · exact Or.inl hshort
      · by_cases hpiece : piece = []
        · rw [hpiece] at hp htail
          exact Or.inl ⟨[], by rw [hp, List.append_nil, List.append_nil], htail.symm⟩
        · exact Or.inr ⟨piece, hpiece, hp, htail⟩
    rcases hcase with ⟨seps', rfl, htail⟩ | ⟨piece, hpiece, rfl, htail⟩
    · -- the whole piece is separators
      have hp : ∀ x ∈ p, sep x = true := fun x hx => hseps x (List.mem_append_left _ hx)
      have hseps' : ∀ x ∈ seps', sep x = true :=
        fun x hx => hseps x (List.mem_append_right _ hx)
      obtain ⟨early, piece, pieces', hcuts, hearly, hne, hflat, htokens⟩ :=
        ih (pos + p.length) hseps' htail
      refine ⟨(pos + p.length) :: early, piece, pieces', ?_, ?_, hne, hflat, ?_⟩
      · rw [cuts, hcuts, List.length_append, Nat.add_assoc]
        rfl
      · intro cut hcut
        rw [List.length_append]
        rcases List.mem_cons.mp hcut with rfl | hcut
        · omega
        · have hle := hearly cut hcut
          omega
      · have hnone : tokens sep p = [] := by
          have := tokens_seps hp []
          rwa [List.append_nil] at this
        rw [List.flatMap_cons, hnone, htokens]
        rfl
    · refine ⟨[], piece, ps, ?_, by simp, hpiece, htail.symm, ?_⟩
      · rw [cuts, cuts, List.length_append, Nat.add_assoc]
        rfl
      · rw [List.flatMap_cons, List.flatMap_cons, tokens_seps hseps]

section Block

variable {b : Block sep} {bs : List (Block sep)} {p : List α} {ps : List (List α)} (start : Nat)

/-- A piece that ends inside a text. -/
theorem piece_short (hp : p ≠ []) (hlen : p.length < b.text.length)
    (h : p ++ ps.flatten = b.text ++ (b.seps ++ stream bs)) :
    tokens sep p ++ ps.flatMap (tokens sep) ≠ b.text :: bs.map Block.text ∧
      ¬Clean (cuts start (p :: ps)) start (b :: bs) := by
  have hpre : p <+: b.text :=
    List.prefix_of_prefix_length_le ⟨_, h⟩ ⟨_, rfl⟩ (Nat.le_of_lt hlen)
  have hplain : ∀ x ∈ p, sep x = false := fun x hx => b.text_plain x (hpre.subset hx)
  have htokens := tokens_plain hp hplain
  constructor
  · intro he
    rw [htokens] at he
    have hhead : p = b.text := (List.cons.inj he).1
    rw [hhead] at hlen
    omega
  · intro hclean
    have hpos := List.length_pos_of_ne_nil hp
    exact hclean.1 (start + p.length) List.mem_cons_self (by omega)

/-- A piece that ends with a text. -/
theorem piece_even (hlen : p.length = b.text.length)
    (h : p ++ ps.flatten = b.text ++ (b.seps ++ stream bs)) :
    (tokens sep p ++ ps.flatMap (tokens sep) = b.text :: bs.map Block.text ↔
        ps.flatMap (tokens sep) = bs.map Block.text) ∧
      ps.flatten = b.seps ++ stream bs ∧
      (Clean (cuts start (p :: ps)) start (b :: bs) ↔
        Clean (cuts (start + p.length) ps) (start + p.length + b.seps.length) bs) := by
  obtain ⟨rfl, hflat⟩ := List.append_inj h hlen
  have htokens := tokens_plain b.text_ne b.text_plain
  refine ⟨by rw [htokens]; simp, hflat, ?_⟩
  have hcells : start + b.cells.length = start + b.text.length + b.seps.length := by
    rw [Block.cells, List.length_append, Nat.add_assoc]
  have hearly : ∀ cut ∈ [start + b.text.length], cut ≤ start + b.cells.length := by
    intro cut hcut
    rw [List.mem_singleton.mp hcut]
    omega
  have hrest : Clean (cuts start (b.text :: ps)) (start + b.cells.length) bs ↔
      Clean (cuts (start + b.text.length) ps) (start + b.cells.length) bs :=
    @clean_append _ _ [start + b.text.length] _ _ _ hearly
  show (_ ∧ _ ∧ _) ↔ _
  rw [hrest, hcells]
  constructor
  · intro hclean
    exact hclean.2.2
  · intro hclean
    refine ⟨?_, fun _ _ => List.mem_cons_self, hclean⟩
    intro cut hcut
    have hpos := b.text_pos
    rcases List.mem_cons.mp hcut with rfl | hcut
    · omega
    · have hle := le_of_mem_cuts hcut
      omega

/-- A piece that goes on after a text. -/
theorem piece_long (hlen : b.text.length < p.length)
    (h : p ++ ps.flatten = b.text ++ (b.seps ++ stream bs)) :
    ∃ q, p = b.text ++ q ∧ q ++ ps.flatten = b.seps ++ stream bs ∧ q ≠ [] := by
  have hpre : b.text <+: p :=
    List.prefix_of_prefix_length_le ⟨_, rfl⟩ ⟨_, h⟩ (Nat.le_of_lt hlen)
  obtain ⟨q, rfl⟩ := hpre
  rw [List.append_assoc] at h
  refine ⟨q, rfl, List.append_cancel_left h, ?_⟩
  intro hq
  rw [hq, List.append_nil] at hlen
  omega

/-- The separator after the text is missing. -/
theorem piece_glued {q : List α} (hq : q ≠ []) (hseps : b.seps = [])
    (h : q ++ ps.flatten = stream bs) :
    tokens sep (b.text ++ q) ++ ps.flatMap (tokens sep) ≠ b.text :: bs.map Block.text ∧
      ¬Clean (cuts start ((b.text ++ q) :: ps)) start (b :: bs) := by
  obtain ⟨y, q, rfl⟩ := List.exists_cons_of_ne_nil hq
  cases bs with
  | nil => cases h
  | cons b' bs =>
    obtain ⟨x, text, htext⟩ := List.exists_cons_of_ne_nil b'.text_ne
    have hy : y = x := by
      rw [stream, List.map_cons, List.flatten_cons, Block.cells, htext] at h
      exact (List.cons.inj h).1
    have hplain : sep y = false := by
      rw [hy]
      exact b'.text_plain x (by rw [htext]; exact List.mem_cons_self)
    constructor
    · obtain ⟨token, rest, htoken, hlt⟩ := tokens_longer b.text_ne b.text_plain hplain q
      rw [htoken]
      intro he
      have hhead : token = b.text := (List.cons.inj he).1
      rw [hhead] at hlt
      omega
    · intro hclean
      have hmem := hclean.2.1 hseps (List.cons_ne_nil b' bs)
      rcases List.mem_cons.mp hmem with he | hmem
      · rw [List.length_append, List.length_cons] at he
        omega
      · have hle := le_of_mem_cuts hmem
        rw [List.length_append, List.length_cons] at hle
        omega

/-- The separator after the text is there. -/
theorem piece_separated {q : List α} (hq : q ≠ []) (hseps : b.seps ≠ [])
    (h : q ++ ps.flatten = b.seps ++ stream bs) :
    (tokens sep (b.text ++ q) ++ ps.flatMap (tokens sep) = b.text :: bs.map Block.text ↔
        (q :: ps).flatMap (tokens sep) = bs.map Block.text) ∧
      (Clean (cuts start ((b.text ++ q) :: ps)) start (b :: bs) ↔
        Clean (cuts (start + b.text.length) (q :: ps)) (start + b.text.length + b.seps.length)
          bs) := by
  obtain ⟨x, seps, hx⟩ := List.exists_cons_of_ne_nil hseps
  have hend : ∀ y, q.head? = some y → sep y = true := by
    intro y hy
    obtain ⟨z, q, rfl⟩ := List.exists_cons_of_ne_nil hq
    rw [hx] at h
    have hz : z = x := (List.cons.inj h).1
    rw [← Option.some.inj hy, hz]
    exact b.seps_sep x (by rw [hx]; exact List.mem_cons_self)
  have hcuts : cuts start ((b.text ++ q) :: ps) = cuts (start + b.text.length) (q :: ps) := by
    rw [cuts, cuts, List.length_append, Nat.add_assoc]
  have hcells : start + b.cells.length = start + b.text.length + b.seps.length := by
    rw [Block.cells, List.length_append, Nat.add_assoc]
  constructor
  · rw [tokens_text b.text_ne b.text_plain hend, List.flatMap_cons]
    simp
  · rw [hcuts]
    show (_ ∧ _ ∧ _) ↔ _
    rw [hcells]
    constructor
    · intro hclean
      exact hclean.2.2
    · intro hclean
      refine ⟨?_, fun hnil => absurd hnil hseps, hclean⟩
      intro cut hcut
      have hle := le_of_mem_cuts hcut
      omega

end Block

/-- The tokens of the pieces are the texts exactly when the cuts are clean. -/
theorem tokens_eq_texts_iff {blocks : List (Block sep)} {seps : List α}
    (hseps : ∀ x ∈ seps, sep x = true) (pos : Nat) {pieces : List (List α)}
    (h : pieces.flatten = seps ++ stream blocks) :
    pieces.flatMap (tokens sep) = blocks.map Block.text ↔
      Clean (cuts pos pieces) (pos + seps.length) blocks := by
  induction blocks generalizing seps pos pieces with
  | nil =>
    refine ⟨fun _ => trivial, fun _ => ?_⟩
    rw [List.map_nil, List.flatMap_eq_nil_iff]
    intro p hp
    have hsep : ∀ x ∈ p, sep x = true := by
      intro x hx
      apply hseps
      have hmem : x ∈ pieces.flatten := List.mem_flatten_of_mem hp hx
      rw [h] at hmem
      simpa [stream] using hmem
    have hnil := tokens_seps hsep []
    rwa [List.append_nil] at hnil
  | cons b bs ih =>
    have hrest : b.text ++ (b.seps ++ stream bs) ≠ [] := by
      intro he
      exact b.text_ne (List.append_eq_nil_iff.mp he).1
    have hstream : stream (b :: bs) = b.text ++ (b.seps ++ stream bs) := by
      rw [stream, List.map_cons, List.flatten_cons, Block.cells, List.append_assoc]
      rfl
    rw [hstream] at h
    obtain ⟨early, p, ps, hcuts, hearly, hne, hflat, htokens⟩ := skip pos hseps h hrest
    rw [hcuts, clean_append hearly, htokens, List.flatMap_cons, List.map_cons]
    generalize pos + seps.length = start
    rcases Nat.lt_trichotomy p.length b.text.length with hlen | hlen | hlen
    · obtain ⟨hno, hunclean⟩ := piece_short start hne hlen hflat
      exact ⟨fun he => absurd he hno, fun hclean => absurd hclean hunclean⟩
    · obtain ⟨htexts, hflat, hclean⟩ := piece_even start hlen hflat
      rw [htexts, hclean]
      exact ih b.seps_sep _ hflat
    · obtain ⟨q, rfl, hflat, hq⟩ := piece_long hlen hflat
      by_cases hnone : b.seps = []
      · rw [hnone, List.nil_append] at hflat
        obtain ⟨hno, hunclean⟩ := piece_glued start hq hnone hflat
        exact ⟨fun he => absurd he hno, fun hclean => absurd hclean hunclean⟩
      · obtain ⟨htexts, hclean⟩ := piece_separated start hq hnone hflat
        rw [htexts, hclean]
        exact ih b.seps_sep _ hflat

end Tokens
end LinuxEmbedded
