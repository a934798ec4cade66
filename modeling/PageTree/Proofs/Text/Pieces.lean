import Mathlib.Data.List.DropRight
import Mathlib.Data.List.Pairwise
import PageTree.Text.Quotes

/-!
Joining undone. A text that has the separator in quotes only stays unsplit, and it is whole when it
also closes every quote it opens. Texts joined by the separator are split into what they were joined
from when all but the last are whole, and the pieces of any text are of this kind, trimmed or not. A
text without blanks at its ends is what trimming leaves of it, and a number is read off the text
that it was written in front of.
-/

namespace PageTree.Text

theorem forall_mem_intercalate {p : Char → Prop} {sep : Char} {pieces : List (List Char)}
    (between : p sep) (each : ∀ piece ∈ pieces, ∀ c ∈ piece, p c) :
    ∀ c ∈ [sep].intercalate pieces, p c := by
  induction pieces with
  | nil => simp
  | cons piece pieces induction =>
      rw [List.forall_mem_cons] at each
      cases pieces with
      | nil => simpa using each.1
      | cons next pieces =>
          rw [List.intercalate_cons_cons, List.forall_mem_append, List.forall_mem_append,
            List.forall_mem_singleton]
          exact ⟨⟨each.1, between⟩, induction each.2⟩

/-- A separator of two characters is a separator of one where the other begins the next piece. -/
theorem intercalate_pair (sep next : Char) (piece : List Char) (pieces : List (List Char)) :
    [sep, next].intercalate (piece :: pieces)
      = [sep].intercalate (piece :: pieces.map (next :: ·)) := by
  induction pieces generalizing piece with
  | nil => rfl
  | cons second pieces induction =>
      rw [List.intercalate_cons_cons, induction, List.map_cons, List.intercalate_cons_cons]
      cases pieces <;> simp

theorem isInfix_intercalate {sep : Char} {pieces : List (List Char)} {piece : List Char}
    (isPiece : piece ∈ pieces) : piece <:+: [sep].intercalate pieces := by
  induction pieces with
  | nil => cases isPiece
  | cons first pieces induction =>
      cases pieces with
      | nil =>
          obtain rfl := List.mem_singleton.1 isPiece
          simp
      | cons next pieces =>
          rw [List.intercalate_cons_cons]
          rcases List.mem_cons.1 isPiece with rfl | later
          · rw [List.append_assoc]
            exact (List.prefix_append ..).isInfix
          · exact (induction later).trans (List.suffix_append ..).isInfix

theorem intercalate_head_cons (sep c : Char) (piece : List Char) (pieces : List (List Char)) :
    [sep].intercalate ((c :: piece) :: pieces) = c :: [sep].intercalate (piece :: pieces) := by
  cases pieces <;> simp [List.intercalate_cons_cons]

/-! ### Splitting -/

theorem splitAt_eq_splitOn (sep : Char) (cs : List Char) : splitAt sep cs = cs.splitOn sep := by
  induction cs with
  | nil => rfl
  | cons c cs induction =>
      rw [splitAt, induction, List.splitOn_eq_splitOnP, List.splitOn_eq_splitOnP,
        List.splitOnP_cons_eq_if_modifyHead]
      simp only [beq_iff_eq]
      split
      · rfl
      · cases pieces : cs.splitOnP (· == sep) with
        | nil => exact absurd pieces (List.splitOnP_ne_nil _ cs)
        | cons piece pieces => rfl

theorem intercalate_splitAt (sep : Char) (cs : List Char) :
    [sep].intercalate (splitAt sep cs) = cs := by
  rw [splitAt_eq_splitOn, List.intercalate_splitOn]

theorem mem_of_mem_splitAt {sep : Char} {cs piece : List Char} (isPiece : piece ∈ splitAt sep cs)
    {c : Char} (member : c ∈ piece) : c ∈ cs := by
  have among : c ∈ [sep].intercalate (splitAt sep cs) := (isInfix_intercalate isPiece).subset member
  rwa [intercalate_splitAt] at among

theorem notMem_of_mem_splitAt {sep : Char} {cs piece : List Char}
    (isPiece : piece ∈ splitAt sep cs) : sep ∉ piece := by
  induction cs generalizing piece with
  | nil =>
      rw [List.mem_singleton.1 isPiece]
      exact List.not_mem_nil
  | cons c cs induction =>
      rw [splitAt] at isPiece
      split at isPiece
      · rcases List.mem_cons.1 isPiece with rfl | later
        · exact List.not_mem_nil
        · exact induction later
      · next other =>
        split at isPiece
        · next empty => exact absurd empty (splitAt_ne_nil sep cs)
        · next first rest pieces =>
          rw [pieces, List.forall_mem_cons] at induction
          rcases List.mem_cons.1 isPiece with rfl | later
          · rw [List.mem_cons, not_or]
            exact ⟨Ne.symm other, induction.1⟩
          · exact induction.2 piece later

theorem splitAt_append_sep {sep : Char} {piece : List Char} (free : sep ∉ piece)
    (rest : List Char) : splitAt sep (piece ++ sep :: rest) = piece :: splitAt sep rest := by
  rw [splitAt_eq_splitOn, splitAt_eq_splitOn, List.splitOn_eq_splitOnP, List.splitOn_eq_splitOnP]
  refine List.splitOnP_append_cons_of_forall_mem (fun c member => ?_) sep (by simp) rest
  rw [beq_eq_false_iff_ne]
  exact ne_of_mem_of_not_mem member free

theorem splitAt_of_notMem {sep : Char} {piece : List Char} (free : sep ∉ piece) :
    splitAt sep piece = [piece] := by
  have joined : ([sep].intercalate [piece]).splitOn sep = [piece] :=
    List.splitOn_intercalate sep (by simpa using free) (List.cons_ne_nil piece [])
  rwa [List.intercalate_singleton, ← splitAt_eq_splitOn] at joined

/-- Pieces without the separator, each but the last with one behind it. -/
theorem splitAt_flatMap_append {sep : Char} {pieces : List (List Char)} {last : List Char}
    (free : ∀ piece ∈ pieces, sep ∉ piece) (lastFree : sep ∉ last) :
    splitAt sep (pieces.flatMap (· ++ [sep]) ++ last) = pieces ++ [last] := by
  induction pieces with
  | nil => exact splitAt_of_notMem lastFree
  | cons piece pieces induction =>
      rw [List.forall_mem_cons] at free
      rw [List.flatMap_cons, List.append_assoc, List.append_assoc, List.singleton_append,
        splitAt_append_sep free.1, induction free.2, List.cons_append]

theorem splitFirst?_eq_none_iff {sep : Char} {cs : List Char} :
    splitFirst? sep cs = none ↔ sep ∉ cs := by
  induction cs with
  | nil => simp [splitFirst?]
  | cons c cs induction =>
      rw [splitFirst?, List.mem_cons, not_or, ← induction]
      split
      · next isSep => simp [isSep]
      · next other => simp [Ne.symm other]

theorem splitFirst?_eq_some {sep : Char} {cs front back : List Char}
    (found : splitFirst? sep cs = some (front, back)) :
    cs = front ++ sep :: back ∧ sep ∉ front := by
  induction cs generalizing front with
  | nil => simp [splitFirst?] at found
  | cons c cs induction =>
      rw [splitFirst?] at found
      split at found
      · next isSep =>
        obtain ⟨rfl, rfl⟩ := Prod.mk.inj (Option.some.inj found)
        exact ⟨by rw [isSep, List.nil_append], List.not_mem_nil⟩
      · next other =>
        obtain ⟨⟨start, rest⟩, inner, equality⟩ := Option.map_eq_some_iff.1 found
        obtain ⟨rfl, rfl⟩ := Prod.mk.inj equality
        obtain ⟨spelled, free⟩ := induction inner
        rw [List.mem_cons, not_or]
        exact ⟨by rw [spelled, List.cons_append], Ne.symm other, free⟩

theorem splitFirst?_append_sep {sep : Char} {front : List Char} (free : sep ∉ front)
    (back : List Char) : splitFirst? sep (front ++ sep :: back) = some (front, back) := by
  induction front with
  | nil => simp [splitFirst?]
  | cons c front induction =>
      rw [List.mem_cons, not_or] at free
      rw [List.cons_append, splitFirst?, if_neg (Ne.symm free.1), induction free.2]
      rfl

theorem splitLast?_eq_none_iff {sep : Char} {cs : List Char} :
    splitLast? sep cs = none ↔ sep ∉ cs := by
  rw [splitLast?, Option.map_eq_none_iff, splitFirst?_eq_none_iff, List.mem_reverse]

theorem splitLast?_eq_some {sep : Char} {cs front back : List Char}
    (found : splitLast? sep cs = some (front, back)) :
    cs = front ++ sep :: back ∧ sep ∉ back := by
  obtain ⟨⟨start, rest⟩, inner, equality⟩ := Option.map_eq_some_iff.1 found
  obtain ⟨rfl, rfl⟩ := Prod.mk.inj equality
  obtain ⟨spelled, free⟩ := splitFirst?_eq_some inner
  refine ⟨?_, by rwa [List.mem_reverse]⟩
  rw [← List.reverse_reverse cs, spelled]
  simp

theorem splitLast?_append_sep {sep : Char} (front : List Char) {back : List Char}
    (free : sep ∉ back) : splitLast? sep (front ++ sep :: back) = some (front, back) := by
  have reversed : (front ++ sep :: back).reverse = back.reverse ++ sep :: front.reverse := by simp
  rw [splitLast?, reversed, splitFirst?_append_sep (by rwa [List.mem_reverse])]
  simp

/-- No separator stands outside the quotes, the one that is open at the start included, and none of
them is open at the end. -/
def IsWholeFrom (sep : Char) : Option Char → List Char → Prop
  | opened, [] => opened = none
  | opened, c :: cs =>
      ¬(c = sep ∧ isQuote c = false ∧ opened = none) ∧ IsWholeFrom sep (quoteAfter opened c) cs

def IsWhole (sep : Char) (cs : List Char) : Prop :=
  IsWholeFrom sep none cs

theorem IsWholeFrom.append {sep : Char} {opened : Option Char} {as bs : List Char}
    (left : IsWholeFrom sep opened as) (right : IsWhole sep bs) :
    IsWholeFrom sep opened (as ++ bs) := by
  induction as generalizing opened with
  | nil =>
      obtain rfl : opened = none := left
      exact right
  | cons a as induction => exact ⟨left.1, induction left.2⟩

theorem IsWhole.append {sep : Char} {as bs : List Char} (left : IsWhole sep as)
    (right : IsWhole sep bs) : IsWhole sep (as ++ bs) :=
  IsWholeFrom.append left right

theorem isWhole_of_plain {sep : Char} {cs : List Char}
    (plain : ∀ c ∈ cs, c ≠ sep ∧ isQuote c = false) : IsWhole sep cs := by
  induction cs with
  | nil => rfl
  | cons c cs induction =>
      rw [List.forall_mem_cons] at plain
      refine ⟨fun separates => plain.1.1 separates.1, ?_⟩
      rw [quoteAfter_of_bare plain.1.2]
      exact induction plain.2

theorem isWhole_of_all {sep : Char} {cs : List Char}
    (plain : cs.all (fun c => c ≠ sep && !isQuote c) = true) : IsWhole sep cs := by
  refine isWhole_of_plain fun c member => ?_
  simpa using List.all_eq_true.1 plain c member

theorem isWholeFrom_quote {sep q : Char} (quote : isQuote q = true) {cs : List Char}
    (apart : q ∉ cs) : IsWholeFrom sep (some q) (cs ++ [q]) := by
  induction cs with
  | nil => simp [IsWholeFrom, quoteAfter_self quote]
  | cons c cs induction =>
      rw [List.mem_cons, not_or] at apart
      refine ⟨by simp, ?_⟩
      rw [quoteAfter_of_ne apart.1]
      exact induction apart.2

/-- A quoted text is whole whatever stands in the quotes. -/
theorem isWhole_quoted {sep q : Char} (quote : isQuote q = true) {cs : List Char}
    (apart : q ∉ cs) : IsWhole sep (q :: (cs ++ [q])) := by
  refine ⟨by simp [quote], ?_⟩
  rw [quoteAfter_none quote]
  exact isWholeFrom_quote quote apart

theorem splitUnquotedFrom_append {sep : Char} {opened : Option Char} {cs rest piece : List Char}
    {pieces : List (List Char)} (whole : IsWholeFrom sep opened cs)
    (split : splitUnquoted sep rest = piece :: pieces) :
    splitUnquotedFrom sep opened (cs ++ rest) = (cs ++ piece) :: pieces := by
  induction cs generalizing opened with
  | nil =>
      obtain rfl : opened = none := whole
      exact split
  | cons c cs induction =>
      rw [List.cons_append, splitUnquotedFrom, if_neg whole.1, induction whole.2, List.cons_append]

theorem splitUnquoted_append_sep {sep : Char} (bare : isQuote sep = false) {cs : List Char}
    (whole : IsWhole sep cs) (rest : List Char) :
    splitUnquoted sep (cs ++ sep :: rest) = cs :: splitUnquoted sep rest := by
  have ends : splitUnquoted sep (sep :: rest) = [] :: splitUnquoted sep rest := by
    rw [splitUnquoted, splitUnquotedFrom, if_pos ⟨rfl, bare, rfl⟩, splitUnquoted]
  have joined := splitUnquotedFrom_append whole ends
  rwa [List.append_nil] at joined

theorem IsWhole.intercalate {sep other : Char} (between : other ≠ sep)
    (bare : isQuote other = false) {pieces : List (List Char)}
    (whole : ∀ piece ∈ pieces, IsWhole sep piece) :
    IsWhole sep ([other].intercalate pieces) := by
  have separator : IsWhole sep [other] := isWhole_of_plain (by simp [between, bare])
  induction pieces with
  | nil => rfl
  | cons piece pieces induction =>
      rw [List.forall_mem_cons] at whole
      cases pieces with
      | nil => simpa using whole.1
      | cons next pieces =>
          rw [List.intercalate_cons_cons]
          exact (whole.1.append separator).append (induction whole.2)

/-! ### Pieces -/

/-- The quote that is open after a text. -/
def quoteAtEnd (opened : Option Char) (cs : List Char) : Option Char :=
  cs.foldl quoteAfter opened

theorem quoteAtEnd_cons (opened : Option Char) (c : Char) (cs : List Char) :
    quoteAtEnd opened (c :: cs) = quoteAtEnd (quoteAfter opened c) cs := rfl

theorem quoteAtEnd_append (opened : Option Char) (as bs : List Char) :
    quoteAtEnd opened (as ++ bs) = quoteAtEnd (quoteAtEnd opened as) bs :=
  List.foldl_append

theorem quoteAtEnd_of_plain (opened : Option Char) {cs : List Char}
    (plain : ∀ c ∈ cs, isQuote c = false) : quoteAtEnd opened cs = opened := by
  induction cs with
  | nil => rfl
  | cons c cs induction =>
      rw [List.forall_mem_cons] at plain
      rw [quoteAtEnd_cons, quoteAfter_of_bare plain.1]
      exact induction plain.2

/-- No separator stands outside the quotes, whatever is open at the end. -/
def IsUnsplitFrom (sep : Char) : Option Char → List Char → Prop
  | _, [] => True
  | opened, c :: cs =>
      ¬(c = sep ∧ isQuote c = false ∧ opened = none) ∧ IsUnsplitFrom sep (quoteAfter opened c) cs

def IsUnsplit (sep : Char) (cs : List Char) : Prop :=
  IsUnsplitFrom sep none cs

theorem isWholeFrom_iff {sep : Char} {opened : Option Char} {cs : List Char} :
    IsWholeFrom sep opened cs ↔ IsUnsplitFrom sep opened cs ∧ quoteAtEnd opened cs = none := by
  induction cs generalizing opened with
  | nil => simp [IsWholeFrom, IsUnsplitFrom, quoteAtEnd]
  | cons c cs induction =>
      rw [IsWholeFrom, induction, IsUnsplitFrom, and_assoc]
      rfl

theorem isUnsplitFrom_append {sep : Char} {opened : Option Char} {as bs : List Char} :
    IsUnsplitFrom sep opened (as ++ bs) ↔
      IsUnsplitFrom sep opened as ∧ IsUnsplitFrom sep (quoteAtEnd opened as) bs := by
  induction as generalizing opened with
  | nil => simp [IsUnsplitFrom, quoteAtEnd]
  | cons a as induction =>
      rw [List.cons_append, IsUnsplitFrom, induction, IsUnsplitFrom, and_assoc]
      rfl

theorem splitUnquotedFrom_of_isUnsplitFrom {sep : Char} {opened : Option Char} {cs : List Char}
    (unsplit : IsUnsplitFrom sep opened cs) : splitUnquotedFrom sep opened cs = [cs] := by
  induction cs generalizing opened with
  | nil => rfl
  | cons c cs induction => rw [splitUnquotedFrom, if_neg unsplit.1, induction unsplit.2]

/-- What stands between separators: only the last piece may leave a quote open. -/
structure ArePieces (sep : Char) (pieces : List (List Char)) : Prop where
  unsplit : ∀ piece ∈ pieces, IsUnsplit sep piece
  closed : pieces.Pairwise fun piece _ => IsWhole sep piece

theorem arePieces_cons_iff {sep : Char} {piece : List Char} {pieces : List (List Char)} :
    ArePieces sep (piece :: pieces) ↔
      IsUnsplit sep piece ∧ (pieces ≠ [] → IsWhole sep piece) ∧ ArePieces sep pieces := by
  constructor
  · rintro ⟨unsplit, closed⟩
    rw [List.forall_mem_cons] at unsplit
    rw [List.pairwise_cons] at closed
    refine ⟨unsplit.1, fun more => ?_, unsplit.2, closed.2⟩
    obtain ⟨next, isNext⟩ := List.exists_mem_of_ne_nil pieces more
    exact closed.1 next isNext
  · rintro ⟨unsplit, closed, are⟩
    exact ⟨List.forall_mem_cons.2 ⟨unsplit, are.unsplit⟩,
      List.pairwise_cons.2 ⟨fun _ isLater => closed (List.ne_nil_of_mem isLater), are.closed⟩⟩

namespace ArePieces

variable {sep : Char} {pieces : List (List Char)}

theorem of_isWhole (whole : ∀ piece ∈ pieces, IsWhole sep piece) : ArePieces sep pieces where
  unsplit piece member := (isWholeFrom_iff.1 (whole piece member)).1
  closed := List.pairwise_of_forall_mem_list fun piece member _ _ => whole piece member

theorem filter (are : ArePieces sep pieces) (p : List Char → Bool) :
    ArePieces sep (pieces.filter p) where
  unsplit piece member := are.unsplit piece (List.mem_of_mem_filter member)
  closed := are.closed.filter p

/-- A character that neither separates nor quotes may stand before the later pieces. -/
theorem indent {first : List Char} {later : List (List Char)} {next : Char}
    (are : ArePieces sep (first :: later)) (plain : next ≠ sep ∧ isQuote next = false) :
    ArePieces sep (first :: later.map (next :: ·)) := by
  have stays : quoteAfter none next = none := quoteAfter_of_bare plain.2 none
  have separates : ¬(next = sep ∧ isQuote next = false ∧ (none : Option Char) = none) :=
    fun separates => plain.1 separates.1
  rw [arePieces_cons_iff] at are ⊢
  refine ⟨are.1, fun more => are.2.1 (by simpa using more), ?_, ?_⟩
  · rw [List.forall_mem_map]
    intro piece member
    refine ⟨separates, ?_⟩
    rw [stays]
    exact are.2.2.unsplit piece member
  · rw [List.pairwise_map]
    refine are.2.2.closed.imp fun whole => ⟨separates, ?_⟩
    rw [stays]
    exact whole

theorem splitUnquoted_eq (are : ArePieces sep pieces) (bare : isQuote sep = false)
    (some : pieces ≠ []) : splitUnquoted sep ([sep].intercalate pieces) = pieces := by
  induction pieces with
  | nil => exact absurd rfl some
  | cons piece pieces induction =>
      obtain ⟨unsplit, closed, rest⟩ := arePieces_cons_iff.1 are
      cases pieces with
      | nil =>
          rw [List.intercalate_singleton]
          exact splitUnquotedFrom_of_isUnsplitFrom unsplit
      | cons next pieces =>
          rw [List.intercalate_cons_cons, List.append_assoc, List.singleton_append,
            splitUnquoted_append_sep bare (closed (List.cons_ne_nil next pieces)),
            induction rest (List.cons_ne_nil next pieces)]

end ArePieces

theorem arePieces_of_splitUnquotedFrom {sep : Char} {opened : Option Char}
    {cs piece : List Char} {pieces : List (List Char)}
    (split : splitUnquotedFrom sep opened cs = piece :: pieces) :
    IsUnsplitFrom sep opened piece ∧ (pieces ≠ [] → IsWholeFrom sep opened piece) ∧
      ArePieces sep pieces := by
  induction cs generalizing opened piece pieces with
  | nil =>
      cases split
      exact ⟨trivial, fun more => absurd rfl more, by simp, .nil⟩
  | cons c cs induction =>
      rw [splitUnquotedFrom] at split
      split at split
      · next separates =>
        cases split
        obtain ⟨next, rest, found⟩ :=
          List.exists_cons_of_ne_nil (splitUnquotedFrom_ne_nil sep none cs)
        rw [found]
        exact ⟨trivial, fun _ => separates.2.2, arePieces_cons_iff.2 (induction found)⟩
      · next joined =>
        split at split
        · next empty => exact absurd empty (splitUnquotedFrom_ne_nil _ _ _)
        · next first rest found =>
          cases split
          obtain ⟨unsplit, closed, are⟩ := induction found
          exact ⟨⟨joined, unsplit⟩, fun more => ⟨joined, closed more⟩, are⟩

theorem arePieces_splitUnquoted (sep : Char) (cs : List Char) :
    ArePieces sep (splitUnquoted sep cs) := by
  obtain ⟨first, rest, found⟩ := List.exists_cons_of_ne_nil (splitUnquotedFrom_ne_nil sep none cs)
  rw [splitUnquoted, found]
  exact arePieces_cons_iff.2 (arePieces_of_splitUnquotedFrom found)

theorem intercalate_splitUnquotedFrom (sep : Char) (opened : Option Char) (cs : List Char) :
    [sep].intercalate (splitUnquotedFrom sep opened cs) = cs := by
  induction cs generalizing opened with
  | nil => rfl
  | cons c cs induction =>
      rw [splitUnquotedFrom]
      split
      · next separates =>
        obtain ⟨first, rest, found⟩ :=
          List.exists_cons_of_ne_nil (splitUnquotedFrom_ne_nil sep none cs)
        rw [found, List.intercalate_cons_cons, ← found, induction, separates.1]
        rfl
      · split
        · next empty => exact absurd empty (splitUnquotedFrom_ne_nil _ _ _)
        · next first rest found => rw [intercalate_head_cons, ← found, induction]

theorem intercalate_splitUnquoted (sep : Char) (cs : List Char) :
    [sep].intercalate (splitUnquoted sep cs) = cs :=
  intercalate_splitUnquotedFrom sep none cs

theorem eq_of_splitUnquotedFrom_eq_singleton {sep : Char} {opened : Option Char}
    {cs piece : List Char} (whole : splitUnquotedFrom sep opened cs = [piece]) : piece = cs := by
  induction cs generalizing opened piece with
  | nil => exact (List.singleton_inj.1 whole).symm
  | cons c cs induction =>
      rw [splitUnquotedFrom] at whole
      split at whole
      · exact absurd (List.cons.inj whole).2 (splitUnquotedFrom_ne_nil sep none cs)
      · split at whole
        · next none => exact absurd none (splitUnquotedFrom_ne_nil sep _ cs)
        · next first rest pieces =>
          obtain ⟨rfl, rfl⟩ := List.cons.inj whole
          rw [induction pieces]

theorem splitUnquoted_intercalate {sep : Char} (bare : isQuote sep = false)
    {pieces : List (List Char)} (whole : ∀ piece ∈ pieces, IsWhole sep piece) (some : pieces ≠ []) :
    splitUnquoted sep ([sep].intercalate pieces) = pieces :=
  (ArePieces.of_isWhole whole).splitUnquoted_eq bare some

/-! ### Trimming -/

/-- A text that begins and ends with characters other than blanks. -/
structure IsTight (cs : List Char) : Prop where
  first : ∃ c ∈ cs.head?, isBlank c = false
  last : ∃ c ∈ cs.getLast?, isBlank c = false

namespace IsTight

theorem ne_nil {cs : List Char} (tight : IsTight cs) : cs ≠ [] := by
  rintro rfl
  obtain ⟨c, absent, -⟩ := tight.first
  cases absent

theorem append {front back : List Char} (starts : ∃ c ∈ front.head?, isBlank c = false)
    (ends : ∃ c ∈ back.getLast?, isBlank c = false) : IsTight (front ++ back) := by
  obtain ⟨c, first, inked⟩ := starts
  obtain ⟨d, last, solid⟩ := ends
  exact ⟨⟨c, List.mem_head?_append_of_mem_head? first, inked⟩,
    ⟨d, List.mem_getLast?_append_of_mem_getLast? last, solid⟩⟩

theorem intercalate {sep : List Char} {pieces : List (List Char)}
    (tight : ∀ piece ∈ pieces, IsTight piece) (some : pieces ≠ []) :
    IsTight (sep.intercalate pieces) := by
  induction pieces with
  | nil => exact absurd rfl some
  | cons piece pieces induction =>
      rw [List.forall_mem_cons] at tight
      cases pieces with
      | nil => simpa using tight.1
      | cons next pieces =>
          rw [List.intercalate_cons_cons, List.append_assoc]
          have rest := induction tight.2 (List.cons_ne_nil next pieces)
          obtain ⟨d, last, solid⟩ := rest.last
          exact append tight.1.first ⟨d, List.mem_getLast?_append_of_mem_getLast? last, solid⟩

end IsTight

theorem trimStart_eq {cs : List Char} (starts : ∃ c ∈ cs.head?, isBlank c = false) :
    trimStart cs = cs := by
  obtain ⟨c, first, inked⟩ := starts
  obtain ⟨rest, rfl⟩ := List.head?_eq_some_iff.1 first
  exact List.dropWhile_cons_of_neg (by simp [inked])

theorem trim_eq {cs : List Char} (tight : IsTight cs) : trim cs = cs := by
  have start := trimStart_eq tight.first
  rw [trimStart] at start
  obtain ⟨c, last, inked⟩ := tight.last
  obtain ⟨front, rfl⟩ := List.getLast?_eq_some_iff.1 last
  rw [trim, trimWhere, start, dropEndWhile, List.reverse_append, List.reverse_singleton,
    List.singleton_append, List.dropWhile_cons_of_neg (by simp [inked]), List.reverse_cons,
    List.reverse_reverse]

theorem trim_blank_cons (cs : List Char) : trim (' ' :: cs) = trim cs := by
  rw [trim, trim, trimWhere, trimWhere, List.dropWhile_cons_of_pos (by decide)]

theorem dropEndWhile_eq_rdropWhile (p : Char → Bool) (cs : List Char) :
    dropEndWhile p cs = cs.rdropWhile p := rfl

theorem trimWhere_eq {p : Char → Bool} {cs : List Char} (none : ∀ c ∈ cs, p c = false) :
    trimWhere p cs = cs := by
  have kept (cs : List Char) (none : ∀ c ∈ cs, p c = false) : cs.dropWhile p = cs := by
    cases cs with
    | nil => rfl
    | cons c cs => exact List.dropWhile_cons_of_neg (by simp [none c (List.mem_cons_self ..)])
  rw [trimWhere, kept cs none, dropEndWhile, kept _ (by simpa using none), List.reverse_reverse]

theorem exists_eq_append_trimWhere (p : Char → Bool) (cs : List Char) :
    ∃ front back, cs = front ++ (trimWhere p cs ++ back) ∧
      (∀ c ∈ front, p c = true) ∧ ∀ c ∈ back, p c = true := by
  refine ⟨cs.takeWhile p, (cs.dropWhile p).rtakeWhile p, ?_,
    fun c => List.mem_takeWhile_imp, fun c => List.mem_rtakeWhile_imp⟩
  rw [trimWhere, dropEndWhile_eq_rdropWhile, List.rdropWhile_append_rtakeWhile,
    List.takeWhile_append_dropWhile]

theorem exists_eq_append_trim (cs : List Char) :
    ∃ front back, cs = front ++ (trim cs ++ back) ∧
      (∀ c ∈ front, isBlank c = true) ∧ ∀ c ∈ back, isBlank c = true :=
  exists_eq_append_trimWhere isBlank cs

theorem isTight_trim {cs : List Char} (some : trim cs ≠ []) : IsTight (trim cs) := by
  rw [trim, trimWhere, dropEndWhile_eq_rdropWhile] at some ⊢
  obtain ⟨back, whole⟩ := List.rdropWhile_prefix isBlank (l := cs.dropWhile isBlank)
  constructor
  · obtain ⟨c, rest, spelled⟩ := List.exists_cons_of_ne_nil some
    have inked := List.head?_dropWhile_not isBlank cs
    rw [← whole, spelled] at inked
    exact ⟨c, by rw [spelled]; rfl, inked⟩
  · exact ⟨_, List.getLast?_eq_some_getLast some, by simpa using List.rdropWhile_last_not _ _ some⟩

/-! ### Trimmed pieces -/

theorem isBlank_of_isQuote {c : Char} (quote : isQuote c = true) : isBlank c = false := by
  simp only [isQuote, Bool.or_eq_true, decide_eq_true_eq] at quote
  rcases quote with rfl | rfl <;> decide

theorem quoteAtEnd_of_isBlank (opened : Option Char) {cs : List Char}
    (blank : ∀ c ∈ cs, isBlank c = true) : quoteAtEnd opened cs = opened := by
  refine quoteAtEnd_of_plain opened fun c member => Bool.eq_false_iff.2 fun quote => ?_
  have inked := isBlank_of_isQuote quote
  rw [blank c member] at inked
  cases inked

theorem quoteAtEnd_trim (opened : Option Char) (cs : List Char) :
    quoteAtEnd opened (trim cs) = quoteAtEnd opened cs := by
  obtain ⟨front, back, whole, before, behind⟩ := exists_eq_append_trim cs
  conv_rhs => rw [whole]
  rw [quoteAtEnd_append, quoteAtEnd_append, quoteAtEnd_of_isBlank opened before,
    quoteAtEnd_of_isBlank _ behind]

theorem isUnsplitFrom_trim {sep : Char} {opened : Option Char} {cs : List Char}
    (unsplit : IsUnsplitFrom sep opened cs) : IsUnsplitFrom sep opened (trim cs) := by
  obtain ⟨front, back, whole, before, -⟩ := exists_eq_append_trim cs
  rw [whole, isUnsplitFrom_append, isUnsplitFrom_append,
    quoteAtEnd_of_isBlank opened before] at unsplit
  exact unsplit.2.1

/-- Blanks open and close no quote, so the pieces stay pieces without them. -/
theorem ArePieces.trim {sep : Char} {pieces : List (List Char)} (are : ArePieces sep pieces) :
    ArePieces sep (pieces.map trim) where
  unsplit := List.forall_mem_map.2 fun piece member => isUnsplitFrom_trim (are.unsplit piece member)
  closed := by
    rw [List.pairwise_map]
    refine are.closed.imp fun {piece _} whole => ?_
    obtain ⟨unsplit, closed⟩ := isWholeFrom_iff.1 whole
    exact isWholeFrom_iff.2 ⟨isUnsplitFrom_trim unsplit, (quoteAtEnd_trim none piece).trans closed⟩

/-! ### Numbers -/

theorem toList_toString_ofNat (n : Nat) :
    (toString (Int.ofNat n)).toList = Nat.toDigits 10 n :=
  Nat.toList_repr

theorem toList_toString_negSucc (n : Nat) :
    (toString (Int.negSucc n)).toList = '-' :: Nat.toDigits 10 (n + 1) := by
  rw [Int.toString_eq_repr, Int.repr, String.toList_append, Nat.toList_repr]
  rfl

theorem isDigit_of_mem_toDigits {n : Nat} : ∀ c ∈ Nat.toDigits 10 n, c.isDigit = true :=
  fun _ member => Nat.isDigit_of_mem_toDigits (by decide) (by decide) member

theorem notMem_toString {c : Char} (digit : c.isDigit = false) (minus : c ≠ '-') (n : Int) :
    c ∉ (toString n).toList := by
  have apart (k : Nat) : c ∉ Nat.toDigits 10 k := fun member => by
    rw [isDigit_of_mem_toDigits c member] at digit
    cases digit
  cases n with
  | ofNat k =>
      rw [toList_toString_ofNat]
      exact apart k
  | negSucc k =>
      rw [toList_toString_negSucc, List.mem_cons, not_or]
      exact ⟨minus, apart (k + 1)⟩

theorem toDigits_append_inj {m n : Nat} {c d : Char} (cStops : c.isDigit = false)
    (dStops : d.isDigit = false) {as bs : List Char}
    (same : Nat.toDigits 10 m ++ c :: as = Nat.toDigits 10 n ++ d :: bs) :
    m = n ∧ c :: as = d :: bs := by
  have read (k : Nat) (c : Char) (stops : c.isDigit = false) (as : List Char) :
      (Nat.toDigits 10 k ++ c :: as).takeWhile Char.isDigit = Nat.toDigits 10 k := by
    rw [List.takeWhile_append_of_pos isDigit_of_mem_toDigits,
      List.takeWhile_cons_of_neg (by simp [stops]), List.append_nil]
  have digits : Nat.toDigits 10 m = Nat.toDigits 10 n := by
    rw [← read m c cStops as, same, read n d dStops bs]
  have equal := congrArg (Nat.ofDigitChars 10 · 0) digits
  simp only [Nat.ofDigitChars_ten_toDigits] at equal
  rw [digits] at same
  exact ⟨equal, List.append_cancel_left same⟩

/-- A number is read off the front of a text when no digit follows it. -/
theorem toString_append_inj {m n : Int} {c d : Char} (cStops : c.isDigit = false)
    (dStops : d.isDigit = false) {as bs : List Char}
    (same : (toString m).toList ++ c :: as = (toString n).toList ++ d :: bs) :
    m = n ∧ c :: as = d :: bs := by
  have unsigned (k j : Nat) (as bs : List Char) :
      Nat.toDigits 10 k ++ as ≠ '-' :: Nat.toDigits 10 j ++ bs := by
    obtain ⟨x, rest, spelled⟩ := List.exists_cons_of_ne_nil (Nat.toDigits_ne_nil (n := k) (b := 10))
    have digit := isDigit_of_mem_toDigits x (spelled ▸ List.mem_cons_self ..)
    rw [spelled]
    intro equal
    rw [(List.cons.inj equal).1] at digit
    exact absurd digit (by decide)
  cases m with
  | ofNat m =>
      rw [toList_toString_ofNat] at same
      cases n with
      | ofNat n =>
          rw [toList_toString_ofNat] at same
          obtain ⟨rfl, rest⟩ := toDigits_append_inj cStops dStops same
          exact ⟨rfl, rest⟩
      | negSucc n =>
          rw [toList_toString_negSucc] at same
          exact absurd same (unsigned m (n + 1) _ _)
  | negSucc m =>
      rw [toList_toString_negSucc] at same
      cases n with
      | ofNat n =>
          rw [toList_toString_ofNat] at same
          exact absurd same.symm (unsigned n (m + 1) _ _)
      | negSucc n =>
          rw [toList_toString_negSucc] at same
          obtain ⟨equal, rest⟩ := toDigits_append_inj cStops dStops (List.cons.inj same).2
          obtain rfl : m = n := Nat.succ.inj equal
          exact ⟨rfl, rest⟩

end PageTree.Text
