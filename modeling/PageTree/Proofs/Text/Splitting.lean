import PageTree.Proofs.Text.Bytes
import PageTree.Proofs.Text.Pieces

/-!
Splitting outside quotes. The pieces of a text are joined to it by the separator, all but the last
close the quotes they open, and a separator within a piece stands in quotes. No other pieces are of
this kind, where a text itself says by its quoted stretches whether it closes its quotes. The bytes
of the pieces lie where one pass over the text that counts bytes and remembers the open quote puts
them.
-/

namespace PageTree.Text

/-! ### Closed quotes -/

/-- A text of characters that are no quotes and of quoted stretches, each of which runs from a quote
to the next one of its kind. -/
inductive ClosesQuotes : List Char → Prop
  | nil : ClosesQuotes []
  | bare {c : Char} {cs : List Char} (bare : isQuote c = false) (rest : ClosesQuotes cs) :
      ClosesQuotes (c :: cs)
  | stretch {q : Char} {inner cs : List Char} (quote : isQuote q = true) (apart : q ∉ inner)
      (rest : ClosesQuotes cs) : ClosesQuotes (q :: (inner ++ q :: cs))

theorem quoteAtEnd_of_notMem {q : Char} {cs : List Char} (apart : q ∉ cs) :
    quoteAtEnd (some q) cs = some q := by
  induction cs with
  | nil => rfl
  | cons c cs induction =>
      rw [List.mem_cons, not_or] at apart
      rw [quoteAtEnd_cons, quoteAfter_of_ne apart.1]
      exact induction apart.2

theorem quoteAtEnd_of_closesQuotes {cs : List Char} (closes : ClosesQuotes cs) :
    quoteAtEnd none cs = none := by
  induction closes with
  | nil => rfl
  | bare bare _ induction =>
      rw [quoteAtEnd_cons, quoteAfter_of_bare bare]
      exact induction
  | @stretch q inner cs quote apart _ induction =>
      calc
        quoteAtEnd none (q :: (inner ++ q :: cs))
        _ = quoteAtEnd (some q) (inner ++ q :: cs) := by
          rw [quoteAtEnd_cons, quoteAfter_none quote]
        _ = quoteAtEnd (some q) (q :: cs) := by
          rw [quoteAtEnd_append, quoteAtEnd_of_notMem apart]
        _ = quoteAtEnd none cs := by rw [quoteAtEnd_cons, quoteAfter_self quote]
        _ = none := induction

theorem closesQuotes_of_quoteAtEnd (cs : List Char) :
    (quoteAtEnd none cs = none → ClosesQuotes cs) ∧
      ∀ q, isQuote q = true → quoteAtEnd (some q) cs = none →
        ∃ inner rest, cs = inner ++ q :: rest ∧ q ∉ inner ∧ ClosesQuotes rest := by
  -- A quote leads from the text outside of stretches to the one inside, the next of its kind back.
  induction cs with
  | nil =>
      refine ⟨fun _ => .nil, fun q _ closed => ?_⟩
      cases closed
  | cons c cs induction =>
      obtain ⟨outside, inside⟩ := induction
      constructor
      · intro closed
        rw [quoteAtEnd_cons] at closed
        cases quote : isQuote c with
        | false =>
            rw [quoteAfter_of_bare quote] at closed
            exact .bare quote (outside closed)
        | true =>
            rw [quoteAfter_none quote] at closed
            obtain ⟨inner, rest, rfl, apart, closes⟩ := inside c quote closed
            exact .stretch quote apart closes
      · intro q quote closed
        rw [quoteAtEnd_cons] at closed
        by_cases same : q = c
        · subst same
          rw [quoteAfter_self quote] at closed
          exact ⟨[], cs, rfl, List.not_mem_nil, outside closed⟩
        · rw [quoteAfter_of_ne same] at closed
          obtain ⟨inner, rest, rfl, apart, closes⟩ := inside q quote closed
          exact ⟨c :: inner, rest, rfl, List.not_mem_cons_of_ne_of_not_mem same apart, closes⟩

theorem closesQuotes_iff {cs : List Char} : ClosesQuotes cs ↔ quoteAtEnd none cs = none :=
  ⟨quoteAtEnd_of_closesQuotes, (closesQuotes_of_quoteAtEnd cs).1⟩

/-! ### The pieces of a text -/

section

variable {sep : Char}

theorem isUnsplitFrom_iff (bare : isQuote sep = false) {opened : Option Char} {cs : List Char} :
    IsUnsplitFrom sep opened cs ↔
      ∀ front back, cs = front ++ sep :: back → quoteAtEnd opened front ≠ none := by
  constructor
  · intro unsplit front back spelled closed
    rw [spelled, isUnsplitFrom_append] at unsplit
    exact unsplit.2.1 ⟨rfl, bare, closed⟩
  · intro inQuotes
    induction cs generalizing opened with
    | nil => trivial
    | cons c cs induction =>
        constructor
        · rintro ⟨rfl, -, closed⟩
          exact inQuotes [] cs rfl closed
        · apply induction
          intro front back spelled
          apply inQuotes (c :: front) back
          rw [spelled, List.cons_append]

theorem isUnsplit_iff (bare : isQuote sep = false) {cs : List Char} :
    IsUnsplit sep cs ↔ ∀ front back, cs = front ++ sep :: back → ¬ClosesQuotes front := by
  simp only [closesQuotes_iff]
  exact isUnsplitFrom_iff bare

theorem isWhole_iff {cs : List Char} : IsWhole sep cs ↔ IsUnsplit sep cs ∧ ClosesQuotes cs := by
  rw [closesQuotes_iff]
  exact isWholeFrom_iff

theorem arePieces_concat_iff {others : List (List Char)} {last : List Char} :
    ArePieces sep (others ++ [last]) ↔
      (∀ piece ∈ others ++ [last], IsUnsplit sep piece) ∧ ∀ piece ∈ others, ClosesQuotes piece := by
  constructor
  · intro are
    refine ⟨are.unsplit, fun piece member => ?_⟩
    have closed := (List.pairwise_append.1 are.closed).2.2 piece member last (by simp)
    exact (isWhole_iff.1 closed).2
  · rintro ⟨unsplit, closed⟩
    have whole : ∀ piece ∈ others, IsWhole sep piece := fun piece member =>
      isWhole_iff.2 ⟨unsplit piece (List.mem_append_left _ member), closed piece member⟩
    refine ⟨unsplit, List.pairwise_append.2 ⟨?_, List.pairwise_singleton .., ?_⟩⟩
    · exact (ArePieces.of_isWhole whole).closed
    · exact fun piece member _ _ => whole piece member

end

/-- The pieces of a text, of which there is always a last one: joined they are the text, all but the
last close the quotes they open, and before a separator within a piece a quote is open. -/
structure IsSplit (sep : Char) (text : List Char) (pieces : List (List Char)) : Prop where
  joined : [sep].intercalate pieces = text
  closed : ∃ others last, pieces = others ++ [last] ∧ ∀ piece ∈ others, ClosesQuotes piece
  quoted : ∀ piece ∈ pieces, ∀ front back, piece = front ++ sep :: back → ¬ClosesQuotes front

theorem isSplit_splitUnquoted {sep : Char} (bare : isQuote sep = false) (text : List Char) :
    IsSplit sep text (splitUnquoted sep text) := by
  obtain ⟨others, last, pieces⟩ : ∃ others last, splitUnquoted sep text = others ++ [last] :=
    ⟨_, _, (List.dropLast_append_getLast (splitUnquotedFrom_ne_nil sep none text)).symm⟩
  have are := arePieces_splitUnquoted sep text
  rw [pieces, arePieces_concat_iff] at are
  refine ⟨intercalate_splitUnquoted sep text, ⟨others, last, pieces, are.2⟩, ?_⟩
  rw [pieces]
  exact fun piece member => (isUnsplit_iff bare).1 (are.1 piece member)

theorem IsSplit.eq_splitUnquoted {sep : Char} (bare : isQuote sep = false) {text : List Char}
    {pieces : List (List Char)} (split : IsSplit sep text pieces) :
    splitUnquoted sep text = pieces := by
  obtain ⟨others, last, rfl, closed⟩ := split.closed
  have unsplit : ∀ piece ∈ others ++ [last], IsUnsplit sep piece := fun piece member =>
    (isUnsplit_iff bare).2 (split.quoted piece member)
  have are : ArePieces sep (others ++ [last]) := arePieces_concat_iff.2 ⟨unsplit, closed⟩
  have again := are.splitUnquoted_eq bare (List.concat_ne_nil last others)
  rwa [split.joined] at again

/-- Splitting outside quotes gives the pieces of the text, and a text has no others. -/
theorem splitUnquoted_eq_iff {sep : Char} (bare : isQuote sep = false) {text : List Char}
    {pieces : List (List Char)} : splitUnquoted sep text = pieces ↔ IsSplit sep text pieces := by
  constructor
  · rintro rfl
    exact isSplit_splitUnquoted bare text
  · exact IsSplit.eq_splitUnquoted bare

/-- The first piece has a quote of the other kind within its quotes, and the last one leaves a quote
open before a separator and a quote of the other kind. -/
theorem isSplit_mixedQuotes_iff :
    isQuote ',' = false ∧
      ∀ pieces, IsSplit ',' "é='a,\"b',ü,\"c,'d".toList pieces ↔
        pieces = ["é='a,\"b'".toList, "ü".toList, "\"c,'d".toList] := by
  have bare : isQuote ',' = false := by decide
  refine ⟨bare, fun pieces => ?_⟩
  have split : splitUnquoted ',' "é='a,\"b',ü,\"c,'d".toList =
      ["é='a,\"b'".toList, "ü".toList, "\"c,'d".toList] := by decide
  rw [← splitUnquoted_eq_iff bare, split, eq_comm]

/-! ### The positions of the pieces -/

/-- A stretch of bytes, by the position of its first one and the position behind its last. -/
structure Extent where
  start : Nat
  stop : Nat
  deriving DecidableEq, Repr

namespace Extent

def of (extent : Extent) (all : List UInt8) : List UInt8 :=
  (all.take extent.stop).drop extent.start

theorem of_middle (front middle back : List UInt8) :
    (mk front.length (front.length + middle.length)).of (front ++ middle ++ back) = middle := by
  rw [of, ← List.length_append, List.take_left, List.drop_left]

end Extent

/-- The extents of the pieces of the text behind `position`, the first of which begins at `start`,
when `opened` is open there. -/
def extentsFrom (sep : Char) (position start : Nat) (opened : Option Char) :
    List Char → List Extent
  | [] => [⟨start, position⟩]
  | c :: cs =>
    let next := position + c.utf8Size
    if isQuote c ∧ opened = some c then
      extentsFrom sep next start none cs
    else if isQuote c ∧ opened = none then
      extentsFrom sep next start (some c) cs
    else if c = sep ∧ opened = none then
      ⟨start, position⟩ :: extentsFrom sep next next none cs
    else
      extentsFrom sep next start opened cs

def extents (sep : Char) (text : String) : List Extent :=
  extentsFrom sep 0 0 none text.toList

section

variable {sep c : Char} {opened : Option Char} (position start : Nat) (cs : List Char)

theorem extentsFrom_of_separates (separates : c = sep ∧ isQuote c = false ∧ opened = none) :
    extentsFrom sep position start opened (c :: cs) =
      ⟨start, position⟩ ::
        extentsFrom sep (position + c.utf8Size) (position + c.utf8Size) none cs := by
  obtain ⟨rfl, bare, rfl⟩ := separates
  simp [extentsFrom, bare]

theorem extentsFrom_of_joined (joined : ¬(c = sep ∧ isQuote c = false ∧ opened = none)) :
    extentsFrom sep position start opened (c :: cs) =
      extentsFrom sep (position + c.utf8Size) start (quoteAfter opened c) cs := by
  cases quote : isQuote c with
  | false =>
      have inQuotes : ¬(c = sep ∧ opened = none) := fun separates =>
        joined ⟨separates.1, quote, separates.2⟩
      simp [extentsFrom, quote, inQuotes, quoteAfter_of_bare]
  | true =>
      cases opened with
      | none => simp [extentsFrom, quote, quoteAfter_none]
      | some q =>
          by_cases same : q = c
          · subst same
            simp [extentsFrom, quote, quoteAfter_self]
          · simp [extentsFrom, same, quoteAfter_of_ne]

end

theorem map_of_extentsFrom {sep : Char} {opened : Option Char} {cs piece : List Char}
    {pieces : List (List Char)} (split : splitUnquotedFrom sep opened cs = piece :: pieces)
    (front current : List UInt8) :
    (extentsFrom sep (front.length + current.length) front.length opened cs).map
        (·.of (front ++ current ++ cs.flatMap String.utf8EncodeChar)) =
      (current ++ piece.flatMap String.utf8EncodeChar) ::
        pieces.map (·.flatMap String.utf8EncodeChar) := by
  -- Behind the pass lie the bytes of earlier pieces and separators, `front`, and those of the piece
  -- under way, `current`. A separator moves the latter to the former.
  induction cs generalizing opened piece pieces front current with
  | nil =>
      cases split
      have last := Extent.of_middle front current []
      simpa [extentsFrom] using last
  | cons c cs induction =>
      have size : (String.utf8EncodeChar c).length = c.utf8Size := String.length_utf8EncodeChar c
      rw [splitUnquotedFrom] at split
      split at split
      · next separates =>
        cases split
        obtain ⟨next, rest, found⟩ :=
          List.exists_cons_of_ne_nil (splitUnquotedFrom_ne_nil sep none cs)
        have later := induction found (front ++ current ++ String.utf8EncodeChar c) []
        rw [extentsFrom_of_separates _ _ _ separates, List.map_cons, List.flatMap_cons,
          Extent.of_middle, found]
        simpa [size, Nat.add_assoc] using later
      · next joined =>
        split at split
        · next empty => exact absurd empty (splitUnquotedFrom_ne_nil _ _ _)
        · next first rest found =>
          cases split
          have later := induction found front (current ++ String.utf8EncodeChar c)
          rw [extentsFrom_of_joined _ _ _ joined]
          simpa [size, Nat.add_assoc] using later

/-- The bytes at the extents are those of the pieces, so that no extent cuts a character. -/
theorem map_of_extents (sep : Char) (text : String) :
    (extents sep text).map (·.of (bytes text)) =
      (splitUnquoted sep text.toList).map fun piece => bytes (String.ofList piece) := by
  obtain ⟨piece, pieces, found⟩ :=
    List.exists_cons_of_ne_nil (splitUnquotedFrom_ne_nil sep none text.toList)
  have whole := map_of_extentsFrom found [] []
  simp only [bytes_eq_flatMap, String.toList_ofList, splitUnquoted, found, extents]
  simpa using whole

example : extents ',' "é,'ü,x',y" = [⟨0, 2⟩, ⟨3, 9⟩, ⟨10, 11⟩] := by decide

end PageTree.Text
