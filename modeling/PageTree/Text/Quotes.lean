import PageTree.Text.Blank

/-!
Quoted stretches. A single or double quote opens a stretch that only the same quote closes; a
separator inside such a stretch is ordinary text. Pieces joined by the separator give back the
text they were split from.
-/

namespace PageTree.Text

def isQuote (c : Char) : Bool :=
  c = '"' || c = '\''

/-- The quote that is open after `c`, given the one open before it. -/
def quoteAfter (opened : Option Char) (c : Char) : Option Char :=
  if isQuote c then
    match opened with
    | none => some c
    | some q => if q = c then none else some q
  else
    opened

theorem quoteAfter_of_bare {c : Char} (bare : isQuote c = false) (opened : Option Char) :
    quoteAfter opened c = opened := by
  simp [quoteAfter, bare]

theorem quoteAfter_none {q : Char} (quote : isQuote q = true) : quoteAfter none q = some q := by
  simp [quoteAfter, quote]

theorem quoteAfter_self {q : Char} (quote : isQuote q = true) : quoteAfter (some q) q = none := by
  simp [quoteAfter, quote]

theorem quoteAfter_of_ne {q c : Char} (other : q ≠ c) : quoteAfter (some q) c = some q := by
  simp [quoteAfter, other]

/-- The pieces of a text at the separators outside quotes, when `opened` is open at its start. -/
def splitUnquotedFrom (sep : Char) (opened : Option Char) : List Char → List (List Char)
  | [] => [[]]
  | c :: cs =>
    if c = sep ∧ isQuote c = false ∧ opened = none then
      [] :: splitUnquotedFrom sep none cs
    else
      match splitUnquotedFrom sep (quoteAfter opened c) cs with
      | [] => [[c]]
      | piece :: pieces => (c :: piece) :: pieces

/-- The pieces of a text at the separators outside quotes. -/
def splitUnquoted (sep : Char) (cs : List Char) : List (List Char) :=
  splitUnquotedFrom sep none cs

theorem splitUnquotedFrom_ne_nil (sep : Char) (opened : Option Char) (cs : List Char) :
    splitUnquotedFrom sep opened cs ≠ [] := by
  cases cs with
  | nil => simp [splitUnquotedFrom]
  | cons c cs =>
    simp only [splitUnquotedFrom]
    split
    · simp
    · split <;> simp

/-- The text inside a pair of `q` around the whole text. -/
def unquoteWith? (q : Char) (cs : List Char) : Option (List Char) :=
  match cs with
  | c :: rest => if c = q ∧ rest.getLast? = some q then some rest.dropLast else none
  | [] => none

/-- Removes one pair of equal quotes around the whole text; other texts stay as they are. -/
def unquote (cs : List Char) : List Char :=
  (unquoteWith? '"' cs).getD ((unquoteWith? '\'' cs).getD cs)

theorem unquote_quoted (q : Char) (hq : isQuote q = true) (cs : List Char) :
    unquote (q :: (cs ++ [q])) = cs := by
  simp only [isQuote, Bool.or_eq_true, decide_eq_true_eq] at hq
  rcases hq with rfl | rfl <;> simp [unquote, unquoteWith?]

end PageTree.Text
