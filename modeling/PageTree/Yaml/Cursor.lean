import PageTree.Text.Blank

/-!
A place in a text of lines: the characters that are left, and the line and the column of the first
of them.
-/

namespace PageTree.Yaml

structure Cursor where
  line : Nat
  column : Nat
  rest : List Char
  deriving DecidableEq, Repr

def isSeparator (c : Char) : Bool :=
  c = ' ' || c = '\t'

/-- What ends a line, when line ends of one meaning are written alike. -/
def isLineEnd (c : Char) : Bool :=
  c = '\n' || c = '\u2028' || c = '\u2029'

/-- Does a token end before this character, or at the end of the text? -/
def endsToken : List Char → Bool
  | [] => true
  | c :: _ => isSeparator c || isLineEnd c

/-- Can the character stand in a document at all? -/
def isDocumentChar (c : Char) : Bool :=
  let n := c.toNat
  n = 9 || n = 10 || n = 13 || (0x20 ≤ n && n ≤ 0x7e) || n = 0x85 ||
    (0xa0 ≤ n && n ≠ 0xfffe && n ≠ 0xffff)

/-- Carriage returns and next-line characters end lines as line feeds do. -/
def normalizeLineEnds : List Char → List Char
  | '\r' :: '\n' :: cs => '\n' :: normalizeLineEnds cs
  | '\r' :: cs => '\n' :: normalizeLineEnds cs
  | '\u0085' :: cs => '\n' :: normalizeLineEnds cs
  | c :: cs => c :: normalizeLineEnds cs
  | [] => []

namespace Cursor

def ofText? (s : String) : Option Cursor :=
  let cs := normalizeLineEnds s.toList
  if cs.all isDocumentChar then some { line := 0, column := 0, rest := cs } else none

def advance (cursor : Cursor) (n : Nat) : Cursor :=
  { cursor with column := cursor.column + n, rest := cursor.rest.drop n }

/-- The start of the next line, at which some text is left. -/
def nextLine (cursor : Cursor) (rest : List Char) : Cursor :=
  { line := cursor.line + 1, column := 0, rest }

/-- Moves over blanks, which are tabs too if `tabs` says so, and a comment. A byte order mark that
begins a line is skipped and takes up a column. -/
def skipBlanks (tabs : Bool) (cursor : Cursor) : Cursor :=
  let start :=
    if cursor.column = 0 ∧ cursor.rest.head? = some '\ufeff' then cursor.advance 1 else cursor
  let next := start.advance (start.rest.takeWhile fun c => c = ' ' || (tabs && c = '\t')).length
  if next.rest.head? = some '#' then
    next.advance (next.rest.takeWhile fun c => !isLineEnd c).length
  else
    next

/-- Does a line that begins or ends a document start here? -/
def atDocumentMark (cursor : Cursor) : Bool :=
  cursor.column = 0 &&
    (("---".toList.isPrefixOf cursor.rest || "...".toList.isPrefixOf cursor.rest)
      && endsToken (cursor.rest.drop 3))

end Cursor

end PageTree.Yaml
