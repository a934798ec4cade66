import PageTree.Number.Int64

/-!
Values inside SQL text. A quoted literal doubles its quotes and loses its null characters; a run of
digits stands bare. In a pattern, `!` marks a wildcard that stands for itself.
-/

namespace PageTree.Sql

def escapeChar (c : Char) : List Char :=
  if c = '\'' then ['\'', '\''] else if c = '\x00' then [] else [c]

def escape (value : String) : String :=
  String.ofList (value.toList.flatMap escapeChar)

def quoted (value : String) : String :=
  "'" ++ escape value ++ "'"

def isDigits (value : String) : Bool :=
  Number.isDigits value.toList

/-- A run of digits as it stands, anything else as a literal. -/
def quoteValue (value : String) : String :=
  if isDigits value then value else quoted value

/-- The mark before a wildcard that stands for itself. -/
def likeMark : Char :=
  '!'

def isWildcard (c : Char) : Bool :=
  c = '%' || c = '_'

def escapeLikeChar (c : Char) : List Char :=
  if isWildcard c || c = likeMark then [likeMark, c] else [c]

/-- A pattern that only the value itself matches. -/
def escapeLike (value : String) : String :=
  String.ofList (value.toList.flatMap escapeLikeChar)

@[simp] theorem toList_escape (value : String) :
    (escape value).toList = value.toList.flatMap escapeChar := by
  simp [escape]

@[simp] theorem toList_escapeLike (value : String) :
    (escapeLike value).toList = value.toList.flatMap escapeLikeChar := by
  simp [escapeLike]

theorem escape_append (v w : String) : escape (v ++ w) = escape v ++ escape w := by
  apply String.ext
  simp

end PageTree.Sql
