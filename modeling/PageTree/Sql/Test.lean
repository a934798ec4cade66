import PageTree.Selector.Operator
import PageTree.Sql.Condition
import PageTree.Sql.Literal

/-!
The tests that queries are made of, and their text: comparisons of a column with another column or
with a literal, absence of a row, and pattern matches. Literals hold the text a database reads, so
they contain no null characters.
-/

namespace PageTree.Sql

/-- A column of a table, named by the alias under which the table is joined. -/
structure Column where
  aliasName : String
  name : String
  deriving DecidableEq, Repr

def Column.text (column : Column) : String :=
  column.aliasName ++ "." ++ column.name

/-- The text without its null characters, which no literal can hold. -/
def dropNulls (value : String) : String :=
  String.ofList (value.toList.filter fun c => c ≠ '\x00')

theorem escape_dropNulls (value : String) : escape (dropNulls value) = escape value := by
  apply String.ext
  simp only [dropNulls, toList_escape, String.toList_ofList]
  induction value.toList with
  | nil => rfl
  | cons c cs ih =>
    by_cases h : c = '\x00'
    · subst h; simpa [escapeChar] using ih
    · simpa [h] using ih

inductive Operand where
  | column (column : Column)
  | integer (n : Int)
  /-- A run of digits, written bare. -/
  | digits (run : String)
  | text (value : String)
  deriving DecidableEq, Repr

namespace Operand

/-- The literal of a value: a bare run of digits, or text. -/
def ofValue (value : String) : Operand :=
  if isDigits value then .digits value else .text (dropNulls value)

def ofText (value : String) : Operand :=
  .text (dropNulls value)

def render : Operand → String
  | .column c => c.text
  | .integer n => toString n
  | .digits run => run
  | .text value => quoted value

theorem render_ofValue (value : String) : (ofValue value).render = quoteValue value := by
  unfold ofValue quoteValue
  split <;> simp [render, quoted, escape_dropNulls]

end Operand

inductive Test where
  | compare (left : Column) (relation : Relation) (right : Operand)
  | isNull (column : Column)
  | isNotNull (column : Column)
  /-- A pattern; when `marked`, the mark before a wildcard makes it stand for itself. -/
  | like (subject : Column) (pattern : String) (marked : Bool)
  | never
  deriving DecidableEq, Repr

/-- The text of a test, in parts where the test is built from parts. -/
inductive TestText where
  | comparison (left operator right : String)
  | nullCheck (column : String) (negated : Bool)
  | verbatim (sql : String)
  deriving DecidableEq, Repr

def TestText.render : TestText → String
  | .comparison left operator right => left ++ operator ++ right
  | .nullCheck column negated => column ++ " IS " ++ (if negated then "NOT " else "") ++ "NULL"
  | .verbatim sql => sql

namespace Test

def text : Test → TestText
  | .compare left relation right => .comparison left.text relation.text right.render
  | .isNull column => .nullCheck column.text false
  | .isNotNull column => .nullCheck column.text true
  | .like subject pattern marked =>
    .verbatim (subject.text ++ " LIKE " ++ quoted pattern
      ++ if marked then " ESCAPE '" ++ String.singleton likeMark ++ "'" else "")
  | .never => .verbatim "1>2"

def render (test : Test) : String :=
  test.text.render

def columns : Test → List Column
  | .compare left _ (.column right) => [left, right]
  | .compare left _ _ => [left]
  | .isNull column => [column]
  | .isNotNull column => [column]
  | .like subject _ _ => [subject]
  | .never => []

def contains (subject : Column) (value : String) : Test :=
  .like subject ("%" ++ escapeLike (dropNulls value) ++ "%") true

def startsWith (subject : Column) (value : String) : Test :=
  .like subject (escapeLike (dropNulls value) ++ "%") true

def endsWith (subject : Column) (value : String) : Test :=
  .like subject ("%" ++ escapeLike (dropNulls value)) true

end Test

/-- A relevance column: how often a phrase occurs in a text, without regard to the case of plain
letters. -/
structure Score where
  subject : Column
  phrase : String
  deriving DecidableEq, Repr

/-- The start of the name of every relevance column. -/
def scoreMark : String :=
  "_score"

namespace Score

def label (score : Score) : String :=
  scoreMark ++ "_" ++ score.subject.aliasName ++ "_" ++ score.subject.name

def render (score : Score) : String :=
  let t := score.subject.text
  let v := quoted score.phrase
  "(LENGTH(" ++ t ++ ")-LENGTH(REPLACE(LOWER(" ++ t ++ "),LOWER(" ++ v ++ "),'')))/LENGTH(" ++ v
    ++ ") AS " ++ score.label

end Score

end PageTree.Sql
