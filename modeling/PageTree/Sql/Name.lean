/-!
Names of tables and columns as the database engine takes them: letters, digits, underscores and
dollar signs, not beginning with a digit or dollar, and none of the words of its language. The case
of plain letters does not tell names apart.
-/

namespace PageTree.Sql

/-- Words of the query language that are never names. -/
def reservedWords : List String :=
  ["add", "all", "alter", "and", "as", "autoincrement", "between", "case", "check", "collate",
    "commit", "constraint", "create", "default", "deferrable", "delete", "distinct", "drop", "else",
    "escape", "except", "exists", "foreign", "from", "group", "having", "in", "index", "insert",
    "intersect", "into", "is", "isnull", "join", "limit", "not", "nothing", "notnull", "null", "on",
    "or", "order", "primary", "references", "returning", "select", "set", "table", "then", "to",
    "transaction", "union", "unique", "update", "using", "values", "when", "where"]

/-- Words that name tables, but begin a value of their own where a value is expected. -/
def valueWords : List String :=
  ["cast", "current_date", "current_time", "current_timestamp", "raise"]

/-- A word that names tables, but begins a query after a parenthesis. -/
def queryWord : String :=
  "with"

def foldName (name : String) : String :=
  String.ofList (name.toList.map Char.toLower)

def sameName (a b : String) : Bool :=
  foldName a = foldName b

theorem sameName_refl (a : String) : sameName a a = true := by
  simp [sameName]

def isNameStart (c : Char) : Bool :=
  c.isAlpha || c = '_' || 128 ≤ c.toNat

def isNameChar (c : Char) : Bool :=
  isNameStart c || c.isDigit || c = '$'

def isWord (name : String) : Bool :=
  match name.toList with
  | [] => false
  | c :: cs => isNameStart c && cs.all isNameChar

def isBareName (name : String) : Bool :=
  isWord name && !reservedWords.contains (foldName name)

/-- Can a new table have the name? One word is read as part of the statement there. -/
def isTableName (name : String) : Bool :=
  isBareName name && foldName name ≠ "if"

/-- Can the name stand before the point of a column, unless a parenthesis opens before it? -/
def isQualifier (name : String) : Bool :=
  isBareName name && !valueWords.contains (foldName name)

/-- Is the name read as the beginning of a query after a parenthesis? -/
def beginsQuery (name : String) : Bool :=
  foldName name = queryWord

/-- Is the name kept for the engine's own tables? -/
def isEngineName (name : String) : Bool :=
  "sqlite_".toList.isPrefixOf (foldName name).toList

end PageTree.Sql
