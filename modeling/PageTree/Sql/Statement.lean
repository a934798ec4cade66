import PageTree.Text.Blank

/-!
The text of a `SELECT` statement, put together from fragments that need not know of each other.
Every clause keeps its fragments in the order of their addition.
-/

namespace PageTree.Sql

/-- The pseudo-column that asks for the number of rows without the limit. -/
def foundRowsColumn : String :=
  "SQL_CALC_FOUND_ROWS"

structure Statement where
  columns : List String
  tables : List String
  joins : List String
  leftJoins : List String
  conditions : List String
  groups : List String
  orders : List String
  limit : Option String
  comment : String
  deriving DecidableEq, Repr

namespace Statement

def empty : Statement :=
  { columns := [], tables := [], joins := [], leftJoins := [], conditions := [], groups := [],
    orders := [], limit := none, comment := "" }

def addColumn (s : Statement) (column : String) : Statement :=
  { s with columns := s.columns ++ [column] }

def addColumns (s : Statement) (columns : List String) : Statement :=
  { s with columns := s.columns ++ columns }

def addTable (s : Statement) (table : String) : Statement :=
  if s.tables.contains table then s else { s with tables := s.tables ++ [table] }

def addJoin (s : Statement) (join : String) : Statement :=
  { s with joins := s.joins ++ [join] }

def addLeftJoin (s : Statement) (join : String) : Statement :=
  { s with leftJoins := s.leftJoins ++ [join] }

def addCondition (s : Statement) (condition : String) : Statement :=
  { s with conditions := s.conditions ++ [condition] }

def addGroup (s : Statement) (group : String) : Statement :=
  { s with groups := s.groups ++ [group] }

def addOrder (s : Statement) (order : String) : Statement :=
  { s with orders := s.orders ++ [order] }

def addOrders (s : Statement) (orders : List String) : Statement :=
  { s with orders := s.orders ++ orders }

def addFirstOrder (s : Statement) (order : String) : Statement :=
  { s with orders := order :: s.orders }

def setLimit (s : Statement) (limit : String) : Statement :=
  { s with limit := some limit }

def setComment (s : Statement) (comment : String) : Statement :=
  { s with comment }

def hasLimit (s : Statement) : Bool :=
  s.limit.isSome

/-- Is the number of rows without the limit asked for? -/
def countsFoundRows (s : Statement) : Bool :=
  s.columns.contains foundRowsColumn

def withoutFoundRows (s : Statement) : Statement :=
  { s with columns := s.columns.filter fun column => column ≠ foundRowsColumn }

/-- The statement whose rows are counted for a total: neither limit nor order. -/
def withoutLimit (s : Statement) : Statement :=
  { s with limit := none, orders := [] }

/-- A column as it is listed: without blanks and then without commas at its ends. -/
def trimColumn (column : String) : String :=
  String.ofList (Text.trimWhere (fun c => c = ',') (Text.trim column.toList))

def selectLine (s : Statement) : String :=
  let columns := (s.withoutFoundRows.columns.map trimColumn).filter fun column => column ≠ ""
  let line := "SELECT " ++ (if s.countsFoundRows then foundRowsColumn ++ " " else "")
    ++ ",".intercalate columns
  String.ofList (Text.trimEnd line.toList)

def fromLine (s : Statement) : String :=
  "FROM " ++ ",".intercalate (s.tables.map fun table => "\x60" ++ table ++ "\x60")

/-- Removes what would end a comment, in one pass from the left. -/
def stripCommentEnds : List Char → List Char
  | '*' :: '/' :: cs => stripCommentEnds cs
  | c :: cs => c :: stripCommentEnds cs
  | [] => []

/-- Does a text end a comment, or the statement with it? -/
def endsComment : List Char → Bool
  | '*' :: '/' :: _ => true
  | c :: cs => c = '\x00' || endsComment cs
  | [] => false

/-- Is the comment one to the end of the statement? Removing ends may bring about another one. -/
def hasPlainComment (s : Statement) : Bool :=
  !endsComment (stripCommentEnds s.comment.toList)

def clauseLines (keyword separator : String) (fragments : List String) : List String :=
  if fragments.isEmpty then [] else [keyword ++ separator.intercalate fragments]

def lines (s : Statement) : List String :=
  [s.selectLine, s.fromLine]
    ++ s.joins.map (fun join => "JOIN " ++ join)
    ++ s.leftJoins.map (fun join => "LEFT JOIN " ++ join)
    ++ clauseLines "WHERE " " AND " s.conditions
    ++ clauseLines "GROUP BY " "," s.groups
    ++ clauseLines "ORDER BY " "," s.orders
    ++ s.limit.toList.map (fun limit => "LIMIT " ++ limit)
    ++ (if s.comment = "" then []
        else ["/* " ++ String.ofList (stripCommentEnds s.comment.toList) ++ " */"])

def render (s : Statement) : String :=
  "\n".intercalate s.lines

end Statement

end PageTree.Sql
