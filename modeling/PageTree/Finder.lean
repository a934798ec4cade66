import PageTree.Compile.Selector
import PageTree.Data.Datum
import PageTree.Selector.Status

/-!
A find: the selector gets its bound on the status, is compiled and handed to an engine, and the
relevance columns of every row are summed into one score. A finder remembers the window and the
total of its last find and nothing else of it.
-/

namespace PageTree

open Number

/-- Rows as an engine returns them, with their columns in order. -/
structure ResultSet where
  columns : List String
  rows : List (List Datum)

structure Engine where
  execute : Query → Except Error ResultSet
  /-- The number of rows without the window of the query. -/
  foundRows : Query → Except Error Int

inductive Request where
  | execute (query : Query)
  | foundRows

abbrev Row := Dictionary Datum

namespace Row

/-- What a value of a relevance column adds to the score. -/
def scoreOf : Datum → Binary64
  | .integer n => .ofInt n
  | .real x => x
  | .text s => (Binary64.read? (Text.trim s.toList)).getD .zero
  | _ => .zero

def isScoreColumn (name : String) : Bool :=
  Sql.scoreMark.toList.isPrefixOf name.toList

/-- The sum of the relevance columns, none when it is no finite number. -/
def score (cells : List (String × Datum)) : Datum :=
  let total := (cells.filter fun cell => isScoreColumn cell.1).foldl
    (fun total cell => total + scoreOf cell.2) Binary64.zero
  if total.isFinite then .real total else .null

/-- The row of a list of cells. Relevance columns are walked by position, as they may share a
name. -/
def ofCells (cells : List (String × Datum)) : Row :=
  Dictionary.insert "score" (score cells)
    (Dictionary.ofPairs (cells.filter fun cell => !isScoreColumn cell.1))

end Row

def ResultSet.assemble (result : ResultSet) : List Row :=
  result.rows.map fun values => Row.ofCells (result.columns.zip values)

structure Finder where
  checkStatus : Bool
  debug : Bool
  total : Int
  limit : Int
  start : Int
  deriving DecidableEq, Repr

/-- A find's answer, the finder after it, and the requests made in order. -/
structure Found where
  rows : Except Error (List Row)
  finder : Finder
  requests : List Request

namespace Finder

def new : Finder :=
  { checkStatus := true, debug := false, total := 0, limit := 0, start := 0 }

def prepare (finder : Finder) (selector : Selector) (single : Bool) : Selector :=
  let bounded := if finder.checkStatus then selector.withStatusBound single else selector
  if single then bounded.withSingleWindow else bounded

def queryFor (finder : Finder) (catalog : Catalog) (selector : Selector) (single : Bool) :
    Except Error Query :=
  let prepared := finder.prepare selector single
  (prepared.compile catalog).map fun query =>
    if finder.debug then { query with comment := "Selector: " ++ prepared.text } else query

def reset (finder : Finder) : Finder :=
  { finder with total := 0, limit := 0, start := 0 }

/-- The total of a query that returned rows, and the requests for it. -/
def resolveTotal (engine : Engine) (query : Query) (returned : Nat) (single : Bool) :
    Except Error Int × List Request :=
  if !single && query.hasLimit then (engine.foundRows query, [.foundRows])
  else (.ok returned, [])

def find (finder : Finder) (catalog : Catalog) (engine : Engine) (selector : Selector)
    (single : Bool) : Found :=
  match finder.queryFor catalog selector single with
  | .error error => { rows := .error error, finder := finder.reset, requests := [] }
  | .ok query =>
    let windowed := { finder.reset with limit := query.limit, start := query.start }
    match engine.execute query with
    | .error error => { rows := .error error, finder := windowed, requests := [.execute query] }
    | .ok result =>
      if result.rows.isEmpty then
        { rows := .ok [], finder := windowed, requests := [.execute query] }
      else
        let rows := result.assemble
        match resolveTotal engine query rows.length single with
        | (.error error, requests) =>
          { rows := .error error, finder := windowed, requests := .execute query :: requests }
        | (.ok total, requests) =>
          { rows := .ok rows, finder := { windowed with total },
            requests := .execute query :: requests }

end Finder

end PageTree
