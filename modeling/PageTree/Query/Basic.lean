import PageTree.Sql.Name
import PageTree.Sql.Statement
import PageTree.Sql.Test

/-!
Queries over the page table: joined tables, filters, relevance columns, order and window. A query
is read in two ways, as the text of a statement and as the rows it selects from a page store.
-/

namespace PageTree

open Sql

abbrev Filter := Condition Test

/-- Does a joined table only extend rows, or also drop those it has no match for? -/
inductive JoinKind where
  | inner
  | left
  deriving DecidableEq, Repr

structure Join where
  kind : JoinKind
  table : String
  aliasName : String
  on : Filter
  deriving Repr

namespace Join

def render (join : Join) : String :=
  join.table ++ " AS " ++ join.aliasName ++ " ON " ++ join.on.render Test.render

/-- Adds a join to a list with one join for each alias. A join under an alias in use only adds its
condition, and nothing when the condition is there already. -/
def addTo (join : Join) : List Join → List Join
  | [] => [join]
  | other :: rest =>
    if other.aliasName = join.aliasName then
      if other.on.same join.on then other :: rest
      else { other with on := .conj [other.on, join.on] } :: rest
    else
      other :: addTo join rest

/-- The joins of a list, merged by alias in order of first use. -/
def merge (joins : List Join) : List Join :=
  joins.foldl (fun merged join => join.addTo merged) []

end Join

inductive Conjunct where
  /-- A lone test, written bare. -/
  | plain (test : Test)
  | enclosed (filter : Filter)
  deriving Repr

namespace Conjunct

def filter : Conjunct → Filter
  | .plain test => .test test
  | .enclosed filter => filter

def render : Conjunct → String
  | .plain test => test.render
  | .enclosed filter => "(" ++ filter.render Test.render ++ ")"

def enclosedLeads : Conjunct → List Test
  | .plain _ => []
  | .enclosed filter => filter.lead?.toList ++ filter.enclosedLeads

end Conjunct

inductive OrderExpression where
  | random
  | column (column : Column)
  /-- The first relevance column with this label. -/
  | score (label : String)
  deriving DecidableEq, Repr

structure Order where
  expression : OrderExpression
  descending : Bool
  deriving DecidableEq, Repr

namespace Order

def ofScore (score : Score) : Order :=
  { expression := .score score.label, descending := true }

def render (order : Order) : String :=
  let text := match order.expression with
    | .random => "RAND()"
    | .column c => c.text
    | .score label => label
  if order.descending then text ++ " DESC" else text

end Order

/-- At most `count` rows, after skipping some. -/
structure Window where
  skip : Option Int
  count : Int
  deriving DecidableEq, Repr

namespace Window

def render (window : Window) : String :=
  match window.skip with
  | some skip => toString skip ++ "," ++ toString window.count
  | none => toString window.count

def start (window : Window) : Int :=
  window.skip.getD 0

def slice {α : Type} (window : Window) (rows : List α) : List α :=
  (rows.drop window.start.toNat).take window.count.toNat

end Window

structure Query where
  joins : List Join
  conjuncts : List Conjunct
  scores : List Score
  orders : List Order
  window : Option Window
  comment : String
  deriving Repr

namespace Query

/-- The start of the window, zero without one. -/
def start (query : Query) : Int :=
  (query.window.map Window.start).getD 0

/-- The size of the window, zero without one. -/
def limit (query : Query) : Int :=
  (query.window.map Window.count).getD 0

def hasLimit (query : Query) : Bool :=
  query.window.isSome

/-- Is the total number of rows asked for? A window of one row is enough for a lookup. -/
def countsFoundRows (query : Query) : Bool :=
  query.window.any fun window => 1 < window.count

def idColumn : Column :=
  ⟨"pages", "id"⟩

def templateColumn : Column :=
  ⟨"pages", "templates_id"⟩

/-- The names of the columns of a row, in order. -/
def columnNames (query : Query) : List String :=
  idColumn.name :: templateColumn.name :: query.scores.map Score.label

def joinsOf (query : Query) (kind : JoinKind) : List Join :=
  query.joins.filter fun join => join.kind = kind

/-- The joins in the order in which tables are taken: those that drop rows first. -/
def orderedJoins (query : Query) : List Join :=
  query.joinsOf .inner ++ query.joinsOf .left

def joinTexts (query : Query) (kind : JoinKind) : List String :=
  (query.joinsOf kind).map Join.render

/-- The statement of the query, with every clause in the order of its parts. -/
def statement (query : Query) : Statement :=
  { columns :=
      [idColumn.text, templateColumn.text] ++ query.scores.map Score.render
        ++ (if query.countsFoundRows then [foundRowsColumn] else [])
    tables := ["pages"]
    joins := query.joinTexts .inner
    leftJoins := query.joinTexts .left
    conditions := query.conjuncts.map Conjunct.render
    groups := [idColumn.text]
    orders := query.orders.map Order.render
    limit := query.window.map Window.render
    comment := query.comment }

def render (query : Query) : String :=
  query.statement.render

/-- Does the text of the statement say what the query says, or else nothing at all? Its names have
to be read as words, and its comment as a comment. -/
def isPlain (query : Query) : Bool :=
  query.statement.hasPlainComment && query.joins.all fun join => isWord join.aliasName

/-- The tests that stand directly after a parenthesis in the statement. -/
def enclosedLeads (query : Query) : List Test :=
  (query.joins.flatMap fun join => join.on.enclosedLeads)
    ++ query.conjuncts.flatMap Conjunct.enclosedLeads

/-- Are the names of the joined tables read as names wherever they stand? -/
def isReadable (query : Query) : Bool :=
  (query.joins.all fun join => isQualifier join.aliasName)
    && query.enclosedLeads.all fun test =>
      test.columns.head?.all fun column => !beginsQuery column.aliasName

end Query

end PageTree
