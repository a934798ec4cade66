import PageTree.Finder
import PageTree.Query.Limits
import PageTree.Store.Link
import PageTree.Store.Selection

/-!
The rows a query selects from a page store. A page is selected when its tables can be joined so that
every filter holds, and it is selected once. Rows come by ascending page, unless ordered otherwise,
and equal keys keep that order. A query whose text says something else is read back from its text.
-/

namespace PageTree

open Sql

namespace Query

def filters (query : Query) : List Filter :=
  query.conjuncts.map Conjunct.filter

def columns (query : Query) : List Column :=
  [idColumn, templateColumn]
    ++ (query.joins.flatMap fun join => join.on.tests).flatMap Test.columns
    ++ (query.filters.flatMap Condition.tests).flatMap Test.columns
    ++ query.scores.map Score.subject
    ++ query.orders.filterMap fun order =>
      match order.expression with
      | .column c => some c
      | _ => none

end Query

def Store.baseSource (store : Store) : Source :=
  { aliasName := "pages", table := store.pageTable }

/-- The source of a join, when its table exists. -/
def Store.joinSource? (store : Store) (join : Join) : Option Source :=
  (store.source? join.table).map fun table => { aliasName := join.aliasName, table }

/-- What a query reads, when all its tables exist. -/
structure Plan where
  inner : List JoinedSource
  left : List JoinedSource
  base : Source

namespace Plan

def sources (plan : Plan) : List Source :=
  plan.base :: (plan.inner ++ plan.left).map JoinedSource.source

def affinity (plan : Plan) (column : Column) : Affinity :=
  affinityIn plan.sources column

/-- Does exactly one source provide the column? -/
def resolves (plan : Plan) (column : Column) : Bool :=
  (plan.sources.filter fun source => source.provides column).length = 1

def holds (plan : Plan) (binding : Binding) (filter : Filter) : Bool :=
  (filter.eval (Test.truth plan.affinity binding)).isYes

/-- Does a filter name only columns of these sources? -/
def covers (sources : List Source) (filter : Filter) : Bool :=
  (filter.tests.flatMap Test.columns).all fun column =>
    sources.any fun source => source.provides column

/-- The bindings with one more table joined. The condition drops rows as soon as all it names is
joined. -/
def joinInner (plan : Plan) (known : List Source) (joined : JoinedSource)
    (bindings : List Binding) : List Binding :=
  if covers (joined.source :: known) joined.join.on then
    bindings.flatMap fun binding =>
      ((joined.candidates plan.affinity binding).filter
        (joined.holdsFor plan.affinity binding)).map fun record =>
          binding.extend joined.source (some record)
  else
    bindings.flatMap fun binding =>
      joined.source.table.records.map fun record => binding.extend joined.source (some record)

def joinAllInner (plan : Plan) : List Source → List JoinedSource → List Binding → List Binding
  | _, [], bindings => bindings
  | known, joined :: rest, bindings =>
    joinAllInner plan (joined.source :: known) rest (plan.joinInner known joined bindings)

/-- The bindings with the matching records of a table; a binding without any stays, and the columns
of the table are missing in it. -/
def joinLeft (plan : Plan) (joined : JoinedSource) (binding : Binding) : List Binding :=
  let rows := ((joined.candidates plan.affinity binding).filter
    (joined.holdsFor plan.affinity binding)).map fun record =>
      binding.extend joined.source (some record)
  if rows.isEmpty then [binding.extend joined.source none] else rows

/-- Every way to join the tables to one record of the page table. -/
def joinAll (plan : Plan) (page : Record) : List Binding :=
  let inner := (plan.joinAllInner [plan.base] plan.inner
    [Binding.empty.extend plan.base (some page)]).filter fun binding =>
      plan.inner.all fun joined => plan.holds binding joined.join.on
  plan.left.foldl (fun bindings joined => bindings.flatMap (plan.joinLeft joined)) inner

/-- The joined rows of one page that all filters let through. -/
def pageRows (plan : Plan) (query : Query) (page : Record) : List Binding :=
  (plan.joinAll page).filter fun binding => query.filters.all (plan.holds binding)

/-! ### Patterns beyond the limit -/

/-- Does looking for the matching records of a table come to a pattern beyond the limit? -/
def joinMeetsLongPattern (plan : Plan) (joined : JoinedSource) (bindings : List Binding) : Bool :=
  bindings.any fun binding =>
    joined.source.table.records.any fun record =>
      joined.join.on.reaches
        (Test.truth plan.affinity (binding.extend joined.source (some record))) Test.isTooLong

def innerMeetsLongPattern (plan : Plan) :
    List Source → List JoinedSource → List Binding → Bool
  | _, [], _ => false
  | known, joined :: rest, bindings =>
    plan.joinMeetsLongPattern joined bindings
      || innerMeetsLongPattern plan (joined.source :: known) rest
        (plan.joinInner known joined bindings)

def leftMeetsLongPattern (plan : Plan) : List JoinedSource → List Binding → Bool
  | [], _ => false
  | joined :: rest, bindings =>
    plan.joinMeetsLongPattern joined bindings
      || leftMeetsLongPattern plan rest (bindings.flatMap (plan.joinLeft joined))

/-- Does a pattern beyond the limit come up for a page? Pages that their own columns rule out are
left before any table is joined to them. -/
def pageMeetsLongPattern (plan : Plan) (query : Query) (page : Record) : Bool :=
  let start := Binding.empty.extend plan.base (some page)
  (query.filters.all fun filter => !covers [plan.base] filter || plan.holds start filter)
    && (plan.innerMeetsLongPattern [plan.base] plan.inner [start]
      || plan.leftMeetsLongPattern plan.left (plan.joinAllInner [plan.base] plan.inner [start])
      || (plan.joinAll page).any fun binding =>
        query.filters.any fun filter =>
          filter.reaches (Test.truth plan.affinity binding) Test.isTooLong)

def meetsLongPattern (plan : Plan) (query : Query) : Bool :=
  query.hasLongPattern && plan.base.table.records.any (plan.pageMeetsLongPattern query)

/-! ### Selected pages -/

/-- One row for every selected page, by ascending page. -/
def groupedRows (plan : Plan) (query : Query) : List Binding :=
  plan.base.table.records.filterMap fun page => (plan.pageRows query page).head?

end Plan

namespace Order

/-- The value by which an order sorts a row. Chance is no value. -/
def key (scores : List Score) (binding : Binding) (order : Order) : Value :=
  match order.expression with
  | .random => .null
  | .column c => binding c
  | .score label =>
    ((scores.find? fun score => sameName score.label label).map (Score.value binding)).getD .null

def compareBy (scores : List Score) (a b : Binding) (order : Order) : Ordering :=
  let ordering := (order.key scores a).order (order.key scores b)
  if order.descending then ordering.swap else ordering

end Order

/-- May row `a` stand before row `b`? The first order that tells them apart decides. -/
def rowsInOrder (scores : List Score) (orders : List Order) (a b : Binding) : Bool :=
  match orders with
  | [] => true
  | order :: rest =>
    match order.compareBy scores a b with
    | .lt => true
    | .gt => false
    | .eq => rowsInOrder scores rest a b

def Sql.Value.datum : Value → Datum
  | .null => .null
  | .integer n => .integer n
  | .real x => if x.isFinite then .real x else .null
  | .text s => .text s

namespace Query

/-- The values of the selected columns in a row. -/
def cells (query : Query) (binding : Binding) : List Datum :=
  [(binding idColumn).datum, (binding templateColumn).datum]
    ++ query.scores.map fun score => (score.value binding).datum

def windowed {α : Type} (query : Query) (rows : List α) : List α :=
  match query.window with
  | some window => window.slice rows
  | none => rows

end Query

namespace Plan

/-- The selected rows in order, without regard to the window. -/
def sortedRows (plan : Plan) (query : Query) : List Binding :=
  (plan.groupedRows query).mergeSort (rowsInOrder query.scores query.orders)

def resultSet (plan : Plan) (query : Query) : ResultSet :=
  { columns := query.columnNames
    rows := (query.windowed (plan.sortedRows query)).map query.cells }

end Plan

namespace Store

/-- The plan of a query whose tables exist and whose names each belong to one of them. -/
def boundPlan? (store : Store) (query : Query) : Option Plan := do
  let sourced (kind : JoinKind) : Option (List JoinedSource) :=
    (query.joinsOf kind).mapM fun join =>
      (store.joinSource? join).map (JoinedSource.of join)
  let plan : Plan :=
    { inner := ← sourced .inner, left := ← sourced .left, base := store.baseSource }
  if query.columns.all plan.resolves then some plan else none

/-- The plan of a query whose statement the engine accepts. -/
def plan? (store : Store) (query : Query) : Option Plan :=
  if query.isReadable && query.isWithinLimits then store.boundPlan? query else none

/-- The plan of a query that the engine carries out to the end. -/
def runnablePlan? (store : Store) (query : Query) : Option Plan :=
  (store.plan? query).filter fun plan => !plan.meetsLongPattern query

/-- The result of a query whose text says what it says, or nothing. -/
def executePlain (store : Store) (query : Query) : Except Error ResultSet :=
  match store.runnablePlan? query with
  | none => .error (.database .rejectedStatement)
  | some plan => .ok (plan.resultSet query)

/-- The number of rows of such a query without its window. -/
def foundRowsPlain (store : Store) (query : Query) : Except Error Int :=
  match store.runnablePlan? query with
  | none => .error (.database .rejectedStatement)
  | some plan => .ok (plan.groupedRows query).length

/-- The result of a query that is read back from its text. -/
def executeText (store : Store) (query : Query) : Except Error ResultSet :=
  match store.answer? query.statement.withoutFoundRows.render with
  | none => .error (.database .rejectedStatement)
  | some grid =>
    .ok { columns := query.columnNames, rows := grid.rows.map fun row => row.map Value.datum }

/-- The number of rows of such a query without its window, counted around its text. -/
def foundRowsText (store : Store) (query : Query) : Except Error Int :=
  let text := query.statement.withoutFoundRows.withoutLimit.render
  match store.answer? ("SELECT COUNT(*) FROM (" ++ text ++ ")") with
  | some { rows := [[.integer n]], .. } => .ok n
  | _ => .error (.database .rejectedStatement)

def execute (store : Store) (query : Query) : Except Error ResultSet :=
  if query.isPlain then store.executePlain query
  else if query.isWithinLimits then store.executeText query
  else .error (.database .rejectedStatement)

/-- The number of rows of a query without its window. -/
def foundRows (store : Store) (query : Query) : Except Error Int :=
  if query.isPlain then store.foundRowsPlain query else store.foundRowsText query

def engine (store : Store) : Engine :=
  { execute := store.execute, foundRows := store.foundRows }

/-- What compilation reads when identifiers come from the store. -/
def catalog (store : Store) (schema : Schema) (now : Date.Moment) (pageNumber : Option Int) :
    Catalog :=
  { schema
    templateId := fun name => .ok (store.templateId? name)
    pageId := fun path => .ok (store.pageId? path)
    pageNumber
    now }

end Store

end PageTree
