import PageTree.Proofs.Store.Sorting

/-!
Rows in the order of sort values. Main statement: the rows of a query that is sorted are the rows of
the query without the sort values, sorted once more by what their pages are sorted by.
-/

namespace PageTree

open Sql

namespace Store

/-- The page that a row is about. -/
def pageOf? (store : Store) (row : Row) : Option Page :=
  match Dictionary.find? row "id" with
  | some (.integer id) => store.page? id
  | _ => none

/-- May the page of row `a` stand before that of row `b`? -/
def rowInOrder (store : Store) (schema : Schema) (values : List SortValue) (a b : Row) : Bool :=
  match store.pageOf? a, store.pageOf? b with
  | some page, some other => (store.comparePages schema values page other).isLE
  | _, _ => true

end Store

/-- The first row of every page that has one. -/
def Plan.pageEntries (plan : Plan) (query : Query) (pages : List Page) : List (Page × Binding) :=
  pages.filterMap fun page =>
    (plan.pageRows query page.record).head?.map fun binding => (page, binding)

theorem Plan.mem_pageEntries {plan : Plan} {query : Query} {pages : List Page}
    {entry : Page × Binding} (isEntry : entry ∈ plan.pageEntries query pages) :
    entry.1 ∈ pages ∧ entry.2 ∈ plan.joinAll entry.1.record := by
  obtain ⟨page, isPage, given⟩ := List.mem_filterMap.1 isEntry
  obtain ⟨binding, first, rfl⟩ := Option.map_eq_some_iff.1 given
  exact ⟨isPage, List.mem_of_mem_filter (List.mem_of_mem_head? first)⟩

theorem Plan.nodup_pageEntries {plan : Plan} {query : Query} {pages : List Page}
    (nodup : pages.Nodup) : (plan.pageEntries query pages).Nodup := by
  refine nodup.filterMap fun page other entry given givenToo => ?_
  obtain ⟨binding, -, isEntry⟩ := Option.map_eq_some_iff.1 given
  obtain ⟨another, -, same⟩ := Option.map_eq_some_iff.1 givenToo
  exact congrArg Prod.fst (isEntry.trans same.symm)

def Query.rowOf (query : Query) (binding : Binding) : Row :=
  Row.ofCells (query.columnNames.zip (query.cells binding))

theorem Plan.assemble_eq_map_rowOf (plan : Plan) {query : Query} (windowless : query.window = none) :
    (plan.resultSet query).assemble = ((plan.groupedRows query).mergeSort fun a b =>
      (Order.compareAll query.scores query.orders a b).isLE).map query.rowOf := by
  have whole (rows : List Binding) : query.windowed rows = rows := by
    rw [Query.windowed, windowless]
  have ordered : rowsInOrder query.scores query.orders = fun a b =>
      (Order.compareAll query.scores query.orders a b).isLE :=
    funext fun a => funext fun b => Order.rowsInOrder_eq query.orders a b
  rw [ResultSet.assemble, resultSet, whole, sortedRows, ordered, List.map_map]
  rfl

theorem Order.compareAll_congr {scores : List Score} {orders : List Order} {a b c d : Binding}
    (same : ∀ order ∈ orders, order.key scores a = order.key scores c ∧
      order.key scores b = order.key scores d) :
    compareAll scores orders a b = compareAll scores orders c d := by
  induction orders with
  | nil => rfl
  | cons order rest induction =>
      rw [List.forall_mem_cons] at same
      rw [compareAll, compareLex, compareLex, induction same.2, compareBy, compareBy, same.1.1,
        same.1.2]

namespace Plan.SortsBy

variable {schema : Schema} {store : Store} {values : List SortValue}
  {query other : Query} (sorts : query.Sorts other schema values) {plan frame : Plan}
  {tables : List JoinedSource} (sortsBy : plan.SortsBy frame store schema values tables)
  (bound : store.boundPlan? other = some frame)

include sortsBy

theorem groupedRows_eq_map : frame.groupedRows other =
    (frame.pageEntries other store.pages).map Prod.snd := by
  rw [groupedRows, sortsBy.frameBase, pageEntries, List.map_filterMap]
  change (store.pages.map Page.record).filterMap _ = _
  rw [List.filterMap_map]
  refine List.filterMap_congr fun page _ => ?_
  rw [Function.comp_apply, Option.map_map]
  exact Option.map_id'.symm

theorem pageOf?_rowOf (nodup : (store.pages.map Page.id).Nodup) {entry : Page × Binding}
    (isEntry : entry ∈ frame.pageEntries other store.pages) :
    store.pageOf? (other.rowOf entry.2) = some entry.1 := by
  obtain ⟨isPage, isRow⟩ := mem_pageEntries isEntry
  have own : store.baseSource.provides Query.idColumn = true :=
    store.provides_of_pageColumn (by decide)
  have id : entry.2 Query.idColumn = .integer entry.1.id := by
    rw [eq_cell_of_mem_joinAll isRow (sortsBy.resolves_base own).2 (sortsBy.frameBase ▸ own),
      sortsBy.frameBase]
    exact store.cell_id entry.1
  rw [Store.pageOf?, Query.rowOf, Query.find?_id_ofCells, id]
  exact Store.page?_of_mem nodup isPage

include bound

theorem value_extendAll {score : Score} (isScore : score ∈ other.scores) (page : Record)
    (binding : Binding) : score.value (binding.extendAll (plan.lookUp page tables)) =
      score.value binding := by
  obtain ⟨-, resolved⟩ := Store.boundPlan?_eq_some_iff_isPlanned.1 bound
  have framed := (Query.forall_columns_iff.1 resolved).2.2.2.1 score isScore
  rw [Score.value, Score.value, sortsBy.extendAll_eq framed]

include sorts

theorem key_extendAll {order : Order} (isOrder : order ∈ other.orders) (page : Record)
    (binding : Binding) :
    order.key other.scores (binding.extendAll (plan.lookUp page tables)) =
      order.key other.scores binding := by
  rw [sorts.unsorted] at isOrder
  obtain ⟨label, -, rfl⟩ := List.mem_map.1 isOrder
  rw [Order.key, Order.key, Order.ofScore]
  dsimp only
  cases found : other.scores.find? fun score => sameName score.label label.label with
  | none => rfl
  | some score =>
      rw [Option.map_some, Option.map_some,
        sortsBy.value_extendAll bound (List.mem_of_find?_eq_some found)]

theorem rowOf_extendAll (page : Record) (binding : Binding) :
    query.rowOf (binding.extendAll (plan.lookUp page tables)) = other.rowOf binding := by
  obtain ⟨-, resolved⟩ := Store.boundPlan?_eq_some_iff_isPlanned.1 bound
  have own := (Query.forall_columns_iff.1 resolved).1
  have id := own Query.idColumn (by simp)
  have template := own Query.templateColumn (by simp)
  have scored : other.scores.map (fun score =>
        (score.value (binding.extendAll (plan.lookUp page tables))).datum) =
      other.scores.map fun score => (score.value binding).datum :=
    List.map_congr_left fun score isScore => by rw [sortsBy.value_extendAll bound isScore]
  rw [Query.rowOf, Query.rowOf, Query.columnNames, Query.columnNames, Query.cells, Query.cells,
    sorts.scores, scored, sortsBy.extendAll_eq id, sortsBy.extendAll_eq template]

theorem groupedRows_sorted_eq_map : plan.groupedRows query =
    (frame.pageEntries other store.pages).map fun entry =>
      entry.2.extendAll (plan.lookUp entry.1.record tables) := by
  rw [groupedRows, sortsBy.baseSource, pageEntries, List.map_filterMap]
  change (store.pages.map Page.record).filterMap _ = _
  rw [List.filterMap_map]
  refine List.filterMap_congr fun page isPage => ?_
  have isRecord : page.record ∈ plan.base.table.records :=
    sortsBy.baseSource ▸ List.mem_map_of_mem isPage
  rw [Function.comp_apply, Option.map_map,
    sortsBy.pageRows_eq sorts.filters_eq (Store.resolves_filters bound) isRecord, List.head?_map]
  rfl

/-- The rows of a sorted query are those of the query without the sort values, sorted once more. -/
theorem assemble_eq (plain : ∀ value ∈ values, value.IsPlain schema)
    (nodup : (store.pages.map Page.id).Nodup) :
    (plan.resultSet query).assemble =
      (frame.resultSet other).assemble.mergeSort (store.rowInOrder schema values) := by
  let entries := frame.pageEntries other store.pages
  let full (entry : Page × Binding) : Binding :=
    entry.2.extendAll (plan.lookUp entry.1.record tables)
  let row (entry : Page × Binding) : Row := other.rowOf entry.2
  -- Pages with rows are compared by what is looked up for them, and by relevance.
  let byKeys (a b : Page × Binding) : Ordering :=
    Order.compareAll other.scores (values.map (SortValue.order schema)).reverse (full a) (full b)
  let byScores (a b : Page × Binding) : Ordering :=
    Order.compareAll other.scores other.orders a.2 b.2
  have isTotal : Std.TransCmp byKeys := transCmp_comap full
  have isTotalToo : Std.TransCmp byScores := transCmp_comap Prod.snd
  have distinct : entries.Nodup := nodup_pageEntries (List.Nodup.of_map _ nodup)
  have before : (frame.resultSet other).assemble =
      (entries.mergeSort fun a b => (byScores a b).isLE).map row := by
    rw [assemble_eq_map_rowOf frame sorts.otherWindow, sortsBy.groupedRows_eq_map,
      ← List.map_mergeSort (r := fun a b => (byScores a b).isLE) fun _ _ _ _ => rfl, List.map_map]
    rfl
  have after : (plan.resultSet query).assemble =
      (entries.mergeSort fun a b => (compareLex byKeys byScores a b).isLE).map row := by
    have same (a b : Page × Binding) : compareLex byKeys byScores a b =
        Order.compareAll query.scores query.orders (full a) (full b) := by
      have scored : byScores a b = Order.compareAll other.scores other.orders (full a) (full b) :=
        Order.compareAll_congr fun order isOrder =>
          ⟨(sortsBy.key_extendAll sorts bound isOrder a.1.record a.2).symm,
            (sortsBy.key_extendAll sorts bound isOrder b.1.record b.2).symm⟩
      rw [sorts.scores, sorts.orders, Order.compareAll_append, compareLex, compareLex, scored]
    rw [assemble_eq_map_rowOf plan sorts.window, sortsBy.groupedRows_sorted_eq_map sorts bound,
      ← List.map_mergeSort (r := fun a b => (compareLex byKeys byScores a b).isLE)
        fun a _ b _ => by rw [same], List.map_map]
    refine List.map_congr_left fun entry _ => ?_
    exact sortsBy.rowOf_extendAll sorts bound entry.1.record entry.2
  have ordered : ∀ a ∈ entries.mergeSort fun a b => (byScores a b).isLE,
      ∀ b ∈ entries.mergeSort fun a b => (byScores a b).isLE,
        (byKeys a b).isLE = store.rowInOrder schema values (row a) (row b) := by
    intro a isFirst b isSecond
    have isEntry := List.mem_mergeSort.1 isFirst
    have isEntryToo := List.mem_mergeSort.1 isSecond
    rw [Store.rowInOrder, sortsBy.pageOf?_rowOf nodup isEntry,
      sortsBy.pageOf?_rowOf nodup isEntryToo]
    exact congrArg Ordering.isLE (sortsBy.compareAll_order plain other.scores (fun _ => id)
      (mem_pageEntries isEntry).2 (mem_pageEntries isEntryToo).2)
  rw [after, before, ← mergeSort_mergeSort distinct, List.map_mergeSort ordered]

end Plan.SortsBy

end PageTree
