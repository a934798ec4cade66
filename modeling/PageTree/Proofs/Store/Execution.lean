import PageTree.Proofs.Data.Result
import PageTree.Proofs.Query.Naming
import PageTree.Proofs.Store.Joins

/-!
What comes of a query that a store carries out. Every returned row belongs to a page, of which the
filters hold with some choice of the joined records.
-/

namespace PageTree

open Sql

theorem Query.forall_columns_iff {query : Query} {p : Column → Prop} :
    (∀ column ∈ query.columns, p column) ↔
      (∀ column ∈ [idColumn, templateColumn], p column) ∧
      (∀ join ∈ query.joins,
        join.on.Forall fun test : Test => ∀ column ∈ test.columns, p column) ∧
      (∀ conjunct ∈ query.conjuncts,
        conjunct.filter.Forall fun test : Test => ∀ column ∈ test.columns, p column) ∧
      (∀ score ∈ query.scores, p score.subject) ∧
      ∀ order ∈ query.orders, ∀ column, order.expression = .column column → p column := by
  have tested (filters : List Filter) :
      (∀ column ∈ (filters.flatMap Condition.tests).flatMap Test.columns, p column) ↔
        ∀ filter ∈ filters,
          filter.Forall fun test : Test => ∀ column ∈ test.columns, p column := by
    simp only [List.forall_mem_flatMap, Condition.Forall]
  have joined := tested (query.joins.map Join.on)
  have filtered := tested query.filters
  rw [List.flatMap_map, List.forall_mem_map] at joined
  rw [filters, List.forall_mem_map] at filtered
  simp only [columns, filters, List.forall_mem_append, and_assoc]
  refine and_congr Iff.rfl (and_congr joined (and_congr filtered (and_congr
    List.forall_mem_map ⟨fun all order isOrder column named => ?_, fun all column isColumn => ?_⟩)))
  · exact all column (List.mem_filterMap.2 ⟨order, isOrder, by rw [named]⟩)
  · obtain ⟨order, isOrder, named⟩ := List.mem_filterMap.1 isColumn
    refine all order isOrder column ?_
    cases expression : order.expression with
    | column other => rw [expression] at named; exact congrArg _ (Option.some.inj named)
    | random => rw [expression] at named; cases named
    | score label => rw [expression] at named; cases named

namespace Store

/-- Is the table of the join the one that the joined source reads? -/
def Joins (store : Store) (join : Join) (joined : JoinedSource) : Prop :=
  (store.joinSource? join).map (JoinedSource.of join) = some joined

theorem boundPlan?_eq_some {store : Store} {query : Query} {plan : Plan} :
    store.boundPlan? query = some plan ↔
      List.Forall₂ store.Joins (query.joinsOf .inner) plan.inner ∧
        List.Forall₂ store.Joins (query.joinsOf .left) plan.left ∧
          plan.base = store.baseSource ∧ ∀ column ∈ query.columns, plan.resolves column = true := by
  unfold boundPlan?
  constructor
  · intro bound
    obtain ⟨inner, isInner, bound⟩ := Option.bind_eq_some_iff.1 bound
    obtain ⟨left, isLeft, bound⟩ := Option.bind_eq_some_iff.1 bound
    dsimp only at bound
    split at bound
    · next resolved =>
      cases bound
      exact ⟨mapM_eq_some.1 isInner, mapM_eq_some.1 isLeft, rfl, List.all_eq_true.1 resolved⟩
    · cases bound
  · rintro ⟨isInner, isLeft, base, resolved⟩
    obtain ⟨inner, left, source⟩ := plan
    dsimp only at isInner isLeft base
    subst base
    refine Option.bind_eq_some_iff.2 ⟨inner, mapM_eq_some.2 isInner, ?_⟩
    refine Option.bind_eq_some_iff.2 ⟨left, mapM_eq_some.2 isLeft, ?_⟩
    exact if_pos (List.all_eq_true.2 resolved)

theorem boundPlan?_of_runnablePlan? {store : Store} {query : Query} {plan : Plan}
    (runnable : store.runnablePlan? query = some plan) : store.boundPlan? query = some plan := by
  have planned := (Option.filter_eq_some_iff.1 runnable).1
  unfold plan? at planned
  split at planned
  · exact planned
  · cases planned

theorem exists_runnablePlan?_of_execute {store : Store} {query : Query}
    (plain : query.isPlain = true) {result : ResultSet}
    (executed : store.execute query = .ok result) :
    ∃ plan, store.runnablePlan? query = some plan ∧ result = plan.resultSet query := by
  rw [execute, if_pos plain, executePlain] at executed
  split at executed
  · cases executed
  · next plan runnable =>
    cases executed
    exact ⟨plan, runnable, rfl⟩

theorem execute_eq_ok {store : Store} {query : Query} (plain : query.isPlain = true)
    {result : ResultSet} (executed : store.execute query = .ok result) :
    ∃ plan, store.boundPlan? query = some plan ∧ result = plan.resultSet query := by
  obtain ⟨plan, runnable, rfl⟩ := exists_runnablePlan?_of_execute plain executed
  exact ⟨plan, boundPlan?_of_runnablePlan? runnable, rfl⟩

/-- What comes of a query when no statement is too large and no pattern too long. -/
def executeUnbounded (store : Store) (query : Query) : Except Error ResultSet :=
  if query.isPlain then
    (if query.isReadable then store.boundPlan? query else none).elim
      (.error (.database .rejectedStatement)) fun plan => .ok (plan.resultSet query)
  else store.executeText query

def unboundedEngine (store : Store) : Engine :=
  { execute := store.executeUnbounded, foundRows := store.foundRows }

theorem execute_eq_executeUnbounded {store : Store} {query : Query}
    (small : query.isWithinLimits = true) (short : query.hasLongPattern = false) :
    store.execute query = store.executeUnbounded query := by
  have runnable : store.runnablePlan? query =
      if query.isReadable then store.boundPlan? query else none := by
    rw [runnablePlan?, plan?, small, Bool.and_true]
    cases (if query.isReadable then store.boundPlan? query else none) with
    | none => rfl
    | some plan =>
        refine Option.filter_some_pos ?_
        rw [Plan.meetsLongPattern, short, Bool.false_and, Bool.not_false]
  unfold execute executeUnbounded executePlain
  rw [runnable, small, if_pos rfl]
  cases (if query.isReadable then store.boundPlan? query else none) with
  | none => rfl
  | some plan => rfl

theorem execute_of_isWithinLimits_eq_false {store : Store} {query : Query}
    (large : query.isWithinLimits = false) :
    store.execute query = .error (.database .rejectedStatement) := by
  have stuck : store.runnablePlan? query = none := by
    rw [runnablePlan?, plan?, large, Bool.and_false]
    rfl
  rw [execute, executePlain, stuck, large]
  exact ite_self _

theorem executeUnbounded_of_boundPlan? {store : Store} {query : Query} {plan : Plan}
    (plain : query.isPlain = true) (readable : query.isReadable = true)
    (bound : store.boundPlan? query = some plan) :
    store.executeUnbounded query = .ok (plan.resultSet query) := by
  rw [executeUnbounded, if_pos plain, if_pos readable, bound, Option.elim_some]

theorem executeUnbounded_eq_ok {store : Store} {query : Query} (plain : query.isPlain = true)
    {result : ResultSet} (executed : store.executeUnbounded query = .ok result) :
    ∃ plan, store.boundPlan? query = some plan ∧ result = plan.resultSet query := by
  rw [executeUnbounded, if_pos plain] at executed
  split at executed
  · cases bound : store.boundPlan? query with
    | none =>
        rw [bound] at executed
        cases executed
    | some plan =>
        rw [bound] at executed
        cases executed
        exact ⟨plan, rfl, rfl⟩
  · cases executed

end Store

theorem Query.IsWellNamed.isPlain {query : Query} (named : query.IsWellNamed) :
    query.isPlain = true := by
  rw [Query.isPlain, Bool.and_eq_true, List.all_eq_true]
  constructor
  · have comment : query.statement.comment = "" := named.comment
    rw [Statement.hasPlainComment, comment]
    rfl
  · exact fun join member => isWord_of_isTableName (named.joins join member).aliasName

/-! ### Columns of the page table -/

theorem find?_zip_eq {α β : Type} (p : α → Bool) (as : List α) (bs : List β) :
    ((as.zip bs).find? fun entry => p entry.1).map Prod.snd = (as.findIdx? p).bind (bs[·]?) := by
  induction as generalizing bs with
  | nil => rfl
  | cons a as induction =>
      cases bs with
      | nil => simp
      | cons b bs =>
          rw [List.zip_cons_cons, List.find?_cons, List.findIdx?_cons]
          cases found : p a with
          | true => simp
          | false =>
              rw [induction]
              cases as.findIdx? p with
              | none => rfl
              | some place => rfl

theorem Table.cell_eq {table : Table} {record : Record} {name : String} {place : Nat}
    (isPlace : (table.columns.findIdx? fun column => sameName column.1 name) = some place)
    {value : Value} (held : record.values[place]? = some value) :
    table.cell record name = value := by
  have found := find?_zip_eq (fun column => sameName column.1 name) table.columns record.values
  rw [isPlace, Option.bind_some, held] at found
  rw [Table.cell, found, Option.getD_some]

theorem Plan.affinity_of_base {plan : Plan} {column : Column}
    (own : plan.base.provides column = true) :
    plan.affinity column = (plan.base.table.affinity? column.name).getD .text := by
  simp [affinity, affinityIn, sources, own]

namespace Store

variable (store : Store)

theorem provides_of_pageColumn {name : String}
    (isColumn : Page.columns.any (fun column => sameName column.1 name) = true) :
    store.baseSource.provides ⟨"pages", name⟩ = true := by
  rw [Source.provides, Bool.and_eq_true, Table.hasColumn, Bool.or_eq_true]
  exact ⟨sameName_refl "pages", .inl isColumn⟩

theorem cell_id (page : Page) : store.baseSource.table.cell page.record "id" = .integer page.id :=
  Table.cell_eq (by decide : Page.columns.findIdx? _ = some 0) rfl

theorem cell_parent (page : Page) :
    store.baseSource.table.cell page.record "parent_id" = .integer page.parent :=
  Table.cell_eq (by decide : Page.columns.findIdx? _ = some 1) rfl

theorem cell_status (page : Page) :
    store.baseSource.table.cell page.record "status" = .integer page.status :=
  Table.cell_eq (by decide : Page.columns.findIdx? _ = some 4) rfl

end Store

/-! ### Rows -/

theorem Score.isScoreColumn_label (score : Score) : Row.isScoreColumn score.label = true := by
  rw [Row.isScoreColumn, List.isPrefixOf_iff_prefix, Score.label, String.append_assoc,
    String.append_assoc, String.toList_append]
  exact List.prefix_append ..

/-- The cells of a row are named by the page columns and by relevance columns alone. -/
theorem Query.find?_id_ofCells (query : Query) (binding : Binding) :
    Dictionary.find? (Row.ofCells (query.columnNames.zip (query.cells binding))) "id" =
      some (binding idColumn).datum := by
  have dropped : ((query.scores.map Score.label).zip
      (query.scores.map fun score => (score.value binding).datum)).filter
        (fun cell => !Row.isScoreColumn cell.1) = [] := by
    rw [List.zip_map', List.filter_eq_nil_iff]
    intro cell member
    obtain ⟨score, -, rfl⟩ := List.mem_map.1 member
    simp [Score.isScoreColumn_label]
  have kept : (query.columnNames.zip (query.cells binding)).filter
      (fun cell => !Row.isScoreColumn cell.1) =
        [("id", (binding idColumn).datum), ("templates_id", (binding templateColumn).datum)] := by
    have ordinary : Row.isScoreColumn "id" = false ∧ Row.isScoreColumn "templates_id" = false := by
      decide
    simp only [columnNames, cells, List.cons_append, List.nil_append, List.zip_cons_cons,
      List.filter_cons, dropped]
    simp [idColumn, templateColumn, ordinary]
  rw [Row.ofCells, kept, Dictionary.find?_insert, if_neg (by decide)]
  simp only [Dictionary.ofPairs, List.foldl_cons, List.foldl_nil, Dictionary.find?_insert]
  rfl

namespace Plan

variable {plan : Plan} {query : Query}

theorem exists_of_mem_assemble {row : Row} (member : row ∈ (plan.resultSet query).assemble) :
    ∃ page ∈ plan.base.table.records, ∃ binding ∈ plan.pageRows query page,
      row = Row.ofCells (query.columnNames.zip (query.cells binding)) := by
  obtain ⟨cells, isRow, rfl⟩ := List.mem_map.1 member
  obtain ⟨binding, inWindow, rfl⟩ := List.mem_map.1 isRow
  have sorted : binding ∈ plan.sortedRows query := by
    unfold Query.windowed at inWindow
    split at inWindow
    · exact List.mem_of_mem_drop (List.mem_of_mem_take inWindow)
    · exact inWindow
  obtain ⟨page, isPage, first⟩ := List.mem_filterMap.1 (List.mem_mergeSort.1 sorted)
  exact ⟨page, isPage, binding, List.mem_of_mem_head? first, rfl⟩

theorem holds_of_mem_pageRows {page : Record} {binding : Binding}
    (member : binding ∈ plan.pageRows query page) {conjunct : Conjunct}
    (isConjunct : conjunct ∈ query.conjuncts) : plan.holds binding conjunct.filter = true :=
  List.all_eq_true.1 (List.mem_filter.1 member).2 _ (List.mem_map.2 ⟨conjunct, isConjunct, rfl⟩)

theorem pageRows_ne_nil_iff {page : Record} :
    plan.pageRows query page ≠ [] ↔ ∃ binding ∈ plan.joinAll page,
      ∀ conjunct ∈ query.conjuncts, plan.holds binding conjunct.filter = true := by
  rw [pageRows, ← List.isEmpty_eq_false_iff, List.isEmpty_eq_false_iff_exists_mem]
  simp only [List.mem_filter, List.all_eq_true, Query.filters, List.forall_mem_map]

end Plan

/-! ### Finds -/

namespace Finder

variable {finder : Finder} {catalog : Catalog} {engine : Engine} {selector : Selector}
  {single : Bool}

theorem find_rows {query : Query} {result : ResultSet}
    (compiled : finder.queryFor catalog selector single = .ok query)
    (executed : engine.execute query = .ok result)
    (uncounted : (!single && query.hasLimit) = false) :
    (finder.find catalog engine selector single).rows = .ok result.assemble := by
  unfold find resolveTotal
  simp only [compiled, executed, uncounted]
  split
  · next empty => rw [ResultSet.assemble, List.isEmpty_iff.1 empty, List.map_nil]
  · rfl

theorem find_rows_of_error {query : Query} {error : Error}
    (compiled : finder.queryFor catalog selector single = .ok query)
    (failed : engine.execute query = .error error) :
    (finder.find catalog engine selector single).rows = .error error := by
  unfold find
  simp only [compiled, failed]

/-- Where no statement is too large and no pattern too long, the engine answers as without such
bounds. -/
theorem find_engine_eq {store : Store} {query : Query}
    (compiled : finder.queryFor catalog selector single = .ok query)
    (small : query.isWithinLimits = true) (short : query.hasLongPattern = false) :
    finder.find catalog store.engine selector single =
      finder.find catalog store.unboundedEngine selector single := by
  have same : store.engine.execute query = store.unboundedEngine.execute query :=
    Store.execute_eq_executeUnbounded small short
  have counted : store.engine.foundRows = store.unboundedEngine.foundRows := rfl
  unfold find resolveTotal
  simp only [compiled, same, counted]

theorem exists_of_find_ok {rows : List Row}
    (found : (finder.find catalog engine selector single).rows = .ok rows) :
    ∃ query result, finder.queryFor catalog selector single = .ok query ∧
      engine.execute query = .ok result ∧ rows = result.assemble := by
  unfold find at found
  split at found
  · cases found
  next query compiled =>
  dsimp only at found
  split at found
  · cases found
  next result executed =>
  refine ⟨query, result, compiled, executed, ?_⟩
  split at found
  · next empty =>
    cases found
    rw [ResultSet.assemble, List.isEmpty_iff.1 empty, List.map_nil]
  · split at found
    · cases found
    · cases found
      rfl

end Finder

end PageTree
