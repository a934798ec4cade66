import PageTree.Proofs.Finder.Meaning

/-!
Queries whose joins all drop rows and read one table, each under an alias of its own. Main
statements: the joined rows of a page are the ways to assign a record of the table to every alias so
that all conditions hold, and a find with such a query returns the pages that have such rows, once.
-/

namespace PageTree

open Sql

namespace Plan

variable {plan : Plan} {page : Record} {assignment : String → Record}

/-- The binding of a page with a record for every alias. -/
def assigned (plan : Plan) (page : Record) (assignment : String → Record) : Binding :=
  (plan.pageBinding page).extendAll
    (plan.inner.map fun joined => (joined, some (assignment joined.source.aliasName)))

theorem exists_assignment {tables : List JoinedSource}
    {chosen : List (JoinedSource × Option Record)} (choice : IsChoice tables chosen)
    (apart : (tables.map fun joined => joined.source.aliasName).Nodup) :
    ∃ assignment : String → Record,
      (∀ joined ∈ tables,
        assignment joined.source.aliasName ∈ joined.source.table.records) ∧
      chosen = tables.map fun joined => (joined, some (assignment joined.source.aliasName)) := by
  induction tables generalizing chosen with
  | nil =>
      refine ⟨fun _ => ⟨0, []⟩, by simp, ?_⟩
      rw [List.map_eq_nil_iff.1 choice.tables, List.map_nil]
  | cons joined rest induction =>
      obtain ⟨tables, records⟩ := choice
      cases chosen with
      | nil => simp at tables
      | cons first others =>
          obtain ⟨rfl, tail⟩ := List.cons.inj tables
          rw [List.map_cons, List.nodup_cons] at apart
          rw [List.forall_mem_cons] at records
          obtain ⟨⟨record, isRecord, isSome⟩, kept⟩ := records
          obtain ⟨assignment, inside, rfl⟩ := induction ⟨tail, kept⟩ apart.2
          have others : ∀ joined ∈ rest, Function.update assignment first.1.source.aliasName record
              joined.source.aliasName = assignment joined.source.aliasName := by
            intro joined isJoined
            refine Function.update_of_ne (fun same => apart.1 ?_) ..
            exact same ▸ List.mem_map_of_mem isJoined
          refine ⟨Function.update assignment first.1.source.aliasName record, ?_, ?_⟩
          · rw [List.forall_mem_cons, Function.update_self]
            exact ⟨isRecord, fun joined isJoined => others joined isJoined ▸ inside joined isJoined⟩
          · rw [List.map_cons, Function.update_self, ← isSome]
            refine congrArg (first :: ·) (List.map_congr_left fun joined isJoined => ?_)
            rw [others joined isJoined]

theorem isChoice_map {tables : List JoinedSource}
    (inside : ∀ joined ∈ tables, assignment joined.source.aliasName ∈ joined.source.table.records) :
    IsChoice tables
      (tables.map fun joined => (joined, some (assignment joined.source.aliasName))) where
  tables := by
    rw [List.map_map]
    exact List.map_id tables
  records := List.forall_mem_map.2 fun joined isJoined => ⟨_, inside joined isJoined, rfl⟩

theorem mem_joinAll_iff (noLeft : plan.left = [])
    (apart : (plan.inner.map fun joined => joined.source.aliasName).Nodup)
    (resolved : ∀ joined ∈ plan.inner, ∀ column ∈ Filter.columns joined.join.on,
      plan.resolves column = true) {binding : Binding} :
    binding ∈ plan.joinAll page ↔ ∃ assignment : String → Record,
      (∀ joined ∈ plan.inner,
        assignment joined.source.aliasName ∈ joined.source.table.records) ∧
      (∀ joined ∈ plan.inner,
        plan.holds (plan.assigned page assignment) joined.join.on = true) ∧
      binding = plan.assigned page assignment := by
  rw [mem_joinAll resolved, noLeft]
  constructor
  · rintro ⟨inner, choice, holds, left, noTables, -, rfl⟩
    rw [List.map_eq_nil_iff.1 noTables, List.append_nil]
    obtain ⟨assignment, inside, rfl⟩ := exists_assignment choice apart
    exact ⟨assignment, inside, holds, rfl⟩
  · rintro ⟨assignment, inside, holds, rfl⟩
    refine ⟨_, isChoice_map inside, holds, [], rfl, trivial, ?_⟩
    rw [List.append_nil]
    rfl

theorem assigned_of_mem {joined : JoinedSource} (isJoined : joined ∈ plan.inner) {column : Column}
    (resolved : plan.resolves column = true) (own : joined.source.provides column = true) :
    plan.assigned page assignment column
      = joined.source.table.cell (assignment joined.source.aliasName) column.name := by
  let choice (joined : JoinedSource) : JoinedSource × Option Record :=
    (joined, some (assignment joined.source.aliasName))
  have tables : ((plan.inner.map choice).map Prod.fst).Sublist (plan.inner ++ plan.left) := by
    rw [List.map_map, show Prod.fst ∘ choice = id from rfl, List.map_id]
    exact List.sublist_append_left ..
  have isChoice : choice joined ∈ plan.inner.map choice := List.mem_map_of_mem isJoined
  calc plan.assigned page assignment column
      = (plan.pageBinding page).extend joined.source (choice joined).2 column :=
        extendAll_eq_extend tables isChoice resolved (.inl own)
    _ = _ := Binding.extend_of_provides own

theorem assigned_of_base {column : Column} (resolved : plan.resolves column = true)
    (own : plan.base.provides column = true) :
    plan.assigned page assignment column = plan.base.table.cell page column.name := by
  rw [assigned, Binding.extendAll_of_not_provides, pageBinding, Binding.extend_of_provides own]
  rw [List.forall_mem_map]
  exact fun joined isJoined => not_provides_of_base resolved own (List.mem_append_left _ isJoined)

end Plan

/-! ### Queries that filter by one table -/

/-- Does the column belong to the page, or to the table under the alias of a join? -/
def Query.Names (query : Query) (table : Table) (column : Column) : Prop :=
  column.aliasName = "pages" ∧ Page.columns.any (fun other => sameName other.1 column.name) = true ∨
    ∃ join ∈ query.joins, column.aliasName = join.aliasName ∧ table.hasColumn column.name = true

/-- The joins of the query drop rows and read one table, and there is nothing but filters to it. -/
structure Query.FiltersBy (store : Store) (table : Table) (query : Query) : Prop where
  kind : ∀ join ∈ query.joins, join.kind = .inner
  source : ∀ join ∈ query.joins, store.source? join.table = some table
  apart : (("pages" :: query.joins.map Join.aliasName).map foldName).Nodup
  qualifier : ∀ join ∈ query.joins, isQualifier join.aliasName = true
  begins : ∀ join ∈ query.joins, beginsQuery join.aliasName = false
  joins : ∀ join ∈ query.joins,
    join.on.Forall fun test : Test => ∀ column ∈ test.columns, query.Names table column
  filters : ∀ conjunct ∈ query.conjuncts,
    conjunct.filter.Forall fun test : Test => ∀ column ∈ test.columns, query.Names table column
  scores : query.scores = []
  orders : query.orders = []
  window : query.window = none

namespace Store

variable {store : Store} {table : Table} {query : Query}

/-- The plan of such a query. -/
def innerPlan (store : Store) (table : Table) (query : Query) : Plan where
  inner := query.joins.map fun join => JoinedSource.of join ⟨join.aliasName, table⟩
  left := []
  base := store.baseSource

theorem mem_inner_innerPlan {join : Join} (isJoin : join ∈ query.joins) :
    JoinedSource.of join ⟨join.aliasName, table⟩ ∈ (store.innerPlan table query).inner :=
  List.mem_map_of_mem isJoin

theorem mem_sources_innerPlan {join : Join} (isJoin : join ∈ query.joins) :
    ⟨join.aliasName, table⟩ ∈ (store.innerPlan table query).sources :=
  List.mem_cons_of_mem _
    (List.mem_map.2 ⟨_, List.mem_append_left _ (mem_inner_innerPlan isJoin), rfl⟩)

theorem affinity_innerPlan {name : String}
    (isColumn : Page.columns.any (fun other => sameName other.1 name) = true) :
    (store.innerPlan table query).affinity ⟨"pages", name⟩
      = (store.pageTable.affinity? name).getD .text :=
  Plan.affinity_of_base (store.provides_of_pageColumn isColumn)

end Store

namespace Query.FiltersBy

variable {store : Store} {table : Table} {query : Query} (filters : query.FiltersBy store table)

include filters

theorem joinsOf_inner : query.joinsOf .inner = query.joins :=
  List.filter_eq_self.2 fun join isJoin => decide_eq_true (filters.kind join isJoin)

theorem joinsOf_left : query.joinsOf .left = [] := by
  refine List.filter_eq_nil_iff.2 fun join isJoin => ?_
  simp [filters.kind join isJoin]

theorem nodup_sources : ((store.innerPlan table query).sources.map fun source =>
    foldName source.aliasName).Nodup := by
  have apart := filters.apart
  simpa [Plan.sources, Store.innerPlan, Store.baseSource, JoinedSource.of, Function.comp_def]
    using apart

theorem resolves_of_join {join : Join} (isJoin : join ∈ query.joins) {name : String}
    (isColumn : table.hasColumn name = true) :
    (store.innerPlan table query).resolves ⟨join.aliasName, name⟩ = true :=
  Plan.resolves_of_nodup filters.nodup_sources (Store.mem_sources_innerPlan isJoin)
    (Source.provides_own isColumn)

theorem resolves_of_page {name : String}
    (isColumn : Page.columns.any (fun other => sameName other.1 name) = true) :
    (store.innerPlan table query).resolves ⟨"pages", name⟩ = true :=
  Plan.resolves_of_nodup filters.nodup_sources (List.mem_cons_self ..)
    (store.provides_of_pageColumn isColumn)

theorem names_columns : ∀ column ∈ query.columns, query.Names table column := by
  refine Query.forall_columns_iff.2 ⟨?_, filters.joins, filters.filters, ?_, ?_⟩
  · exact List.forall_mem_cons.2 ⟨.inl ⟨rfl, by decide⟩,
      List.forall_mem_singleton.2 (.inl ⟨rfl, by decide⟩)⟩
  · simp [filters.scores]
  · simp [filters.orders]

theorem resolves_of_names {column : Column} (named : query.Names table column) :
    (store.innerPlan table query).resolves column = true := by
  obtain ⟨aliasName, name⟩ := column
  rcases named with ⟨rfl, isColumn⟩ | ⟨join, isJoin, rfl, isColumn⟩
  · exact filters.resolves_of_page isColumn
  · exact filters.resolves_of_join isJoin isColumn

theorem boundPlan?_eq : store.boundPlan? query = some (store.innerPlan table query) := by
  refine Store.boundPlan?_eq_some.2 ⟨?_, ?_, rfl, fun column isColumn =>
    filters.resolves_of_names (filters.names_columns column isColumn)⟩
  · rw [filters.joinsOf_inner, Store.innerPlan, List.forall₂_map_right_iff, List.forall₂_same]
    intro join isJoin
    rw [Store.Joins, Store.joinSource?, filters.source join isJoin]
    rfl
  · rw [filters.joinsOf_left]
    exact .nil

theorem joinsApart : query.JoinsApart store where
  isAlias join isJoin := by
    have apart := filters.apart
    rw [List.map_cons, List.map_map, List.nodup_cons] at apart
    exact ⟨filters.qualifier join isJoin, filters.begins join isJoin,
      fun same => apart.1 (List.mem_map.2 ⟨join, isJoin, same⟩)⟩
  joined join isJoin := Store.exists_joins (filters.source join isJoin)
  nodup := by
    have apart := filters.apart
    rw [List.map_cons, List.map_map, List.nodup_cons] at apart
    exact apart.2

theorem isPlain (comment : query.statement.hasPlainComment = true) : query.isPlain = true :=
  filters.joinsApart.isPlain comment

theorem isReadable : query.isReadable = true := by
  obtain ⟨planned, resolved⟩ :=
    Store.boundPlan?_eq_some_iff_isPlanned.1 filters.boundPlan?_eq
  exact filters.joinsApart.isReadable planned resolved

/-! ### Values -/

section

variable (page : Page) (assignment : String → Record)

theorem assigned_page {name : String}
    (isColumn : Page.columns.any (fun other => sameName other.1 name) = true) :
    (store.innerPlan table query).assigned page.record assignment ⟨"pages", name⟩
      = store.pageTable.cell page.record name :=
  Plan.assigned_of_base (filters.resolves_of_page isColumn) (store.provides_of_pageColumn isColumn)

theorem assigned_join {join : Join} (isJoin : join ∈ query.joins) {name : String}
    (isColumn : table.hasColumn name = true) :
    (store.innerPlan table query).assigned page.record assignment ⟨join.aliasName, name⟩
      = table.cell (assignment join.aliasName) name := by
  have own : Source.provides ⟨join.aliasName, table⟩ ⟨join.aliasName, name⟩ = true :=
    Source.provides_own isColumn
  exact Plan.assigned_of_mem (Store.mem_inner_innerPlan isJoin)
    (filters.resolves_of_join isJoin isColumn) own

end

theorem affinity_join {join : Join} (isJoin : join ∈ query.joins) {name : String}
    (isColumn : table.hasColumn name = true) :
    (store.innerPlan table query).affinity ⟨join.aliasName, name⟩
      = (table.affinity? name).getD .text :=
  Plan.affinity_of_resolves (filters.resolves_of_join isJoin isColumn)
    (Store.mem_sources_innerPlan isJoin) (Source.provides_own isColumn)

/-! ### Selected pages -/

theorem nodup_joins : (query.joins.map Join.aliasName).Nodup := by
  have apart := filters.apart
  rw [List.map_cons, List.nodup_cons] at apart
  exact List.Nodup.of_map foldName apart.2

theorem nodup_aliases :
    ((store.innerPlan table query).inner.map fun joined => joined.source.aliasName).Nodup := by
  rw [Store.innerPlan, List.map_map]
  exact filters.nodup_joins

theorem pageRows_ne_nil_iff {page : Page} :
    (store.innerPlan table query).pageRows query page.record ≠ [] ↔
      ∃ assignment : String → Record,
        (∀ join ∈ query.joins, assignment join.aliasName ∈ table.records) ∧
        (∀ join ∈ query.joins, (store.innerPlan table query).holds
          ((store.innerPlan table query).assigned page.record assignment) join.on = true) ∧
        ∀ conjunct ∈ query.conjuncts, (store.innerPlan table query).holds
          ((store.innerPlan table query).assigned page.record assignment)
            conjunct.filter = true := by
  have resolved : ∀ joined ∈ (store.innerPlan table query).inner,
      ∀ column ∈ Filter.columns joined.join.on,
        (store.innerPlan table query).resolves column = true := by
    rw [Store.innerPlan, List.forall_mem_map]
    intro join isJoin column read
    obtain ⟨test, isTest, among⟩ := List.mem_flatMap.1 read
    exact filters.resolves_of_names (filters.joins join isJoin test isTest column among)
  have joins {p : JoinedSource → Prop} :
      (∀ joined ∈ (store.innerPlan table query).inner, p joined) ↔
        ∀ join ∈ query.joins, p (JoinedSource.of join ⟨join.aliasName, table⟩) :=
    List.forall_mem_map
  have filtered {binding : Binding} :
      query.filters.all ((store.innerPlan table query).holds binding) = true ↔
        ∀ conjunct ∈ query.conjuncts,
          (store.innerPlan table query).holds binding conjunct.filter = true := by
    rw [List.all_eq_true, Query.filters, List.forall_mem_map]
  constructor
  · intro some
    obtain ⟨binding, member⟩ := List.exists_mem_of_ne_nil _ some
    obtain ⟨isRow, kept⟩ := List.mem_filter.1 member
    obtain ⟨assignment, inside, holds, rfl⟩ :=
      (Plan.mem_joinAll_iff rfl filters.nodup_aliases resolved).1 isRow
    exact ⟨assignment, joins.1 inside, joins.1 holds, filtered.1 kept⟩
  · rintro ⟨assignment, inside, holds, kept⟩
    exact List.ne_nil_of_mem (List.mem_filter.2
      ⟨(Plan.mem_joinAll_iff rfl filters.nodup_aliases resolved).2
        ⟨assignment, joins.2 inside, joins.2 holds, rfl⟩, filtered.2 kept⟩)

end Query.FiltersBy

/-! ### Finds -/

/-- A term without members is a query by itself. -/
theorem Finder.queryFor_singleton {finder : Finder} (unchecked : finder.checkStatus = false)
    {catalog : Catalog} {term : Term} (unsorted : term.kind ≠ .sort) (unlimited : term.kind ≠ .window)
    {part : Part} (compiled : Part.ofTerm catalog [] term = .ok part) (members : part.members = [])
    (scores : part.scores = []) :
    finder.queryFor catalog [term] false = .ok
      { joins := Join.merge part.joins, conjuncts := part.conjuncts, scores := [], orders := []
        window := none, comment := finder.commentFor [term] } := by
  have parts : Part.ofTerms catalog [] [term] = .ok [part] := by
    rw [Part.ofTerms, compiled]
    rfl
  obtain ⟨unsorted, unlimited⟩ := Selector.sortKeys_eq_nil_and_window?_eq_none_of_kind
    (List.forall_mem_singleton.2 ⟨unsorted, unlimited⟩) catalog
  rw [queryFor_eq_map_compile, prepare_of_unchecked unchecked, Selector.compile, parts]
  simp [Except.map, Selector.assemble, members, scores, unsorted, unlimited, MemberGroup.ofRuns,
    MemberGroup.conjuncts]

theorem Finder.isPlainComment_commentFor_singleton {finder : Finder}
    (unchecked : finder.checkStatus = false) {term : Term}
    (comment : finder.debug = true → isPlainComment term.text.toList = true) :
    isPlainComment (finder.commentFor [term]).toList = true := by
  rw [isPlainComment_commentFor_iff, prepare_of_unchecked unchecked]
  exact fun debug => List.forall_mem_singleton.2 (comment debug)

/-- A find with such a query returns the pages with joined rows, each once. -/
theorem Finder.find_ids {store : Store} (nodup : (store.pages.map Page.id).Nodup) {table : Table}
    {query : Query} (filters : query.FiltersBy store table) {finder : Finder} {catalog : Catalog}
    {selector : Selector} (compiled : finder.queryFor catalog selector false = .ok query)
    (comment : query.statement.hasPlainComment = true) :
    ∃ rows, (finder.find catalog store.unboundedEngine selector false).rows = .ok rows ∧
      (∃ ids : List Int, (rows.map fun row => Dictionary.find? row "id").Perm
          (ids.map fun id => some (.integer id)) ∧ ids.Nodup ∧
        ∀ id, id ∈ ids ↔ ∃ page ∈ store.pages, page.id = id ∧
          (store.innerPlan table query).pageRows query page.record ≠ []) ∧
      (query.isWithinLimits = true → query.hasLongPattern = false →
        (finder.find catalog store.engine selector false).rows = .ok rows) := by
  have executed : store.executeUnbounded query
      = .ok ((store.innerPlan table query).resultSet query) :=
    Store.executeUnbounded_of_boundPlan? (filters.isPlain comment) filters.isReadable
      filters.boundPlan?_eq
  have uncounted : (!false && query.hasLimit) = false := by
    rw [Query.hasLimit, filters.window]
    rfl
  let selected (page : Page) : Bool :=
    !((store.innerPlan table query).pageRows query page.record).isEmpty
  refine ⟨_, find_rows compiled executed uncounted,
    ⟨(store.pages.filter selected).map Page.id, ?_, ?_, fun id => ?_⟩, fun small short => ?_⟩
  · rw [List.map_map]
    exact Store.perm_ids_filter filters.boundPlan?_eq filters.window
  · exact nodup.sublist (List.filter_sublist.map _)
  · simp only [List.mem_map, List.mem_filter, selected, Bool.not_eq_true',
      List.isEmpty_eq_false_iff]
    refine exists_congr fun page => ?_
    rw [and_assoc, and_congr_right_iff]
    exact fun _ => and_comm
  · exact find_rows compiled
      ((Store.execute_eq_executeUnbounded small short).trans executed) uncounted

end PageTree
