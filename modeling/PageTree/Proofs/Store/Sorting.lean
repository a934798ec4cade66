import PageTree.Proofs.Compile.Sorting
import PageTree.Proofs.Store.Lookups
import PageTree.Proofs.Store.Orders
import PageTree.Proofs.Store.Planning
import PageTree.Proofs.Store.Tree
import PageTree.Proofs.Store.Values

/-!
Queries that are sorted, in a store that a site can come to. What is joined for a sort value has at
most one record for every page: a field has one value for it, and a page one parent. Main statement:
such a query has a plan that looks up the values besides what the query without them reads, and its
rows are the rows of that query, sorted once more.
-/

namespace PageTree

open Sql

/-! ### Values that pages are sorted by -/

namespace Store

/-- What a page is sorted by for a name: the name of its parent, its own column, or its value of the
field. -/
def sortValueOf (store : Store) (schema : Schema) (name : String) (page : Page) : Value :=
  if name = "parent" then (store.page? page.parent).elim .null fun above => .text above.name
  else if isNativeName name then page.binding (nativeColumn name)
  else (schema.field? name).elim .null fun field =>
    (store.valuesOf field.table page.id).headD .null

def compareBySortValue (store : Store) (schema : Schema) (value : SortValue) (a b : Page) :
    Ordering :=
  let ordering :=
    (store.sortValueOf schema value.name a).order (store.sortValueOf schema value.name b)
  if value.descending then ordering.swap else ordering

/-- The last value is the first to tell pages apart. -/
def comparePages (store : Store) (schema : Schema) : List SortValue → Page → Page → Ordering
  | [], _, _ => .eq
  | value :: values, a, b =>
    (store.comparePages schema values a b).then (store.compareBySortValue schema value a b)

/-- What a source gives a page. -/
def sourceValue (store : Store) (source : SortSource) (page : Page) : Value :=
  match source with
  | .value field => (store.valuesOf field.table page.id).headD .null
  | .parent => (store.page? page.parent).elim .null fun above => .text above.name
  | .reference _ => .null

theorem sortValueOf_of_sortSource? {store : Store} {schema : Schema} {value : SortValue}
    (plain : value.IsPlain schema) {source : SortSource}
    (found : schema.sortSource? value.name = some source) (page : Page) :
    store.sortValueOf schema value.name page = store.sourceValue source page := by
  rcases plain.sortSource?_eq with ⟨none, -⟩ | ⟨parent, named⟩ | ⟨field, isValue, isField⟩
  · rw [none] at found
    cases found
  · obtain rfl := Option.some.inj (parent.symm.trans found)
    rw [sortValueOf, if_pos named]
    rfl
  · have kept := isValue
    obtain rfl := Option.some.inj (isValue.symm.trans found)
    unfold Schema.sortSource? at kept
    split at kept
    · cases kept
    split at kept
    · cases kept
    next other =>
    split at kept
    · cases kept
    next ordinary =>
    rw [sortValueOf, if_neg other, if_neg ordinary, isField]
    rfl

theorem sortValueOf_of_isNative {store : Store} {schema : Schema} {value : SortValue}
    (none : schema.sortSource? value.name = none) (native : isNativeName value.name = true)
    (page : Page) :
    store.sortValueOf schema value.name page = page.binding (nativeColumn value.name) := by
  have other : value.name ≠ "parent" := by
    intro parent
    rw [parent] at none
    cases none
  rw [sortValueOf, if_neg other, if_pos native]

theorem length_filter_id_le {store : Store} (nodup : (store.pages.map Page.id).Nodup) (id : Int) :
    (store.pages.filter fun page => page.id = id).length ≤ 1 := by
  cases found : store.pages.filter fun page => page.id = id with
  | nil => exact Nat.zero_le 1
  | cons page rest =>
      obtain ⟨isPage, same⟩ := List.mem_filter.1 (found ▸ List.mem_cons_self .. :
        page ∈ store.pages.filter fun page => page.id = id)
      rw [← found, ← of_decide_eq_true same, filter_eq_singleton_of_nodup nodup isPage]
      exact Nat.le_refl 1

end Store

/-! ### Tables for sort values -/

namespace SortSource

/-- The column that links the source to a page. -/
def linkColumn : SortSource → String
  | .value _ => "pages_id"
  | .reference _ => "id"
  | .parent => "id"

/-- The column of the page that links it to the source. -/
def pageColumn : SortSource → String
  | .parent => "parent_id"
  | _ => "id"

theorem columns_join {source : SortSource} (direct : source.IsDirect) :
    Filter.columns (source.join "").on =
      [⟨source.aliasName "", source.linkColumn⟩, ⟨"pages", source.pageColumn⟩] := by
  cases source with
  | reference field => exact absurd rfl (direct field)
  | value | parent => rfl

theorem isTooLong_join (source : SortSource) :
    ∀ test ∈ (source.join "").on.tests, test.isTooLong = false := by
  cases source <;> exact List.forall_mem_singleton.2 rfl

theorem isColumn_pageColumn (source : SortSource) :
    Page.columns.any (fun column => sameName column.1 source.pageColumn) = true := by
  have columns : ∀ name ∈ ["id", "parent_id"],
      Page.columns.any (fun column => sameName column.1 name) = true := by decide
  cases source <;> exact columns _ (by simp [pageColumn])

end SortSource

/-- The plan finds what a source gives a page by one of its tables. -/
structure Plan.Finds (plan : Plan) (store : Store) (source : SortSource) (joined : JoinedSource) :
    Prop where
  join : joined.join = source.join ""
  aliasName : joined.source.aliasName = source.aliasName ""
  link : joined.source.table.hasColumn source.linkColumn = true
  main : joined.source.table.hasColumn source.mainColumn = true
  sole : ∀ page : Page, (plan.recordsOf page.record joined).length ≤ 1
  value : ∀ page : Page, ((plan.recordsOf page.record joined).head?.elim .null fun record =>
    joined.source.table.cell record source.mainColumn) = store.sourceValue source page

namespace Query.JoinsApart

variable {store : Store} {query : Query} (joinsApart : query.JoinsApart store) {plan : Plan}
  (planned : store.IsPlanned query plan) {joined : JoinedSource}
  (isJoined : joined ∈ plan.inner ++ plan.left)

include joinsApart planned isJoined

theorem resolves_own {name : String} (isColumn : joined.source.table.hasColumn name = true) :
    plan.resolves ⟨joined.source.aliasName, name⟩ = true :=
  joinsApart.resolves_of_source planned (List.mem_cons_of_mem _ (List.mem_map_of_mem isJoined))
    (Source.provides_own isColumn)

omit isJoined in
theorem resolves_page {name : String}
    (isColumn : Page.columns.any (fun column => sameName column.1 name) = true) :
    plan.resolves ⟨"pages", name⟩ = true ∧ plan.base.provides ⟨"pages", name⟩ = true := by
  have own : plan.base.provides ⟨"pages", name⟩ = true :=
    planned.base ▸ store.provides_of_pageColumn isColumn
  exact ⟨joinsApart.resolves_of_base planned own, own⟩

/-- The rows of a field that are joined to a page are those of the page. -/
theorem recordsOf_value {field : Field} {table : FieldTable}
    (found : store.source? field.table = some table.asTable)
    (joins : store.Joins ((SortSource.value field).join "") joined) (page : Page) :
    plan.recordsOf page.record joined = (table.rowsOf page.id).map FieldRow.record := by
  obtain ⟨join, isJoin, joinsToo⟩ := planned.exists_join isJoined
  obtain rfl := joinsToo.join_eq.symm.trans joins.join_eq
  obtain ⟨join, source⟩ := joins.eq found
  let member : Member :=
    { table := field.table, aliasName := (SortSource.value field).aliasName "", condition := .never
      blank := false }
  have reads : plan.Reads store member table :=
    joinsApart.reads planned isJoin (SortSource.aliasName_join ..) rfl found
  have records : joined.source.table.records = table.rows.map FieldRow.record := by
    rw [source]
    rfl
  rw [Plan.recordsOf, records, List.filter_map, FieldTable.rowsOf]
  refine congrArg _ (List.filter_congr fun row _ => ?_)
  rw [Function.comp_apply, Plan.holdsFor_eq, source, join]
  exact reads.holds_pageLink page row

/-- The pages that are joined to a page as its parent are those with the parent's number. -/
theorem recordsOf_parent (joins : store.Joins (SortSource.parent.join "") joined) (page : Page) :
    plan.recordsOf page.record joined =
      (store.pages.filter fun above => above.id = page.parent).map Page.record := by
  obtain ⟨join, source⟩ := joins.eq (rfl : store.source? "pages" = some store.pageTable)
  have isColumn : joined.source.table.hasColumn "id" = true := by
    rw [source]
    exact (by decide : Page.columns.any (fun column => sameName column.1 "id") = true) ▸ rfl
  have aliasName : joined.source.aliasName = SortSource.parent.aliasName "" := by
    rw [source]
    rfl
  have resolved := joinsApart.resolves_own planned isJoined isColumn
  have own : joined.source.provides ⟨SortSource.parent.aliasName "", "id"⟩ = true :=
    aliasName ▸ Source.provides_own isColumn
  obtain ⟨resolvedParent, ofPage⟩ :=
    joinsApart.resolves_page planned (by decide : Page.columns.any
      (fun column => sameName column.1 "parent_id") = true)
  have converted : plan.affinity ⟨SortSource.parent.aliasName "", "id"⟩ = .integer := by
    rw [Plan.affinity_of_resolves (aliasName ▸ resolved)
      (List.mem_cons_of_mem _ (List.mem_map_of_mem isJoined)) own, source]
    rfl
  have records : joined.source.table.records = store.pages.map Page.record := by
    rw [source]
    rfl
  rw [Plan.recordsOf, records, List.filter_map]
  refine congrArg _ (List.filter_congr fun above _ => ?_)
  have left : ((plan.pageBinding page.record).extend joined.source (some above.record))
      ⟨SortSource.parent.aliasName "", "id"⟩ = .integer above.id := by
    rw [Binding.extend_of_provides own, source]
    exact store.cell_id above
  have right : ((plan.pageBinding page.record).extend joined.source (some above.record))
      ⟨"pages", "parent_id"⟩ = .integer page.parent := by
    rw [Binding.extend_of_not_provides (Plan.not_provides_of_base resolvedParent ofPage isJoined),
      Plan.pageBinding, Binding.extend_of_provides ofPage, planned.base]
    exact store.cell_parent page
  rw [Function.comp_apply, Plan.holdsFor_eq, join]
  exact Plan.holds_equal_integer converted left right

section

variable {schema : Schema} (reached : Store.Reachable schema store)

include reached

theorem finds_value {field : Field} (isField : field ∈ schema.fields)
    (joins : store.Joins ((SortSource.value field).join "") joined) :
    plan.Finds store (.value field) joined := by
  obtain ⟨table, found, kept⟩ := reached.exists_source? isField
  obtain ⟨join, source⟩ := joins.eq kept
  have records := joinsApart.recordsOf_value planned isJoined kept joins
  refine ⟨join, by rw [source]; rfl, by rw [source]; exact table.hasColumn_page,
    by rw [source]; exact table.hasColumn_data, fun page => ?_, fun page => ?_⟩
  · rw [records, List.length_map]
    exact (reached.hasSoleValues table (List.mem_of_find?_eq_some found)).sole page.id
  · rw [records, Store.sourceValue, Store.valuesOf, found, Option.elim_some, source]
    cases table.rowsOf page.id with
    | nil => rfl
    | cons row rest => exact table.cell_data row

theorem finds_parent (joins : store.Joins (SortSource.parent.join "") joined) :
    plan.Finds store .parent joined := by
  obtain ⟨join, source⟩ := joins.eq (rfl : store.source? "pages" = some store.pageTable)
  have hasColumn {name : String}
      (isColumn : Page.columns.any (fun column => sameName column.1 name) = true) :
      joined.source.table.hasColumn name = true := by
    rw [source, Table.hasColumn, Bool.or_eq_true]
    exact .inl isColumn
  have records := joinsApart.recordsOf_parent planned isJoined joins
  refine ⟨join, by rw [source]; rfl, hasColumn (by decide), hasColumn (by decide), fun page => ?_,
    fun page => ?_⟩
  · rw [records, List.length_map]
    exact Store.length_filter_id_le reached.nodup_ids page.parent
  · rw [records, List.head?_map, List.head?_filter, Store.sourceValue, Store.page?, source]
    cases store.pages.find? fun above => above.id = page.parent with
    | none => rfl
    | some above => exact Table.cell_eq (by decide : Page.columns.findIdx? _ = some 3) rfl

theorem finds {value : SortValue} (plain : value.IsPlain schema) {source : SortSource}
    (found : schema.sortSource? value.name = some source)
    (joins : store.Joins (source.join "") joined) : plan.Finds store source joined := by
  rcases plain.sortSource?_eq with ⟨none, -⟩ | ⟨parent, named⟩ | ⟨field, isValue, isField⟩
  · rw [none] at found
    cases found
  · obtain rfl := Option.some.inj (parent.symm.trans found)
    exact joinsApart.finds_parent planned isJoined reached joins
  · obtain rfl := Option.some.inj (isValue.symm.trans found)
    exact joinsApart.finds_value planned isJoined reached
      (Schema.mem_fields_of_field? isField) joins

end

theorem isLocal_of_finds {source : SortSource} (direct : source.IsDirect)
    (finds : plan.Finds store source joined) : plan.IsLocal joined.source joined.join.on := by
  have own : joined.source.provides ⟨source.aliasName "", source.linkColumn⟩ = true :=
    finds.aliasName ▸ Source.provides_own finds.link
  have resolved : plan.resolves ⟨source.aliasName "", source.linkColumn⟩ = true :=
    finds.aliasName ▸ joinsApart.resolves_own planned isJoined finds.link
  have ofPage := joinsApart.resolves_page planned source.isColumn_pageColumn
  rw [Plan.IsLocal, finds.join, SortSource.columns_join direct, List.forall_mem_cons,
    List.forall_mem_singleton]
  exact ⟨⟨resolved, .inl own⟩, ofPage.1, .inr ofPage.2⟩

end Query.JoinsApart

/-! ### Plans -/

/-- The plan looks up what sort values read, and reads what the other one reads. -/
structure Plan.SortsBy (plan frame : Plan) (store : Store) (schema : Schema)
    (values : List SortValue) (tables : List JoinedSource) : Prop
    extends plan.LooksUp frame tables where
  baseSource : plan.base = store.baseSource
  finds : ∀ value ∈ values, ∀ source, schema.sortSource? value.name = some source →
    ∃ joined ∈ tables, plan.Finds store source joined

section

variable {schema : Schema} {store : Store} (reached : Store.Reachable schema store)
  {values : List SortValue} (plain : ∀ value ∈ values, value.IsPlain schema) {query other : Query}
  (sorts : query.Sorts other schema values) (joinsApart : query.JoinsApart store) {frame : Plan}
  (bound : store.boundPlan? other = some frame)

include reached plain sorts joinsApart bound

theorem Store.exists_sortsBy :
    ∃ plan tables, store.IsPlanned query plan ∧ plan.SortsBy frame store schema values tables := by
  obtain ⟨planned, resolved⟩ := Store.boundPlan?_eq_some_iff_isPlanned.1 bound
  have areJoins : ∀ join ∈ Join.merge (schema.sortJoins values), join ∈ query.joins := by
    intro join isJoin
    have isLeft : join ∈ query.joinsOf .left := sorts.left ▸ List.mem_append_left _ isJoin
    exact (List.mem_filter.1 isLeft).1
  obtain ⟨tables, areTables⟩ :=
    exists_forall₂ fun join isJoin => joinsApart.joined join (areJoins join isJoin)
  let plan : Plan := { inner := frame.inner, left := tables ++ frame.left, base := frame.base }
  have isPlanned : store.IsPlanned query plan :=
    ⟨sorts.inner ▸ planned.inner, sorts.left ▸ List.rel_append areTables planned.left, planned.base⟩
  have among {joined : JoinedSource} (isTable : joined ∈ tables) :
      joined ∈ plan.inner ++ plan.left :=
    List.mem_append_right _ (List.mem_append_left _ isTable)
  have each : ∀ joined ∈ tables, ∃ value ∈ values, ∃ source,
      schema.sortSource? value.name = some source ∧ plan.Finds store source joined := by
    intro joined isTable
    obtain ⟨join, isJoin, joins⟩ := exists_of_mem_forall₂ areTables isTable
    obtain ⟨value, isValue, source, found, rfl⟩ :=
      Schema.mem_sortJoins.1 ((Schema.mem_merge_sortJoins plain).1 isJoin)
    exact ⟨value, isValue, source, found,
      joinsApart.finds isPlanned (among isTable) reached (plain value isValue) found joins⟩
  refine ⟨plan, tables, isPlanned, ⟨rfl, rfl, rfl, joinsApart.nodup_sources isPlanned, ?_, ?_, ?_,
    ?_⟩, planned.base, ?_⟩
  · intro joined isTable
    obtain ⟨value, isValue, source, found, finds⟩ := each joined isTable
    exact joinsApart.isLocal_of_finds isPlanned (among isTable)
      ((plain value isValue).isDirect found).1 finds
  · intro joined isTable record isRecord
    obtain ⟨-, -, source, -, finds⟩ := each joined isTable
    rw [isPlanned.base] at isRecord
    obtain ⟨page, -, rfl⟩ := List.mem_map.1 isRecord
    exact finds.sole page
  · intro joined isTable
    obtain ⟨-, -, source, -, finds⟩ := each joined isTable
    exact finds.join ▸ source.isTooLong_join
  · intro joined isJoined column isColumn
    obtain ⟨join, isJoin, joins⟩ := planned.exists_join isJoined
    obtain ⟨test, isTest, read⟩ := List.mem_flatMap.1 isColumn
    rw [joins.join_eq] at isTest
    exact (Query.forall_columns_iff.1 resolved).2.1 join isJoin test isTest column read
  · intro value isValue source found
    have isJoin := (Schema.mem_merge_sortJoins plain).2
      (Schema.mem_sortJoins.2 ⟨value, isValue, source, found, rfl⟩)
    obtain ⟨joined, isTable, joins⟩ := exists_of_mem_left_forall₂ areTables isJoin
    exact ⟨joined, isTable,
      joinsApart.finds isPlanned (among isTable) reached (plain value isValue) found joins⟩

end

namespace Plan.SortsBy

variable {schema : Schema} {store : Store} {values : List SortValue}
  (plain : ∀ value ∈ values, value.IsPlain schema) {plan frame : Plan} {tables : List JoinedSource}
  (sortsBy : plan.SortsBy frame store schema values tables)

include sortsBy

theorem frameBase : frame.base = store.baseSource :=
  sortsBy.base.symm.trans sortsBy.baseSource

theorem resolves_base {column : Column} (own : store.baseSource.provides column = true) :
    plan.resolves column = true ∧ frame.resolves column = true := by
  have resolved : plan.resolves column = true :=
    resolves_of_nodup sortsBy.nodup (List.mem_cons_self ..) (sortsBy.baseSource ▸ own)
  exact ⟨resolved, sortsBy.adds.resolves_of_source resolved (List.mem_cons_self ..)
    (sortsBy.frameBase ▸ own)⟩

theorem mem_sources {joined : JoinedSource} (isTable : joined ∈ tables) :
    joined.source ∈ plan.sources := by
  refine List.mem_cons_of_mem _ (List.mem_map_of_mem (List.mem_append_right _ ?_))
  rw [sortsBy.left]
  exact List.mem_append_left _ isTable

include plain

theorem resolves_keyColumn {value : SortValue} (isValue : value ∈ values) :
    plan.resolves (value.keyColumn schema) = true := by
  rw [SortValue.keyColumn]
  cases found : schema.sortSource? value.name with
  | none =>
      rcases (plain value isValue).sortSource?_eq with ⟨-, native⟩ | ⟨parent, -⟩ | ⟨_, other, -⟩
      · have own := provides_nativeColumn sortsBy.baseSource native
        exact (sortsBy.resolves_base (sortsBy.baseSource ▸ own)).1
      · rw [found] at parent
        cases parent
      · rw [found] at other
        cases other
  | some source =>
      obtain ⟨joined, isTable, finds⟩ := sortsBy.finds value isValue source found
      have own := Source.provides_own finds.main
      rw [Option.elim_some, SortValue.sourceColumn, (plain value isValue).suffix_eq,
        (plain value isValue).column, Option.getD_none, ← finds.aliasName]
      exact resolves_of_nodup sortsBy.nodup (sortsBy.mem_sources isTable) own

/-- The joined rows of a page hold what the page is sorted by. -/
theorem keyColumn_eq {value : SortValue} (isValue : value ∈ values) {page : Page}
    {binding : Binding} (isRow : binding ∈ frame.joinAll page.record) :
    binding.extendAll (plan.lookUp page.record tables) (value.keyColumn schema) =
      store.sortValueOf schema value.name page := by
  rw [SortValue.keyColumn]
  cases found : schema.sortSource? value.name with
  | none =>
      rcases (plain value isValue).sortSource?_eq with ⟨-, native⟩ | ⟨parent, -⟩ | ⟨_, other, -⟩
      · have own : frame.base.provides (nativeColumn value.name) = true :=
          provides_nativeColumn sortsBy.frameBase native
        have framed := (sortsBy.resolves_base (sortsBy.frameBase ▸ own)).2
        rw [Option.elim_none, sortsBy.extendAll_eq framed, eq_cell_of_mem_joinAll isRow framed own,
          Store.sortValueOf_of_isNative found native, sortsBy.frameBase]
        rfl
      · rw [found] at parent
        cases parent
      · rw [found] at other
        cases other
  | some source =>
      obtain ⟨joined, isTable, finds⟩ := sortsBy.finds value isValue source found
      have own := Source.provides_own finds.main
      rw [Option.elim_some, SortValue.sourceColumn, (plain value isValue).suffix_eq,
        (plain value isValue).column, Option.getD_none, ← finds.aliasName,
        sortsBy.extendAll_eq_head? isTable own, finds.value page,
        Store.sortValueOf_of_sortSource? (plain value isValue) found]

theorem compareAll_order (scores : List Score) {some : List SortValue}
    (among : ∀ value ∈ some, value ∈ values) {page other : Page} {binding another : Binding}
    (isRow : binding ∈ frame.joinAll page.record) (isRowToo : another ∈ frame.joinAll other.record) :
    Order.compareAll scores (some.map (SortValue.order schema)).reverse
        (binding.extendAll (plan.lookUp page.record tables))
        (another.extendAll (plan.lookUp other.record tables)) =
      store.comparePages schema some page other := by
  induction some with
  | nil => rfl
  | cons value rest induction =>
      rw [List.forall_mem_cons] at among
      have first := sortsBy.keyColumn_eq plain among.1 isRow
      have second := sortsBy.keyColumn_eq plain among.1 isRowToo
      rw [List.map_cons, List.reverse_cons, Order.compareAll_append, compareLex, induction among.2,
        Order.compareAll, compareLex, Order.compareBy, Order.key, Order.key, SortValue.order]
      dsimp only
      rw [first, second]
      exact congrArg _ Ordering.then_eq

end Plan.SortsBy

/-! ### Queries that are carried out -/

section

variable {schema : Schema} {store : Store} {values : List SortValue}
  (plain : ∀ value ∈ values, value.IsPlain schema) {query other : Query}
  (sorts : query.Sorts other schema values) {plan frame : Plan} {tables : List JoinedSource}
  (sortsBy : plan.SortsBy frame store schema values tables)
  (bound : store.boundPlan? other = some frame)

include bound in
theorem Store.resolves_filters : ∀ filter ∈ other.filters, ∀ column ∈ filter.columns,
    frame.resolves column = true := by
  obtain ⟨-, resolved⟩ := Store.boundPlan?_eq_some_iff_isPlanned.1 bound
  intro filter isFilter column isColumn
  obtain ⟨conjunct, isConjunct, rfl⟩ := List.mem_map.1 isFilter
  obtain ⟨test, isTest, read⟩ := List.mem_flatMap.1 isColumn
  exact (Query.forall_columns_iff.1 resolved).2.2.1 conjunct isConjunct test isTest column read

include sorts in
theorem Query.Sorts.filters_eq : query.filters = other.filters := by
  rw [Query.filters, Query.filters, sorts.conjuncts]

include plain sorts sortsBy bound

theorem Store.boundPlan?_of_sortsBy (planned : store.IsPlanned query plan) :
    store.boundPlan? query = some plan := by
  obtain ⟨-, resolved⟩ := Store.boundPlan?_eq_some_iff_isPlanned.1 bound
  obtain ⟨-, -, conjuncts, scores, orders⟩ := Query.forall_columns_iff.1 resolved
  refine Store.boundPlan?_eq_some_iff_isPlanned.2 ⟨planned, Query.forall_columns_iff.2
    ⟨?_, fun join isJoin test isTest column read => ?_,
      fun conjunct isConjunct test isTest column read => ?_, fun score isScore => ?_,
      fun order isOrder column named => ?_⟩⟩
  · have own {name : String}
        (isColumn : Page.columns.any (fun column => sameName column.1 name) = true) :=
      (sortsBy.resolves_base (store.provides_of_pageColumn isColumn)).1
    exact List.forall_mem_cons.2 ⟨own (by decide), List.forall_mem_singleton.2 (own (by decide))⟩
  · obtain ⟨joined, isJoined, joins⟩ := planned.exists_joined isJoin
    have among : column ∈ Filter.columns joined.join.on :=
      List.mem_flatMap.2 ⟨test, joins.join_eq.symm ▸ isTest, read⟩
    rw [sortsBy.inner, sortsBy.left, List.mem_append, List.mem_append, or_left_comm,
      ← List.mem_append] at isJoined
    rcases isJoined with isTable | isFramed
    · exact (sortsBy.isLocal joined isTable column among).1
    · exact sortsBy.resolves_of_frame (sortsBy.resolves joined isFramed column among)
  · rw [sorts.conjuncts] at isConjunct
    exact sortsBy.resolves_of_frame (conjuncts conjunct isConjunct test isTest column read)
  · rw [sorts.scores] at isScore
    exact sortsBy.resolves_of_frame (scores score isScore)
  · rw [sorts.orders, List.mem_append, List.mem_reverse] at isOrder
    rcases isOrder with ofKey | ofScore
    · obtain ⟨value, isValue, rfl⟩ := List.mem_map.1 ofKey
      cases named
      exact sortsBy.resolves_keyColumn plain isValue
    · exact sortsBy.resolves_of_frame (orders order ofScore column named)

omit plain in
/-- No pattern beyond the limit comes up that does not come up without the sort values. -/
theorem Store.meetsLongPattern_of_sortsBy (planned : store.IsPlanned query plan)
    (short : frame.meetsLongPattern other = false) : plan.meetsLongPattern query = false := by
  obtain ⟨plannedToo, -⟩ := Store.boundPlan?_eq_some_iff_isPlanned.1 bound
  rw [Plan.meetsLongPattern, Bool.and_eq_false_iff] at short ⊢
  rcases short with none | unmet
  · refine .inl ?_
    rw [Query.hasLongPattern, Bool.or_eq_false_iff] at none ⊢
    refine ⟨?_, sorts.conjuncts ▸ none.2⟩
    have others := none.1
    rw [List.any_eq_false] at others ⊢
    simp only [List.forall_mem_flatMap] at others ⊢
    intro join isJoin test isTest
    obtain ⟨joined, isJoined, joins⟩ := planned.exists_joined isJoin
    rw [sortsBy.inner, sortsBy.left, List.mem_append, List.mem_append, or_left_comm,
      ← List.mem_append] at isJoined
    rcases isJoined with isTable | isFramed
    · exact Bool.eq_false_iff.1 (sortsBy.short joined isTable test (joins.join_eq.symm ▸ isTest))
    · obtain ⟨another, isAnother, joinsToo⟩ := plannedToo.exists_join isFramed
      exact others another isAnother test (joinsToo.join_eq ▸ joins.join_eq.symm ▸ isTest)
  · refine .inr ?_
    rw [List.any_eq_false] at unmet ⊢
    intro page isPage
    rw [sortsBy.pageMeetsLongPattern_eq sorts.filters_eq (Store.resolves_filters bound) isPage]
    exact unmet page (sortsBy.base ▸ isPage)

end

/-- A query that is carried out can be sorted, as far as its size allows. -/
theorem Store.exists_runnablePlan?_of_sorts {schema : Schema} {store : Store}
    (reached : Store.Reachable schema store) {values : List SortValue}
    (plain : ∀ value ∈ values, value.IsPlain schema) {query other : Query}
    (sorts : query.Sorts other schema values) (joinsApart : query.JoinsApart store)
    (small : query.isWithinLimits = true) {frame : Plan}
    (runnable : store.runnablePlan? other = some frame) :
    ∃ plan tables, store.runnablePlan? query = some plan ∧
      plan.SortsBy frame store schema values tables := by
  have bound := Store.boundPlan?_of_runnablePlan? runnable
  have short := (Option.filter_eq_some_iff.1 runnable).2
  obtain ⟨plan, tables, planned, sortsBy⟩ :=
    Store.exists_sortsBy reached plain sorts joinsApart bound
  have boundToo := Store.boundPlan?_of_sortsBy plain sorts sortsBy bound planned
  have readable := joinsApart.isReadable planned
    (Store.boundPlan?_eq_some_iff_isPlanned.1 boundToo).2
  refine ⟨plan, tables, ?_, sortsBy⟩
  rw [runnablePlan?, plan?, readable, small, Bool.and_self, if_pos rfl, boundToo]
  refine Option.filter_some_pos ?_
  rw [Store.meetsLongPattern_of_sortsBy sorts sortsBy bound planned
    (by simpa using short), Bool.not_false]

end PageTree
