import PageTree.Proofs.Finder.Visibility
import PageTree.Proofs.Store.Planning

/-!
What a find returns. Joins, alternatives and missing rows are ways to say that a page satisfies
every term of the selector. Main statement: a find without a bound on the status returns every page
that satisfies all terms, once, and no other page, as long as no name of a field continues another
one by digits and the statement is not too large for the engine.
-/

namespace PageTree

open Sql

namespace Plan

variable {plan : Plan} {store : Store}

theorem agreeOnPage_of_mem_joinAll (base : plan.base = store.baseSource) {page : Page}
    {binding : Binding} (isRow : binding ∈ plan.joinAll page.record) :
    plan.AgreeOnPage binding page.binding := by
  obtain ⟨chosen, tables, rfl⟩ := exists_of_mem_joinAll isRow
  refine AgreeOnPage.extendAll (agreeOnPage_pageBinding base page) fun choice isChoice => ?_
  rw [← tables]
  exact List.mem_map.2 ⟨choice, isChoice, rfl⟩

/-- The conjuncts of the terms hold where the page satisfies the terms on its own columns. -/
theorem holds_filters_iff (base : plan.base = store.baseSource)
    (resolved : ∀ column, plan.base.provides column = true → plan.resolves column = true)
    {catalog : Catalog} {terms : List Term} {filters : List (List Conjunct)}
    (related : List.Forall₂ (Term.Filters catalog) terms filters) {page : Page}
    {binding : Binding} (agree : plan.AgreeOnPage binding page.binding) :
    (∀ conjunct ∈ filters.flatten, plan.holds binding conjunct.filter = true) ↔
      ∀ term ∈ terms, term.kind = .native → term.isSatisfiedNatively catalog page = true := by
  induction related with
  | nil => simp
  | @cons term conjuncts terms filters first rest induction =>
      rw [List.flatten_cons, List.forall_mem_append, List.forall_mem_cons, induction]
      refine and_congr_left fun _ => ?_
      unfold Term.Filters at first
      split at first
      · next native =>
        obtain ⟨filter, filtered, rfl⟩ := first
        have named := Term.isNativeName_of_kind native
        have own := provides_nativeColumn base named
        rw [List.forall_mem_singleton, Conjunct.filter,
          holds_nativeFilter base named (agree _ (resolved _ own) own) filtered]
        exact ⟨fun satisfied _ => satisfied, fun satisfied => satisfied native⟩
      · next attached => simp [first, attached]

end Plan

namespace Store

variable {store : Store} {catalog : Catalog} {blocks : Blocks} {query : Query} {plan : Plan}

theorem satisfiesAttached_iff {term : Term} {page : Page} :
    store.satisfiesAttached catalog term page = true ↔
      ∃ name ∈ term.fields, ∃ field, catalog.schema.field? name = some field ∧
        ∃ value ∈ term.values,
          store.satisfiesValue catalog.now field term.operator page value = true := by
  simp only [satisfiesAttached, List.any_eq_true, Option.any_eq_true]

section

variable (reached : Reachable catalog.schema store) (apart : catalog.schema.HasApartNames)
  (default : catalog.schema.HasDefaultTables) (isOf : query.IsOf catalog blocks)
  (planned : store.IsPlanned query plan)

include reached apart default isOf planned

/-- A member of a term is fulfilled when the page satisfies the term. -/
theorem exists_isFulfilled_iff {term : Term} {members : List Member}
    (isBlock : (term, members) ∈ blocks) (filters : term.IsAttachedFilter)
    (stand : List.Forall₂ (Member.StandsFor catalog term) term.fields members) {page : Page} :
    (∃ member ∈ members, plan.IsFulfilled store catalog.now page member) ↔
      store.satisfiesAttached catalog term page = true := by
  have asks {name : String} {member : Member} (isMember : member ∈ members)
      (stands : member.StandsFor catalog term name) :
      ∃ field kind table, catalog.schema.field? name = some field ∧
        plan.Asks store catalog.now term field member kind table := by
    obtain ⟨field, kind, table, isField, keeps, -⟩ :=
      exists_keeps reached apart default filters stands
    have isOne : member ∈ blocks.members := List.mem_flatMap.2 ⟨_, isBlock, isMember⟩
    exact ⟨field, kind, table, isField,
      { keeps with reads := reads_of_mem reached apart default isOf planned isOne keeps }⟩
  rw [satisfiesAttached_iff]
  constructor
  · rintro ⟨member, isMember, fulfilled⟩
    obtain ⟨name, isName, stands⟩ := exists_of_mem_forall₂ stand isMember
    obtain ⟨field, kind, table, isField, asked⟩ := asks isMember stands
    exact ⟨name, isName, field, isField, asked.isFulfilled_iff.1 fulfilled⟩
  · rintro ⟨name, isName, field, isField, satisfied⟩
    obtain ⟨member, isMember, stands⟩ := exists_of_mem_left_forall₂ stand isName
    obtain ⟨other, kind, table, isOther, asked⟩ := asks isMember stands
    obtain rfl : field = other := Option.some.inj (isField.symm.trans isOther)
    exact ⟨member, isMember, asked.isFulfilled_iff.2 satisfied⟩

theorem groups_iff_satisfiesAttached (faithful : Selector.IsFaithful (blocks.map Prod.fst))
    {page : Page} :
    (∀ group ∈ blocks.groups, ∃ member ∈ group, plan.IsFulfilled store catalog.now page member) ↔
      ∀ block ∈ blocks, block.1.kind ≠ .native →
        store.satisfiesAttached catalog block.1 page = true := by
  have isTerm {block : Term × List Member} (isBlock : block ∈ blocks) :
      block.1 ∈ blocks.map Prod.fst := List.mem_map.2 ⟨block, isBlock, rfl⟩
  have each : ∀ block ∈ blocks, block.2 ≠ [] →
      ((∃ member ∈ block.2, plan.IsFulfilled store catalog.now page member) ↔
        store.satisfiesAttached catalog block.1 page = true) := by
    rintro ⟨term, members⟩ isBlock nonempty
    have has := isOf.has _ isBlock
    dsimp only at has nonempty
    cases has with
    | native native => exact absurd rfl nonempty
    | attached filters stand =>
        exact exists_isFulfilled_iff reached apart default isOf planned isBlock filters stand
  have byText : ∀ block ∈ blocks, block.2 ≠ [] →
      ((∃ member ∈ block.2, plan.IsFulfilled store catalog.now page member) ↔
        ∃ other ∈ blocks, other.1.text = block.1.text ∧
          store.satisfiesAttached catalog other.1 page = true) := by
    intro block isBlock nonempty
    rw [each block isBlock nonempty]
    constructor
    · exact fun satisfied => ⟨block, isBlock, rfl, satisfied⟩
    · rintro ⟨other, isOther, same, satisfied⟩
      rwa [← faithful.texts _ (isTerm isOther) _ (isTerm isBlock) same]
  rw [Blocks.groups_iff (q := fun text => ∃ other ∈ blocks, other.1.text = text ∧
    store.satisfiesAttached catalog other.1 page = true) byText]
  refine forall₂_congr fun block isBlock => ?_
  have nonempty : block.2 ≠ [] ↔ block.1.kind ≠ .native := by
    have has := isOf.has block isBlock
    obtain ⟨term, members⟩ := block
    dsimp only at has ⊢
    cases has with
    | native native => simp [Term.kind_of_isNativeFilter native]
    | attached filters stand =>
        have fields := faithful.fields _ (isTerm isBlock)
        refine iff_of_true ?_ (by simp [filters.kind])
        rintro rfl
        exact fields (List.forall₂_nil_right_iff.1 stand)
  constructor
  · exact fun all other => (each block isBlock (nonempty.2 other)).1 (all (nonempty.2 other))
  · exact fun all some => (each block isBlock some).2 (all (nonempty.1 some))

/-- A page is selected just when it satisfies every term. -/
theorem pageRows_ne_nil_iff (faithful : Selector.IsFaithful (blocks.map Prod.fst)) {page : Page} :
    plan.pageRows query page.record ≠ [] ↔
      ∀ block ∈ blocks, store.satisfies catalog page block.1 = true := by
  obtain ⟨filters, related, conjuncts⟩ := isOf.conjuncts
  have serves := serves reached apart default isOf planned
  have filtered {binding : Binding} (isRow : binding ∈ plan.joinAll page.record) :
      query.filters.all (plan.holds binding) = true ↔
        (∀ term ∈ blocks.map Prod.fst, term.kind = .native →
          term.isSatisfiedNatively catalog page = true) ∧
        ∀ group ∈ blocks.groups, group.isLone = false →
          ∃ member ∈ group, plan.holds binding member.condition = true := by
    rw [List.all_eq_true, Query.filters, List.forall_mem_map, conjuncts, List.forall_mem_append,
      Plan.holds_conjuncts_iff, Plan.holds_filters_iff planned.base
        (fun _ own => resolves_of_base reached apart default isOf planned own) related
        (Plan.agreeOnPage_of_mem_joinAll planned.base isRow)]
  have selected : plan.pageRows query page.record ≠ [] ↔
      (∀ term ∈ blocks.map Prod.fst, term.kind = .native →
        term.isSatisfiedNatively catalog page = true) ∧
      ∀ group ∈ blocks.groups, ∃ member ∈ group,
        plan.IsFulfilled store catalog.now page member := by
    constructor
    · intro nonempty
      obtain ⟨binding, member⟩ := List.exists_mem_of_ne_nil _ nonempty
      obtain ⟨isRow, holds⟩ := List.mem_filter.1 member
      obtain ⟨native, grouped⟩ := (filtered isRow).1 holds
      exact ⟨native, serves.exists_isFulfilled isRow grouped⟩
    · rintro ⟨native, fulfilled⟩
      obtain ⟨binding, isRow, grouped⟩ := serves.exists_mem_joinAll fulfilled
      exact List.ne_nil_of_mem
        (List.mem_filter.2 ⟨isRow, (filtered isRow).2 ⟨native, grouped⟩⟩)
  rw [selected, groups_iff_satisfiesAttached reached apart default isOf planned faithful,
    List.forall_mem_map, ← forall₂_and]
  refine forall₂_congr fun block _ => ?_
  unfold satisfies
  by_cases native : block.1.kind = .native
  · simp [native]
  · simp [native]

end

end Store

/-! ### Rows of the result -/

namespace Plan

variable {plan : Plan} {query : Query}

/-- The numbers of the returned pages, when there is no window. -/
theorem perm_ids (windowless : query.window = none) :
    ((plan.resultSet query).assemble.map fun row => Dictionary.find? row "id").Perm
      (plan.base.table.records.filterMap fun page =>
        (plan.pageRows query page).head?.map fun binding =>
          some (binding Query.idColumn).datum) := by
  have whole (rows : List Binding) : query.windowed rows = rows := by
    rw [Query.windowed, windowless]
  have ids (binding : Binding) :
      Dictionary.find? (Row.ofCells (query.columnNames.zip (query.cells binding))) "id" =
        some (binding Query.idColumn).datum := query.find?_id_ofCells binding
  rw [ResultSet.assemble, List.map_map, resultSet, whole, List.map_map]
  simp only [Function.comp_def, ids]
  rw [← List.map_filterMap]
  exact (List.mergeSort_perm _ _).map _

end Plan

namespace Store

variable {store : Store} {query : Query} {plan : Plan}

/-- The pages with joined rows, each once. -/
theorem perm_ids_filter (bound : store.boundPlan? query = some plan)
    (windowless : query.window = none) :
    ((plan.resultSet query).assemble.map fun row => Dictionary.find? row "id").Perm
      ((store.pages.filter fun page => !(plan.pageRows query page.record).isEmpty).map
        fun page => some (.integer page.id)) := by
  refine (Plan.perm_ids windowless).trans (List.Perm.of_eq ?_)
  have pages : plan.base.table.records = store.pages.map Page.record := by
    rw [(boundPlan?_eq_some.1 bound).2.2.1]
    rfl
  rw [pages, List.filterMap_map, ← List.filterMap_eq_filter, List.map_filterMap]
  refine List.filterMap_congr fun page _ => ?_
  dsimp only [Function.comp_apply]
  cases rows : plan.pageRows query page.record with
  | nil => simp [Option.guard, rows]
  | cons first rest =>
      have id := id_of_mem_pageRows bound (rows ▸ List.mem_cons_self .. : first ∈ _)
      simp [Option.guard, rows, id, Value.datum]

variable {catalog : Catalog} {blocks : Blocks} (reached : Reachable catalog.schema store)
  (apart : catalog.schema.HasApartNames) (default : catalog.schema.HasDefaultTables)
  (isOf : query.IsOf catalog blocks) (planned : store.IsPlanned query plan)

include reached apart default isOf planned

theorem perm_ids (faithful : Selector.IsFaithful (blocks.map Prod.fst)) :
    ((plan.resultSet query).assemble.map fun row => Dictionary.find? row "id").Perm
      ((store.pages.filter fun page =>
        (blocks.map Prod.fst).all (store.satisfies catalog page)).map
          fun page => some (.integer page.id)) := by
  have bound := boundPlan?_of_isPlanned reached apart default isOf planned
  refine (perm_ids_filter bound isOf.window).trans (List.Perm.of_eq ?_)
  refine congrArg _ (List.filter_congr fun page _ => ?_)
  rw [Bool.eq_iff_iff, Bool.not_eq_true', List.isEmpty_eq_false_iff,
    pageRows_ne_nil_iff reached apart default isOf planned faithful, List.all_map,
    List.all_eq_true]
  rfl

end Store

/-! ### Finds that filter -/

/-- A find without a bound on the status returns the pages that satisfy all terms, each once. The
engine of the store returns the same rows when the statement is not too large for it. -/
theorem Finder.find_selects {schema : Schema} (apart : schema.HasApartNames)
    (default : schema.HasDefaultTables) {store : Store} (reached : Store.Reachable schema store)
    {finder : Finder} (unchecked : finder.checkStatus = false) {selector : Selector}
    (faithful : selector.IsFaithful)
    (filters : ∀ term ∈ selector, term.isNativeFilter = true ∨ term.isAttachedFilter = true)
    {now : Date.Moment} {pageNumber : Option Int} {query : Query}
    (compiled : finder.queryFor (store.catalog schema now pageNumber) selector false = .ok query)
    (comment : finder.debug = true → query.statement.hasPlainComment = true) :
    ∃ rows, (finder.find (store.catalog schema now pageNumber) store.unboundedEngine selector
        false).rows = .ok rows ∧
      (rows.map fun row => Dictionary.find? row "id").Perm
        ((store.pages.filter fun page =>
          selector.all (store.satisfies (store.catalog schema now pageNumber) page)).map
            fun page => some (.integer page.id)) ∧
      (store.pages.map Page.id).Nodup ∧
      (query.isWithinLimits = true → query.hasLongPattern = false →
        (finder.find (store.catalog schema now pageNumber) store.engine selector false).rows =
          .ok rows) := by
  obtain ⟨blocks, isTerms, isOf⟩ :=
    exists_of_queryFor apart default unchecked filters faithful.values compiled
  obtain ⟨plan, planned⟩ := Store.exists_isPlanned reached apart default isOf
  have plainComment : query.statement.hasPlainComment = true := by
    cases debug : finder.debug with
    | true => exact comment debug
    | false =>
        obtain ⟨plain, isPlain, rfl⟩ := map_eq_ok.1 compiled
        obtain ⟨parts, -, rfl⟩ := map_eq_ok.1 isPlain
        rw [debug, if_neg Bool.false_ne_true]
        rfl
  have executed : store.executeUnbounded query = .ok (plan.resultSet query) :=
    Store.executeUnbounded_of_boundPlan?
      (Store.isPlain reached apart default isOf plainComment)
      (Store.isReadable reached apart default isOf planned)
      (Store.boundPlan?_of_isPlanned reached apart default isOf planned)
  have uncounted : (!false && query.hasLimit) = false := by
    rw [Query.hasLimit, isOf.window]
    rfl
  refine ⟨(plan.resultSet query).assemble, find_rows compiled executed uncounted, ?_,
    reached.nodup_ids, fun small short => ?_⟩
  · subst isTerms
    exact Store.perm_ids reached apart default isOf planned faithful
  · have bounded := (Store.execute_eq_executeUnbounded small short).trans executed
    exact find_rows compiled bounded uncounted

/-- The query for pages that are no drafts and have no title or a certain one. -/
def titledQuery : Query :=
  { joins :=
      [{ kind := .left, table := "field_title", aliasName := "field_title"
         on := pageLink "field_title" }]
    conjuncts :=
      [.enclosed (.not (.test (.compare statusColumn .equal (.digits "2049")))),
        .enclosed (.any
          [.test (.isNull ⟨"field_title", "pages_id"⟩),
            .fragment (.compare ⟨"field_title", "data"⟩ .equal (.text "us"))])]
    scores := [], orders := [], window := none, comment := "" }

theorem Finder.find_selects_titledStore :
    ∃ selector rows, Selector.read "!status=2049, title=|us" = .ok selector ∧
      ({ Finder.new with checkStatus := false }.find
        (titledStore.catalog titleSchema ⟨0, false⟩ none) titledStore.engine selector false).rows =
          .ok rows ∧
      (rows.map fun row => Dictionary.find? row "id").Perm
        [some (.integer 1), some (.integer 2)] := by
  let native : Term :=
    { fields := ["status"], values := ["2049"], operator := .equal, negated := true
      text := "!status=2049" }
  let attached : Term :=
    { fields := ["title"], values := ["", "us"], operator := .equal, negated := false
      text := "title=|us" }
  have parsed : Selector.read "!status=2049, title=|us" = .ok [native, attached] := rfl
  have filters : ∀ term ∈ [native, attached],
      term.isNativeFilter = true ∨ term.isAttachedFilter = true := by decide
  have compiled : ({ Finder.new with checkStatus := false }).queryFor
      (titledStore.catalog titleSchema ⟨0, false⟩ none) [native, attached] false =
        .ok titledQuery := rfl
  have satisfied : (titledStore.pages.filter fun page => [native, attached].all
      (titledStore.satisfies (titledStore.catalog titleSchema ⟨0, false⟩ none) page)) =
        titledStore.pages := by decide
  obtain ⟨rows, -, same, -, bounded⟩ :=
    find_selects (by decide) (by decide) Store.reachable_titledStore rfl
      (Selector.isFaithful_of_read parsed) filters compiled
      (fun debug => absurd debug Bool.false_ne_true)
  rw [satisfied] at same
  exact ⟨_, rows, parsed, bounded (by decide) (by decide), same⟩

/-- A schema with two names that differ in the case of a letter alone. -/
def twoTitles : Schema :=
  [("Title", { kind := "text", table := none, label := none }),
    ("title", { kind := "text", table := none, label := none })]

/-- A store of such a schema, with a value of the field. -/
def twoTitlesStore : Store :=
  { Store.new ⟨0, false⟩ with
    tables := [⟨"field_Title", .text, [⟨1, 1, .text "x", 0⟩]⟩]
    indexes := ["idx_field_Title_pages", "idx_field_Title_data"] }

theorem Store.reachable_twoTitlesStore : Store.Reachable twoTitles twoTitlesStore := by
  let fresh : Store := { twoTitlesStore with tables := [⟨"field_Title", .text, []⟩] }
  have made : (Store.new ⟨0, false⟩).ensureTables twoTitles.fields = (fresh, .ok ()) := rfl
  have set : fresh.setField twoTitles ⟨0, false⟩ "title" 1 "x" = .ok twoTitlesStore := rfl
  exact (Reachable.fresh made).setField set

/-- The join of a table whose value is asked for. -/
def valueJoin (table : String) : Join :=
  { kind := .inner, table, aliasName := table
    on := .all [pageLink table, .fragment (.compare ⟨table, "data"⟩ .equal (.text "x"))] }

def twoTitlesQuery : Query :=
  { joins := [valueJoin "field_Title", valueJoin "field_title"], conjuncts := [], scores := []
    orders := [], window := none, comment := "" }

/-- The engine does not tell names by case: both fields have one table, and a statement that joins
it under both names is ambiguous, even for a page that satisfies both terms. -/
theorem Finder.find_twoTitles :
    ∃ selector query, twoTitles.HasDefaultTables ∧
      (∀ field ∈ twoTitles.fields, ∀ other ∈ twoTitles.fields, ∀ digits : List Char,
        (∀ c ∈ digits, c.isDigit = true) →
          field.name.toList = other.name.toList ++ digits → field = other) ∧
      Store.Reachable twoTitles twoTitlesStore ∧
      Selector.read "Title=x, title=x" = .ok selector ∧
      (∀ term ∈ selector, term.isAttachedFilter = true) ∧
      ({ Finder.new with checkStatus := false }).queryFor
        (twoTitlesStore.catalog twoTitles ⟨0, false⟩ none) selector false = .ok query ∧
      (∃ page ∈ twoTitlesStore.pages, selector.all (twoTitlesStore.satisfies
        (twoTitlesStore.catalog twoTitles ⟨0, false⟩ none) page) = true) ∧
      ({ Finder.new with checkStatus := false }.find
        (twoTitlesStore.catalog twoTitles ⟨0, false⟩ none) twoTitlesStore.unboundedEngine selector
          false).rows = .error (.database .rejectedStatement) := by
  let first : Term :=
    { fields := ["Title"], values := ["x"], operator := .equal, negated := false
      text := "Title=x" }
  let second : Term :=
    { fields := ["title"], values := ["x"], operator := .equal, negated := false
      text := "title=x" }
  have compiled : ({ Finder.new with checkStatus := false }).queryFor
      (twoTitlesStore.catalog twoTitles ⟨0, false⟩ none) [first, second] false =
        .ok twoTitlesQuery := rfl
  have satisfied : ∀ page ∈ twoTitlesStore.pages, [first, second].all (twoTitlesStore.satisfies
      (twoTitlesStore.catalog twoTitles ⟨0, false⟩ none) page) = true := by decide
  have plain : twoTitlesQuery.isPlain = true := by decide
  have unbound : twoTitlesStore.boundPlan? twoTitlesQuery = none :=
    Option.isNone_iff_eq_none.1 (by decide)
  have rejected : twoTitlesStore.executeUnbounded twoTitlesQuery =
      .error (.database .rejectedStatement) := by
    rw [Store.executeUnbounded, if_pos plain, unbound, ite_self, Option.elim_none]
  refine ⟨[first, second], twoTitlesQuery, by decide, ?_, Store.reachable_twoTitlesStore, rfl,
    by decide, compiled, ⟨_, List.mem_cons_self .., satisfied _ (List.mem_cons_self ..)⟩,
    find_rows_of_error compiled rejected⟩
  intro field isField other isOther digits _ spelled
  have lengths : ∀ field ∈ twoTitles.fields, field.name.toList.length = 5 := by decide
  have told : ∀ field ∈ twoTitles.fields, ∀ other ∈ twoTitles.fields,
      field.name.toList = other.name.toList → field = other := by decide
  have count := congrArg List.length spelled
  rw [List.length_append, lengths field isField, lengths other isOther] at count
  have empty : digits = [] := List.eq_nil_of_length_eq_zero (by omega)
  rw [empty, List.append_nil] at spelled
  exact told field isField other isOther spelled

end PageTree
