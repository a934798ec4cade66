import PageTree.Proofs.Compile.Frame
import PageTree.Proofs.Finder.InnerJoins
import PageTree.Proofs.Finder.Window
import PageTree.Proofs.Store.Frames

/-!
Finds in a frame. What a find comes to is said by when it succeeds and by the pages it returns. Main
statements: a find whose query stands in a frame succeeds just when the frame can be carried out and
all members find their columns, and returns the pages of the frame that satisfy every group; and in
default tables the query of any terms that do not sort stands in the frame of its terms on the page
tree.
-/

namespace PageTree

open Sql

/-! ### Rows of a find -/

/-- The rows are about the pages with a property, each once. -/
structure Store.Shows (store : Store) (rows : List Row) (p : Page → Prop) : Prop where
  nodup : (rows.map fun row => Dictionary.find? row "id").Nodup
  mem_iff : ∀ id, id ∈ rows.map (fun row => Dictionary.find? row "id") ↔
    ∃ page ∈ store.pages, p page ∧ id = some (.integer page.id)

namespace Store

variable {store : Store} {query : Query} {plan : Plan}

theorem Shows.congr {rows : List Row} {p q : Page → Prop} (shows : store.Shows rows p)
    (same : ∀ page ∈ store.pages, p page ↔ q page) : store.Shows rows q where
  nodup := shows.nodup
  mem_iff id := (shows.mem_iff id).trans
    (exists_congr fun page => and_congr_right fun isPage => and_congr_left fun _ =>
      same page isPage)

theorem Shows.iff (nodup : (store.pages.map Page.id).Nodup) {rows : List Row} {p : Page → Prop}
    (shows : store.Shows rows p) {page : Page} (isPage : page ∈ store.pages) :
    some (.integer page.id) ∈ rows.map (fun row => Dictionary.find? row "id") ↔ p page := by
  rw [shows.mem_iff]
  constructor
  · rintro ⟨other, isOther, holds, same⟩
    obtain rfl : page = other := List.inj_on_of_nodup_map nodup isPage isOther (by simpa using same)
    exact holds
  · exact fun holds => ⟨page, isPage, holds, rfl⟩

/-- Does the page have a joined row that the query lets through? -/
def SelectsBy (store : Store) (query : Query) (page : Page) : Prop :=
  ∃ plan, store.boundPlan? query = some plan ∧ plan.pageRows query page.record ≠ []

theorem shows_assemble (nodup : (store.pages.map Page.id).Nodup)
    (bound : store.boundPlan? query = some plan) (windowless : query.window = none) :
    store.Shows (plan.resultSet query).assemble
      fun page => plan.pageRows query page.record ≠ [] := by
  have same := perm_ids_filter bound windowless
  have injective : Function.Injective fun id : Int => some (Datum.integer id) := by
    intro id other equal
    cases equal
    rfl
  constructor
  · have each := nodup.map injective
    rw [List.map_map] at each
    exact same.nodup_iff.2 (each.sublist (List.filter_sublist.map _))
  · intro id
    rw [same.mem_iff, List.mem_map]
    simp only [List.mem_filter, Bool.not_eq_true', List.isEmpty_eq_false_iff, and_assoc]
    exact exists_congr fun page => and_congr_right fun _ => and_congr_right fun _ => eq_comm

end Store

/-! ### Compiled queries -/

namespace Selector

variable {catalog : Catalog} {selector : Selector} {parts : List Part}
  (compiled : Part.ofTerms catalog [] selector = .ok parts) {store : Store}
  (reached : Store.Reachable catalog.schema store) (apart : catalog.schema.HasApartNames)
  (default : catalog.schema.HasDefaultTables)

include compiled reached apart default

theorem isFieldAlias_of_mem_members {entry : String × Member}
    (isEntry : entry ∈ parts.flatMap Part.members) : IsFieldAlias entry.2.aliasName := by
  obtain ⟨table, isTable, used, placed⟩ :=
    (Part.areNumbered_of_ofTerms compiled).members entry isEntry
  obtain ⟨field, isField, rfl⟩ := List.mem_map.1 isTable
  have aliasName : entry.2.aliasName = nextAlias used field.table := congrArg Prod.snd placed
  rw [aliasName]
  exact Store.isFieldAlias_of_field reached apart default isField used

theorem hasTableOf_of_mem_members {entry : String × Member}
    (isEntry : entry ∈ parts.flatMap Part.members) : store.HasTableOf entry.2 := by
  obtain ⟨term, -, -, name, -, stands⟩ := Part.exists_stands_of_mem compiled isEntry
  exact stands.exists_table reached apart default

omit reached apart default in
theorem areApart_frame : Join.AreApart store (Query.frame parts).joins := by
  have ofTree := Part.isOfTree_frame compiled
  refine ⟨fun join isJoin => (ofTree join isJoin).isAlias.isFree, fun join isJoin => ?_, ?_⟩
  · obtain ⟨table, found⟩ : ∃ table, store.source? join.table = some table := by
      rcases (ofTree join isJoin).table with name | name
      · exact name ▸ ⟨_, rfl⟩
      · exact name ▸ ⟨_, rfl⟩
    exact Store.exists_joins found
  · have folded : (Query.frame parts).joins.map (fun join => foldName join.aliasName) =
        (Query.frame parts).joins.map Join.aliasName :=
      List.map_congr_left fun join isJoin => (ofTree join isJoin).isAlias.foldName_eq
    rw [folded]
    exact Join.nodup_merge _

theorem areApart_groups : Join.AreApart store
    ((MemberGroup.ofRuns (parts.flatMap Part.members)).flatMap MemberGroup.joins) := by
  let grouped := (MemberGroup.ofRuns (parts.flatMap Part.members)).flatMap MemberGroup.joins
  have aliases : grouped.map Join.aliasName =
      (parts.flatMap Part.members).map fun entry => entry.2.aliasName :=
    MemberGroup.map_aliasName_ofRuns _
  refine ⟨fun join isJoin => ?_, fun join isJoin => ?_, ?_⟩
  · have isAlias := List.mem_map_of_mem (f := Join.aliasName) isJoin
    rw [aliases] at isAlias
    obtain ⟨entry, isEntry, same⟩ := List.mem_map.1 isAlias
    exact same ▸ (isFieldAlias_of_mem_members compiled reached apart default isEntry).isFree
  · obtain ⟨group, isGroup, among⟩ := List.mem_flatMap.1 isJoin
    obtain ⟨member, isMember, sameTable⟩ := MemberGroup.exists_table_of_mem_joins among
    have isOne := List.mem_flatten.2 ⟨group, isGroup, isMember⟩
    rw [MemberGroup.flatten_ofRuns] at isOne
    obtain ⟨entry, isEntry, rfl⟩ := List.mem_map.1 isOne
    obtain ⟨table, -, kept⟩ := hasTableOf_of_mem_members compiled reached apart default isEntry
    exact Store.exists_joins (sameTable ▸ kept)
  · have nodup := Part.nodup_foldName_aliases compiled (Schema.hasApartTables apart default)
    have folded : grouped.map (fun join => foldName join.aliasName) =
        (grouped.map Join.aliasName).map foldName := by
      rw [List.map_map]
      rfl
    rwa [folded, aliases, List.map_map]

/-- The joins of a compiled query stand apart when those of its sort keys do. Aliases of different
origin begin differently. -/
theorem joinsApart_assemble
    (keyed : ∀ join ∈ (selector.sortKeys catalog.schema).flatMap Prod.snd,
      IsFreeAlias join.aliasName ∧ ∃ table, store.source? join.table = some table)
    (nodup : ((Join.merge ((selector.sortKeys catalog.schema).flatMap Prod.snd)).map
      fun join => foldName join.aliasName).Nodup) :
    (selector.assemble catalog parts).JoinsApart store := by
  let keys := Join.merge ((selector.sortKeys catalog.schema).flatMap Prod.snd)
  have ofKeys : ∀ join ∈ keys,
      IsFreeAlias join.aliasName ∧ ∃ table, store.source? join.table = some table :=
    Join.forall_merge (fun join other one _ _ _ => one) keyed
  have apartKeys : Join.AreApart store keys :=
    ⟨fun join isJoin => (ofKeys join isJoin).1,
      fun join isJoin => Store.exists_joins (ofKeys join isJoin).2.choose_spec, nodup⟩
  have begins {join : Join} (isJoin : join ∈ (Query.frame parts).joins) :=
    (Part.isOfTree_frame compiled join isJoin).isAlias.head?_eq
  have beginsKey {join : Join} (isJoin : join ∈ keys) : join.aliasName.toList.head? = some '_' := by
    have isAlias := Join.map_aliasName_merge_subset _ (List.mem_map_of_mem (f := Join.aliasName) isJoin)
    obtain ⟨other, isOther, same⟩ := List.mem_map.1 isAlias
    exact same ▸ head?_sortKeys isOther
  have beginsMember := @Part.head?_groups _ _ _ _ compiled default
  refine Join.AreApart.joinsApart ?_
  rw [joins_assemble compiled (Schema.hasApartTables apart default) default]
  refine ((areApart_frame compiled).append apartKeys fun join isJoin other isOther => ?_).append
    (areApart_groups compiled reached apart default) fun join isJoin other isOther => ?_
  · rcases begins isJoin with p | r
    · exact foldName_ne_of_head? p (beginsKey isOther) (by decide)
    · exact foldName_ne_of_head? r (beginsKey isOther) (by decide)
  · rcases List.mem_append.1 isJoin with ofPart | ofKey
    · rcases begins ofPart with p | r
      · exact foldName_ne_of_head? p (beginsMember isOther) (by decide)
      · exact foldName_ne_of_head? r (beginsMember isOther) (by decide)
    · exact foldName_ne_of_head? (beginsKey ofKey) (beginsMember isOther) (by decide)

omit reached apart default in
theorem isTreeAlias_of_mem_columns_frame : ∀ column ∈ (Query.frame parts).columns,
    column.aliasName = "pages" ∨ IsTreeAlias column.aliasName := by
  refine Query.forall_columns_iff.2 ⟨by simp [Query.idColumn, Query.templateColumn], ?_, ?_, ?_, ?_⟩
  · exact fun join isJoin => (Part.isOfTree_frame compiled join isJoin).on
  · exact Part.readsTree_frame compiled
  · simp [Query.frame]
  · simp [Query.frame]

/-- No column of the terms on the page tree belongs to the table of a member. -/
theorem foldName_ne_of_mem_columns_frame {entry : String × Member}
    (isEntry : entry ∈ parts.flatMap Part.members) {column : Column}
    (isColumn : column ∈ (Query.frame parts).columns) :
    foldName entry.2.aliasName ≠ foldName column.aliasName := by
  intro same
  have isAlias := isFieldAlias_of_mem_members compiled reached apart default isEntry
  rcases isTreeAlias_of_mem_columns_frame compiled column isColumn with base | ofTree
  · exact isAlias.isFree.ne_pages (base ▸ same)
  · obtain ⟨rest, begins⟩ := isAlias.begins
    have head : (foldName entry.2.aliasName).toList.head? = some 'f' := by
      rw [← begins]
      rfl
    rw [same, ofTree.foldName_eq] at head
    rcases ofTree.head?_eq with p | r
    · exact absurd (head.symm.trans p) (by decide)
    · exact absurd (head.symm.trans r) (by decide)

/-- Without sort keys a compiled query stands in the frame of its terms on the page tree. -/
theorem isFramed_assemble (unsorted : selector.sortKeys catalog.schema = []) (comment : String) :
    Query.IsFramed { selector.assemble catalog parts with comment } store (Query.frame parts)
      (MemberGroup.ofRuns (parts.flatMap Part.members)) := by
  have joinsApart := joinsApart_assemble compiled reached apart default
    (by simp [unsorted]) (by simp [unsorted, Join.merge])
  have joins := joins_assemble compiled (Schema.hasApartTables apart default) default
  rw [unsorted] at joins
  have forall_members {p : Member → Prop}
      (each : ∀ entry ∈ parts.flatMap Part.members, p entry.2) :
      ∀ member ∈ (MemberGroup.ofRuns (parts.flatMap Part.members)).flatten, p member := by
    rw [MemberGroup.flatten_ofRuns, List.forall_mem_map]
    exact each
  refine ⟨?_, rfl, ?_, rfl, rfl, ⟨joinsApart.isAlias, joinsApart.joined, joinsApart.nodup⟩, ?_, ?_,
    ?_, ?_, ?_⟩
  · rw [List.flatMap_nil, Join.merge, List.foldl_nil, List.append_nil] at joins
    exact joins
  · exact fun join isJoin => (Part.isOfTree_frame compiled join isJoin).kind
  · exact forall_members fun entry isEntry =>
      hasTableOf_of_mem_members compiled reached apart default isEntry
  · refine forall_members fun entry isEntry => ?_
    obtain ⟨term, -, -, name, -, stands⟩ := Part.exists_stands_of_mem compiled isEntry
    exact stands.forall_aliasName
  · exact fun column isColumn => forall_members fun entry isEntry => decide_eq_false
      (foldName_ne_of_mem_columns_frame compiled reached apart default isEntry isColumn)
  · intro score isScore
    obtain ⟨entry, isEntry, test⟩ := Part.exists_test_of_mem_scores compiled isScore
    refine ⟨entry.2, ?_, test⟩
    rw [MemberGroup.flatten_ofRuns]
    exact List.mem_map_of_mem isEntry
  · simp [assemble, unsorted]

end Selector

/-! ### Finds -/

namespace Finder

/-- What a find comes to: when it succeeds, and which pages it then returns. -/
structure Answers (finder : Finder) (catalog : Catalog) (store : Store) (selector : Selector)
    (possible : Prop) (selected : Page → Prop) : Prop where
  succeeds : (∃ rows, (finder.find catalog store.unboundedEngine selector false).rows = .ok rows) ↔
    possible
  shows : ∀ rows, (finder.find catalog store.unboundedEngine selector false).rows = .ok rows →
    store.Shows rows selected

variable {finder : Finder} {catalog : Catalog} {store : Store} {selector : Selector}
  {query : Query}

theorem Answers.congr {possible other : Prop} {selected another : Page → Prop}
    (answers : finder.Answers catalog store selector possible selected)
    (possibly : possible ↔ other) (selects : ∀ page ∈ store.pages, selected page ↔ another page) :
    finder.Answers catalog store selector other another where
  succeeds := answers.succeeds.trans possibly
  shows rows ok := (answers.shows rows ok).congr selects

theorem find_eq_ok_iff (plain : query.isPlain = true)
    (compiled : finder.queryFor catalog selector false = .ok query) (windowless : query.window = none)
    {rows : List Row} :
    (finder.find catalog store.unboundedEngine selector false).rows = .ok rows ↔
      query.isReadable = true ∧
        ∃ plan, store.boundPlan? query = some plan ∧ rows = (plan.resultSet query).assemble := by
  constructor
  · intro found
    obtain ⟨other, result, again, executed, rfl⟩ := exists_of_find_ok found
    obtain rfl : query = other := Except.ok.inj (compiled.symm.trans again)
    have readable : query.isReadable = true := by
      by_contra unreadable
      have failed : store.unboundedEngine.execute query = _ := if_pos plain
      rw [failed, if_neg unreadable] at executed
      cases executed
    obtain ⟨plan, bound, rfl⟩ := Store.executeUnbounded_eq_ok plain executed
    exact ⟨readable, plan, bound, rfl⟩
  · rintro ⟨readable, plan, bound, rfl⟩
    refine find_rows compiled (Store.executeUnbounded_of_boundPlan? plain readable bound) ?_
    rw [Query.hasLimit, windowless]
    rfl

theorem answers_of_isPlain (nodup : (store.pages.map Page.id).Nodup) (plain : query.isPlain = true)
    (compiled : finder.queryFor catalog selector false = .ok query)
    (windowless : query.window = none) :
    finder.Answers catalog store selector
      (query.isReadable = true ∧ ∃ plan, store.boundPlan? query = some plan)
      (store.SelectsBy query) where
  succeeds := by
    constructor
    · rintro ⟨rows, found⟩
      obtain ⟨readable, plan, bound, -⟩ := (find_eq_ok_iff plain compiled windowless).1 found
      exact ⟨readable, plan, bound⟩
    · rintro ⟨readable, plan, bound⟩
      exact ⟨_, (find_eq_ok_iff plain compiled windowless).2 ⟨readable, plan, bound, rfl⟩⟩
  shows rows found := by
    obtain ⟨-, plan, bound, rfl⟩ := (find_eq_ok_iff plain compiled windowless).1 found
    refine (Store.shows_assemble nodup bound windowless).congr fun page _ => ?_
    simp [Store.SelectsBy, bound]

theorem answers_of_joinsApart (nodup : (store.pages.map Page.id).Nodup)
    (joinsApart : query.JoinsApart store)
    (compiled : finder.queryFor catalog selector false = .ok query)
    (comment : query.statement.hasPlainComment = true) (windowless : query.window = none) :
    finder.Answers catalog store selector (∃ plan, store.boundPlan? query = some plan)
      (store.SelectsBy query) := by
  refine (answers_of_isPlain nodup (joinsApart.isPlain comment) compiled windowless).congr
    ⟨And.right, fun ⟨plan, bound⟩ => ⟨?_, plan, bound⟩⟩ fun _ _ => Iff.rfl
  obtain ⟨planned, resolved⟩ := Store.boundPlan?_eq_some_iff_isPlanned.1 bound
  exact joinsApart.isReadable planned resolved

theorem answers_of_isFramed (nodup : (store.pages.map Page.id).Nodup) {frame : Query}
    {groups : List MemberGroup} (framed : query.IsFramed store frame groups)
    (compiled : finder.queryFor catalog selector false = .ok query)
    (comment : query.statement.hasPlainComment = true) (windowless : query.window = none) :
    finder.Answers catalog store selector
      ((∃ plan, store.boundPlan? frame = some plan) ∧
        ∀ member ∈ groups.flatten, store.Fits member)
      fun page => store.SelectsBy frame page ∧ ∀ group ∈ groups, store.Selects group page := by
  have answers := answers_of_joinsApart nodup framed.joinsApart compiled comment windowless
  refine ⟨answers.succeeds.trans framed.exists_boundPlan?_iff, fun rows found => ?_⟩
  obtain ⟨plan, bound⟩ := answers.succeeds.1 ⟨rows, found⟩
  obtain ⟨framePlan, boundFrame⟩ := (framed.exists_boundPlan?_iff.1 ⟨plan, bound⟩).1
  refine (answers.shows rows found).congr fun page _ => ?_
  simp only [Store.SelectsBy, bound, boundFrame, Option.some.injEq, exists_eq_left']
  exact framed.pageRows_ne_nil_iff bound boundFrame page

/-- A find in default tables succeeds when its terms on the page tree can be asked and the members of
the others find their columns. It returns the pages that the former let through and on which every
group of the latter has an alternative that holds. -/
theorem answers_of_ofTerms (reached : Store.Reachable catalog.schema store)
    (apart : catalog.schema.HasApartNames) (default : catalog.schema.HasDefaultTables)
    (unchecked : finder.checkStatus = false)
    (others : ∀ term ∈ selector, term.kind ≠ .sort ∧ term.kind ≠ .window)
    (comment : finder.debug = true → ∀ term ∈ selector, isPlainComment term.text.toList = true)
    {parts : List Part} (compiled : Part.ofTerms catalog [] selector = .ok parts) :
    finder.Answers catalog store selector
      ((∃ plan, store.boundPlan? (Query.frame parts) = some plan) ∧
        ∀ member ∈ (MemberGroup.ofRuns (parts.flatMap Part.members)).flatten, store.Fits member)
      fun page => store.SelectsBy (Query.frame parts) page ∧
        ∀ group ∈ MemberGroup.ofRuns (parts.flatMap Part.members), store.Selects group page := by
  obtain ⟨unsorted, unlimited⟩ :=
    Selector.sortKeys_eq_nil_and_window?_eq_none_of_kind others catalog
  have framed := Selector.isFramed_assemble compiled reached apart default unsorted
    (finder.commentFor selector)
  refine answers_of_isFramed reached.nodup_ids framed ?_ ?_ unlimited
  · rw [queryFor_eq_map_compile, prepare_of_unchecked unchecked, Selector.compile, compiled]
    rfl
  · rw [Statement.hasPlainComment_eq, Query.statement, isPlainComment_commentFor_iff,
      prepare_of_unchecked unchecked]
    exact comment

/-- What a find shows whose query the engine carries out. -/
theorem find_shows_of_runnablePlan? (nodup : (store.pages.map Page.id).Nodup)
    (plain : query.isPlain = true) {plan : Plan} (runnable : store.runnablePlan? query = some plan)
    {selector : Selector} (compiled : finder.queryFor catalog selector false = .ok query)
    (windowless : query.window = none) {p : Page → Prop}
    (selected : ∀ page ∈ store.pages,
      (plan.pageRows query page.record).isEmpty = false ↔ p page) :
    ∃ rows, (finder.find catalog store.engine selector false).rows = .ok rows ∧
      store.Shows rows p := by
  have bound := Store.boundPlan?_of_runnablePlan? runnable
  refine ⟨_, (find_of_runnablePlan? plain runnable compiled).1,
    (Store.shows_assemble nodup bound windowless).congr fun page isPage => ?_⟩
  exact List.isEmpty_eq_false_iff.symm.trans (selected page isPage)

end Finder

end PageTree
