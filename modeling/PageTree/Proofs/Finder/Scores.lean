import Mathlib.Algebra.Order.BigOperators.Group.List
import Mathlib.Algebra.Order.Group.Nat
import PageTree.Proofs.Compile.Windowless
import PageTree.Proofs.Compile.Words
import PageTree.Proofs.Finder.Union
import PageTree.Proofs.Number.Exactness
import PageTree.Proofs.Store.Scores
import PageTree.Proofs.Store.TextLimit

/-!
Scores of finds. The score of a row is the sum of its relevance columns, walked by position, so
columns that share a name all count. Main statement: every row of a find is of a page and has the
relevance of the page as its score, exactly, and a search for one phrase in one field returns no page
without it.
-/

namespace PageTree

open Sql Text Number

/-! ### Sums of columns -/

theorem Row.exists_score {cells : List (String × Datum)} {counts : List Nat}
    (each : ((cells.filter fun cell => isScoreColumn cell.1).map fun cell => scoreOf cell.2) =
      counts.map fun count : Nat => Binary64.ofInt count)
    (small : counts.sum < 2 ^ 53) :
    ∃ total : Binary64, score cells = .real total ∧ total.IsWhole counts.sum := by
  let total := (cells.filter fun cell => isScoreColumn cell.1).foldl
    (fun total cell => total + scoreOf cell.2) Binary64.zero
  have sum : total = counts.foldl (fun total (count : Nat) => total + .ofInt count) .zero := by
    have mapped := congrArg (List.foldl (fun (total : Binary64) x => total + x) .zero) each
    rwa [List.foldl_map, List.foldl_map] at mapped
  have whole := Binary64.isWhole_foldl_add counts Binary64.isWhole_zero
    (by rwa [Nat.zero_add])
  rw [← sum, Nat.zero_add] at whole
  exact ⟨total, if_pos whole.isFinite, whole⟩

theorem Query.map_scoreOf_cells (query : Query) (binding : Binding) :
    (((query.columnNames.zip (query.cells binding)).filter fun cell =>
        Row.isScoreColumn cell.1).map fun cell => Row.scoreOf cell.2) =
      query.scores.map fun score => Row.scoreOf (score.value binding).datum := by
  have ordinary : Row.isScoreColumn "id" = false ∧ Row.isScoreColumn "templates_id" = false := by
    decide
  have kept : ((query.scores.map Score.label).zip
      (query.scores.map fun score => (score.value binding).datum)).filter
        (fun cell => Row.isScoreColumn cell.1) =
      query.scores.map fun score => (score.label, (score.value binding).datum) := by
    rw [List.zip_map', List.filter_eq_self, List.forall_mem_map]
    exact fun score _ => Score.isScoreColumn_label score
  simp only [columnNames, cells, List.cons_append, List.nil_append, List.zip_cons_cons,
    List.filter_cons, idColumn, templateColumn, ordinary, Bool.false_eq_true, if_false, kept,
    List.map_map]
  rfl

theorem Query.find?_score_ofCells (query : Query) (binding : Binding) :
    Dictionary.find? (Row.ofCells (query.columnNames.zip (query.cells binding))) "score" =
      some (Row.score (query.columnNames.zip (query.cells binding))) := by
  rw [Row.ofCells, Dictionary.find?_insert, if_pos rfl]

/-! ### Bounds -/

namespace Store

variable {store : Store} {schema : Schema} {page : Page}

theorem exists_row_of_textIn? {name text : String}
    (found : store.textIn? schema page name = some text) :
    ∃ row ∈ store.fieldRows, row.data.text? = some text := by
  obtain ⟨field, -, first⟩ := Option.bind_eq_some_iff.1 found
  obtain ⟨value, isFirst, given⟩ := Option.bind_eq_some_iff.1 first
  have isValue := List.mem_of_mem_head? isFirst
  rw [valuesOf] at isValue
  cases table : store.table? field.table with
  | none =>
      rw [table] at isValue
      cases isValue
  | some held =>
      rw [table] at isValue
      obtain ⟨row, isRow, rfl⟩ := List.mem_map.1 isValue
      exact ⟨row, mem_fieldRows table (List.mem_filter.1 isRow).1, given⟩

theorem occurrencesOf_le (bounded : store.HasBoundedTexts) (search : Search) :
    store.occurrencesOf schema page search ≤ textLimit := by
  rw [occurrencesOf]
  cases found : store.textIn? schema page search.name with
  | none => exact Nat.zero_le _
  | some text =>
      obtain ⟨row, isRow, given⟩ := exists_row_of_textIn? found
      calc occurrences (lower search.value.toList) (lower text.toList)
          ≤ (lower text.toList).length := occurrences_le ..
        _ = text.length := by rw [lower, List.length_map, String.length_toList]
        _ ≤ textLimit := bounded row isRow text given

/-- So many columns of such numbers have an exact sum. -/
theorem relevance_lt (bounded : store.HasBoundedTexts) {selector : Selector}
    (few : selector.searches.length ≤ Query.columnLimit) :
    store.relevance schema page selector < 2 ^ 53 := by
  have sum := List.sum_le_card_nsmul (selector.searches.map (store.occurrencesOf schema page))
    textLimit (List.forall_mem_map.2 fun search _ => occurrencesOf_le bounded search)
  rw [List.length_map, Nat.nsmul_eq_mul] at sum
  calc store.relevance schema page selector
      ≤ selector.searches.length * textLimit := sum
    _ ≤ Query.columnLimit * textLimit := Nat.mul_le_mul_right _ few
    _ < 2 ^ 53 := by decide

end Store

/-! ### Prepared selectors -/

theorem Selector.searches_ofKinds_attached (selector : Selector) :
    (selector.ofKinds fun kind => kind = .attached).searches = selector.searches := by
  induction selector with
  | nil => rfl
  | cons term terms induction =>
      rw [Selector.searches, Selector.searches] at induction ⊢
      rw [Selector.ofKinds] at induction ⊢
      rw [List.filter_cons, List.flatMap_cons]
      by_cases attached : term.kind = .attached
      · rw [if_pos (decide_eq_true attached), List.flatMap_cons, induction]
      · rw [if_neg (by simpa using attached), induction, Term.searches, if_neg fun ranks =>
          attached ranks.1]
        rfl

theorem Schema.HasDefaultTables.hasWordNames {schema : Schema} (default : schema.HasDefaultTables)
    (tables : schema.HasWordTables) : schema.HasWordNames := by
  intro field isField c member
  have word := tables field isField
  rw [default field isField, defaultTable, isWord, String.toList_append] at word
  have chars := (Bool.and_eq_true_iff.1 word).2
  exact List.all_eq_true.1 chars c (List.mem_append_right _ member)

namespace Finder

/-- What a find adds to a selector is not about attached fields. -/
theorem ofKinds_attached_prepare (finder : Finder) (selector : Selector) (single : Bool) :
    (finder.prepare selector single).ofKinds (fun kind => kind = .attached) =
      selector.ofKinds fun kind => kind = .attached := by
  have append (terms more : Selector) : Selector.ofKinds (fun kind => kind = .attached)
      (terms ++ more) = terms.ofKinds (fun kind => kind = .attached) ++
        more.ofKinds fun kind => kind = .attached :=
    List.filter_append ..
  have windowed (terms : Selector) :
      terms.withSingleWindow.ofKinds (fun kind => kind = .attached) =
        terms.ofKinds fun kind => kind = .attached := by
    rw [Selector.withSingleWindow, append]
    exact List.append_nil _
  have bounded : (selector.withStatusBound single).ofKinds (fun kind => kind = .attached) =
      selector.ofKinds fun kind => kind = .attached := by
    have bound (bounds : List Int) : Selector.ofKinds (fun kind => kind = .attached)
        (bounds.map fun bound => Term.single "status" .less (toString bound)) = [] := by
      rw [Selector.ofKinds, List.filter_eq_nil_iff, List.forall_mem_map]
      intro bound _ attached
      cases of_decide_eq_true attached
    rw [Selector.withStatusBound, append, bound, List.append_nil,
      Selector.ofKinds_map_resolveStatus]
    refine (List.map_congr_left fun term isTerm => ?_).trans (List.map_id _)
    apply Term.resolveStatus_of_kind
    rw [of_decide_eq_true (List.mem_filter.1 isTerm).2]
    decide
  unfold Finder.prepare
  cases finder.checkStatus <;> cases single
  · rfl
  · exact windowed selector
  · exact bounded
  · exact (windowed _).trans bounded

theorem searches_prepare (finder : Finder) (selector : Selector) (single : Bool) :
    (finder.prepare selector single).searches = selector.searches := by
  rw [← Selector.searches_ofKinds_attached, ofKinds_attached_prepare,
    Selector.searches_ofKinds_attached]

theorem mem_prepare_iff {finder : Finder} {selector : Selector} {single : Bool} {term : Term}
    (attached : term.kind = .attached) :
    term ∈ finder.prepare selector single ↔ term ∈ selector := by
  have kept (terms : Selector) :
      term ∈ terms.ofKinds (fun kind => kind = .attached) ↔ term ∈ terms := by
    rw [Selector.ofKinds, List.mem_filter, decide_eq_true attached]
    exact and_iff_left rfl
  rw [← kept, ofKinds_attached_prepare, kept]

theorem isPlainComment_of_mem_prepare {finder : Finder} {selector : Selector}
    (plain : ∀ term ∈ selector, isPlainComment term.text.toList = true) {single : Bool} :
    ∀ term ∈ finder.prepare selector single, isPlainComment term.text.toList = true := by
  have bounded : ∀ term ∈ selector.withStatusBound single,
      isPlainComment term.text.toList = true := by
    rw [Selector.withStatusBound, List.forall_mem_append, List.forall_mem_map, List.forall_mem_map]
    constructor
    · intro term isTerm
      rw [Term.text_resolveStatus]
      exact plain term isTerm
    · intro bound isBound
      rcases Selector.statusBound?_cases (Option.mem_toList.1 isBound) with rfl | rfl
      · decide
      · decide
  have windowed {terms : Selector} (plain : ∀ term ∈ terms, isPlainComment term.text.toList = true) :
      ∀ term ∈ terms.withSingleWindow, isPlainComment term.text.toList = true := by
    rw [Selector.withSingleWindow, List.forall_mem_append]
    exact ⟨plain, by decide⟩
  unfold prepare
  cases finder.checkStatus <;> cases single
  · exact plain
  · exact windowed plain
  · exact bounded
  · exact windowed bounded

theorem exists_parts_of_queryFor {finder : Finder} {catalog : Catalog} {selector : Selector}
    {single : Bool} {query : Query} (compiled : finder.queryFor catalog selector single = .ok query) :
    ∃ parts, Part.ofTerms catalog [] (finder.prepare selector single) = .ok parts ∧
      query = { (finder.prepare selector single).assemble catalog parts with
        comment := if finder.debug then "Selector: " ++ (finder.prepare selector single).text
          else "" } := by
  obtain ⟨silent, isSilent, rfl⟩ := map_eq_ok.1 compiled
  obtain ⟨parts, isParts, rfl⟩ := map_eq_ok.1 isSilent
  refine ⟨parts, isParts, ?_⟩
  split
  · rfl
  · rfl

/-- Where no text of a term ends the comment, the statement of a find says what the query says. -/
theorem isPlain_of_isPlainComment {schema : Schema} {store : Store}
    (names : schema.HasWordNames) (tables : schema.HasWordTables) {finder : Finder}
    {selector : Selector}
    (plain : finder.debug = true → ∀ term ∈ selector, isPlainComment term.text.toList = true)
    {now : Date.Moment} {pageNumber : Option Int} {single : Bool} {query : Query}
    (compiled : finder.queryFor (store.catalog schema now pageNumber) selector single = .ok query) :
    query.isPlain = true := by
  obtain ⟨parts, isParts, rfl⟩ := exists_parts_of_queryFor compiled
  have silent : (finder.prepare selector single).compile (store.catalog schema now pageNumber) =
      .ok _ := map_eq_ok.2 ⟨parts, isParts, rfl⟩
  have words := Selector.isWord_compile tables names silent
  rw [Query.isPlain, Bool.and_eq_true, List.all_eq_true]
  refine ⟨?_, words⟩
  cases debug : finder.debug with
  | true => exact (isPlainComment_label_iff _).2 (isPlainComment_of_mem_prepare (plain debug))
  | false => rfl

end Finder

/-! ### Members of a planned query -/

section

variable {store : Store} {catalog : Catalog} (reached : Store.Reachable catalog.schema store)
  (default : catalog.schema.HasDefaultTables) (unnumbered : catalog.schema.HasUnnumberedNames)
  {selector : Selector} {parts : List Part}
  (compiled : Part.ofTerms catalog [] selector = .ok parts) {query : Query}
  (joins : query.joins = (selector.assemble catalog parts).joins) {plan : Plan}
  (bound : store.boundPlan? query = some plan) {page : Page} {binding : Binding}

include bound

theorem Store.resolves_join {join : Join} (isJoin : join ∈ query.joins) :
    Condition.Forall (fun test => ∀ column ∈ test.columns, plan.resolves column = true) join.on := by
  intro test isTest column read
  have tests : test ∈ query.joins.flatMap fun join => join.on.tests :=
    List.mem_flatMap.2 ⟨join, isJoin, isTest⟩
  apply (boundPlan?_eq_some_iff_isPlanned.1 bound).2
  simp only [Query.columns, List.mem_append]
  exact .inl (.inl (.inl (.inr (List.mem_flatMap.2 ⟨test, tests, read⟩))))

include reached default unnumbered compiled joins

/-- A joined row shows the table of every member that looks for phrases, and a row of it where the
member stands alone. -/
theorem Store.exists_showsRow (isRow : binding ∈ plan.joinAll page.record) {group : MemberGroup}
    (isGroup : group ∈ MemberGroup.ofRuns (parts.flatMap Part.members)) {member : Member}
    (isMember : member ∈ group) {term : Term} (phrase : term.operator = .containsPhrase)
    (valued : term.values ≠ []) {name : String} (stands : member.StandsFor catalog term name) :
    ∃ field kind branches table row, catalog.schema.field? name = some field ∧
      member.IsMemberOf catalog.now term field kind branches ∧
        store.table? field.table = some table ∧ plan.ShowsRow binding member table page row ∧
          (group.isLone = true → row.isSome = true) := by
  obtain ⟨field, kind, branches, isField, memberOf⟩ := stands
  obtain ⟨table, found, kept⟩ := reached.exists_source? (Schema.mem_fields_of_field? isField)
  rw [← memberOf.table] at found kept
  have filled : member.blank = false := (Member.condition_of_containsPhrase memberOf phrase).2
  have planned := (boundPlan?_eq_some_iff_isPlanned.1 bound).1
  obtain ⟨join, among, aliasName, name, on, dropping⟩ :=
    MemberGroup.exists_link_mem_joins filled isMember
  have isJoin : join ∈ query.joins := by
    have alone := Selector.filter_joins_eq (Part.areNumbered_of_ofTerms compiled) default
      (Part.nodup_aliasNames default unnumbered compiled) isGroup among
    rw [joins]
    exact (List.mem_filter.1 (alone ▸ List.mem_singleton_self join)).1
  obtain ⟨joined, isJoined, sourced⟩ := planned.exists_joined isJoin
  obtain ⟨isOn, source⟩ := sourced.eq (name ▸ kept)
  rw [aliasName] at source
  have carries : plan.Carries store member table :=
    planned.carries memberOf phrase valued found kept ⟨joined, isJoined, source⟩
      (on ▸ resolves_join bound isJoin)
  have inner : ∀ joined ∈ plan.inner, ∀ column ∈ Filter.columns joined.join.on,
      plan.resolves column = true := by
    intro other isOther column read
    obtain ⟨given, isGiven, sources⟩ := planned.exists_join (List.mem_append_left _ isOther)
    rw [sources.join_eq] at read
    obtain ⟨test, isTest, isColumn⟩ := List.mem_flatMap.1 read
    exact resolves_join bound isGiven test isTest column isColumn
  obtain ⟨row, shows, present⟩ := carries.exists_showsRow filled inner isJoined
    (isOn ▸ on.trans (Member.on_leftJoin filled).symm) source isRow
  refine ⟨field, kind, branches, table, row, isField, memberOf, memberOf.table ▸ found, shows, ?_⟩
  intro lone
  apply present
  -- A table that is joined by a left join has a join of that kind in the query.
  intro keeps
  obtain ⟨given, isGiven, sources⟩ := exists_of_mem_forall₂ planned.left keeps
  have kinds : given.kind = .left := of_decide_eq_true (List.mem_filter.1 isGiven).2
  rw [← sources.join_eq, isOn, dropping lone] at kinds
  cases kinds

variable (textsNoNull : store.HasNullFreeTexts)
  (counts : ∀ term ∈ selector, term.kind = .attached → term.operator = .containsPhrase →
    term.Counts)

include textsNoNull counts

theorem Store.map_scoreOf_eq (isRow : binding ∈ plan.joinAll page.record) :
    (parts.flatMap Part.scores).map (fun score => Row.scoreOf (score.value binding).datum) =
      (selector.searches.map (store.occurrencesOf catalog.schema page)).map
        fun count : Nat => Binary64.ofInt count := by
  have counted := Part.forall₂_isCountedBy_of_ofTerms counts compiled
  rw [List.map_map, eq_comm]
  apply List.forall₂_eq_eq_eq ▸ (List.forall₂_map_left_iff.2 (List.forall₂_map_right_iff.2 _))
  refine ((List.forall₂_and_left _ _).2 ⟨fun _ isSearch => isSearch, counted⟩).imp ?_
  rintro search score ⟨isSearch, member, isEntry, stands, rfl⟩
  obtain ⟨isTerm, kind, phrase, -, isValue, filled⟩ := Selector.mem_searches_iff.1 isSearch
  obtain ⟨group, isGroup, isMember⟩ := MemberGroup.exists_mem_ofRuns isEntry
  obtain ⟨field, fieldKind, branches, table, row, isField, memberOf, found, shows, -⟩ :=
    exists_showsRow reached default unnumbered compiled joins bound isRow isGroup isMember phrase
      (List.ne_nil_of_mem isValue) stands
  exact (shows.scoreOf_value isField found
    (reached.hasSoleValues table (List.mem_of_find?_eq_some found)) textsNoNull memberOf phrase
    (counts _ isTerm kind phrase).noNull isValue filled).symm

/-- A page is selected by a term on one field for one phrase only if the phrase occurs in it: the
members that have the text of the term all look for the phrase in that field. -/
theorem Store.occurrencesOf_pos (isRow : binding ∈ plan.joinAll page.record)
    (holds : ∀ conjunct ∈ MemberGroup.conjuncts (MemberGroup.ofRuns (parts.flatMap Part.members)),
      plan.holds binding conjunct.filter = true)
    {search : Search} (isSearch : search ∈ selector.searches)
    (own : ∀ other ∈ selector, other.kind = .attached → other.text = search.term.text →
      other = search.term)
    (names : search.term.fields = [search.name]) (values : search.term.values = [search.value]) :
    0 < store.occurrencesOf catalog.schema page search := by
  obtain ⟨isTerm, kind, phrase, -, isValue, filled⟩ := Selector.mem_searches_iff.1 isSearch
  have counted := counts search.term isTerm kind phrase
  have valued : search.term.values ≠ [] := List.ne_nil_of_mem isValue
  obtain ⟨score, -, member, isEntry, stands, -⟩ := exists_of_mem_left_forall₂
    (Part.forall₂_isCountedBy_of_ofTerms counts compiled) isSearch
  obtain ⟨group, isGroup, isMember⟩ := MemberGroup.exists_mem_ofRuns isEntry
  have shown {other : Member} (isOther : other ∈ group) :=
    exists_showsRow reached default unnumbered compiled joins bound isRow isGroup isOther phrase
      valued (Part.standsFor_of_mem_ofRuns default unnumbered compiled own counted.filters valued
        names isEntry isGroup isMember isOther)
  have found {field : Field} {kind : FieldKind} {branches : List Member.Branch} {other : Member}
      {table : FieldTable} {row : FieldRow}
      (isField : catalog.schema.field? search.name = some field)
      (memberOf : other.IsMemberOf catalog.now search.term field kind branches)
      (isTable : store.table? field.table = some table)
      (shows : plan.ShowsRow binding other table page (some row)) :
      0 < store.occurrencesOf catalog.schema page search := by
    obtain ⟨isOne, same, yes⟩ := shows.found row rfl
    exact Member.Finds.occurrencesOf_pos isField isTable
      (reached.hasSoleValues table (List.mem_of_find?_eq_some isTable)) textsNoNull memberOf phrase
      counted.noNull filled values ⟨row, isOne, same, yes⟩
  cases lone : group.isLone with
  | true =>
      obtain ⟨field, kind, branches, table, row, isField, memberOf, isTable, shows, present⟩ :=
        shown isMember
      obtain ⟨row, rfl⟩ := Option.isSome_iff_exists.1 (present lone)
      exact found isField memberOf isTable shows
  | false =>
      obtain ⟨other, isOther, kept⟩ := Plan.holds_conjuncts_iff.1 holds group isGroup lone
      obtain ⟨field, kind, branches, table, row, isField, memberOf, isTable, shows, -⟩ :=
        shown isOther
      cases row with
      | none => exact absurd (shows.holds.1 kept) (Member.truthIn_none_ne memberOf phrase)
      | some row => exact found isField memberOf isTable shows

end

/-! ### Rows of a find -/

theorem Store.length_scores_le_of_runnablePlan? {store : Store} {query : Query} {plan : Plan}
    (runnable : store.runnablePlan? query = some plan) :
    query.scores.length ≤ Query.columnLimit := by
  have planned := (Option.filter_eq_some_iff.1 runnable).1
  unfold plan? at planned
  split at planned
  · next accepted =>
    simp only [Query.isWithinLimits, Query.columnNames, List.length_cons, List.length_map,
      Bool.and_eq_true, decide_eq_true_eq] at accepted
    omega
  · cases planned

end PageTree
