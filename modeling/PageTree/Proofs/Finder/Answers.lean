import PageTree.Proofs.Finder.Ancestors
import PageTree.Proofs.Finder.Union

/-!
What the finds of single terms come to. A find answers by whether it succeeds, and by the pages that
it then returns. Main statements: the answers to a term on a page column, to one on the pages above,
to a path, and to a term on one attached field, in the terms of the store alone.
-/

namespace PageTree

open Sql

/-! ### Answers -/

namespace Finder

variable {finder : Finder} {catalog : Catalog} {store : Store} {selector : Selector}
  {query : Query}

theorem answers_of_filtersBy (nodup : (store.pages.map Page.id).Nodup) {table : Table}
    (filters : query.FiltersBy store table)
    (compiled : finder.queryFor catalog selector false = .ok query)
    (comment : query.statement.hasPlainComment = true) :
    finder.Answers catalog store selector True fun page =>
      (store.innerPlan table query).pageRows query page.record ≠ [] := by
  have bound := filters.boundPlan?_eq
  refine (answers_of_isPlain nodup (filters.isPlain comment) compiled filters.window).congr
    (iff_of_true ⟨filters.isReadable, _, bound⟩ trivial) fun page _ => ?_
  simp [Store.SelectsBy, bound]

theorem exists_queryFor_singleton_iff (unchecked : finder.checkStatus = false) {term : Term} :
    (∃ query, finder.queryFor catalog [term] false = .ok query) ↔
      ∃ part, Part.ofTerm catalog [] term = .ok part := by
  rw [exists_queryFor_iff unchecked, Part.ofTerms]
  cases Part.ofTerm catalog [] term with
  | error error =>
      constructor
      · rintro ⟨_, failed⟩
        cases failed
      · rintro ⟨_, failed⟩
        cases failed
  | ok part => exact iff_of_true ⟨_, rfl⟩ ⟨part, rfl⟩

end Finder

/-! ### Terms without members -/

/-- The query of a term on a page column. -/
def nativeQuery (filter : Filter) (comment : String) : Query :=
  { joins := [], conjuncts := [.enclosed filter], scores := [], orders := [], window := none
    comment }

/-- The query of a path. -/
def pathQuery (path comment : String) : Query :=
  { joins := Join.merge (Path.joins path), conjuncts := Path.conjuncts path, scores := []
    orders := [], window := none, comment }

namespace Store

/-- Does the engine carry out the query of a path? -/
def TakesPath (store : Store) (path : String) : Prop :=
  (pathQuery path "").isReadable = true ∧ ∃ plan, store.boundPlan? (pathQuery path "") = some plan

def SelectsByPath (store : Store) (path : String) (page : Page) : Prop :=
  ∃ plan, store.boundPlan? (pathQuery path "") = some plan ∧
    plan.pageRows (pathQuery path "") page.record ≠ []

/-- Is the page that a value stands for the parent of the page, or above it? -/
def SelectsByAncestor (store : Store) (catalog : Catalog) (value : String) (page : Page) : Prop :=
  ∃ id, Term.ancestorId catalog value = .ok id ∧
    ∃ entry ∈ store.ancestry, entry.page = page.parent ∧ (entry.ancestor = id ∨ entry.page = id)

end Store

section

variable (store : Store) {catalog : Catalog} {term : Term} (native : isNativeName term.field = true)
  {filter : Filter} (filtered : term.nativeFilter catalog = .ok filter) (comment : String)

include native filtered

theorem filtersBy_nativeQuery :
    (nativeQuery filter comment).FiltersBy store store.pageTable where
  kind := by simp [nativeQuery]
  source := by simp [nativeQuery]
  apart := List.nodup_singleton _
  qualifier := by simp [nativeQuery]
  begins := by simp [nativeQuery]
  joins := by simp [nativeQuery]
  filters := by
    refine List.forall_mem_singleton.2 fun test isTest column read => .inl ?_
    rw [Term.forall_columns_nativeFilter filtered test isTest column read]
    exact nativeColumn_isColumn native
  scores := rfl
  orders := rfl
  window := rfl

theorem pageRows_nativeQuery_ne_nil_iff (page : Page) :
    (store.innerPlan store.pageTable (nativeQuery filter comment)).pageRows
        (nativeQuery filter comment) page.record ≠ [] ↔
      term.isSatisfiedNatively catalog page = true := by
  have filters := filtersBy_nativeQuery store native filtered comment
  obtain ⟨ofPage, isColumn⟩ := nativeColumn_isColumn native
  have same (assignment : String → Record) :
      (store.innerPlan store.pageTable (nativeQuery filter comment)).assigned page.record assignment
        (nativeColumn term.field) = page.binding (nativeColumn term.field) := by
    rw [show nativeColumn term.field = ⟨"pages", (nativeColumn term.field).name⟩ by rw [← ofPage],
      filters.assigned_page page assignment isColumn]
    rfl
  have holds (assignment : String → Record) :
      (store.innerPlan store.pageTable (nativeQuery filter comment)).holds
          ((store.innerPlan store.pageTable (nativeQuery filter comment)).assigned page.record
            assignment) filter = term.isSatisfiedNatively catalog page :=
    Plan.holds_nativeFilter rfl native (same assignment) filtered
  rw [filters.pageRows_ne_nil_iff]
  constructor
  · rintro ⟨assignment, -, -, filtered⟩
    rw [← holds assignment]
    exact filtered _ (List.mem_singleton_self _)
  · intro satisfied
    refine ⟨fun _ => page.record, by simp [nativeQuery], by simp [nativeQuery], ?_⟩
    exact List.forall_mem_singleton.2 ((holds _).trans satisfied)

end

namespace Finder

variable {finder : Finder} {catalog : Catalog} {store : Store} {query : Query}

theorem queryFor_nativeQuery (unchecked : finder.checkStatus = false) {term : Term}
    (kind : term.kind = .native) {filter : Filter}
    (filtered : term.nativeFilter catalog = .ok filter) :
    finder.queryFor catalog [term] false =
      .ok (nativeQuery filter (finder.commentFor [term])) := by
  have part : Part.ofTerm catalog [] term =
      .ok { Part.nothing with conjuncts := [.enclosed filter] } := by
    rw [Part.ofTerm, kind]
    dsimp only
    rw [filtered]
    rfl
  exact queryFor_singleton unchecked (by simp [kind]) (by simp [kind]) part rfl rfl

section

variable (nodup : (store.pages.map Page.id).Nodup) (unchecked : finder.checkStatus = false)
  {term : Term} (compiled : finder.queryFor catalog [term] false = .ok query)
  (comment : finder.debug = true → isPlainComment term.text.toList = true)

include nodup unchecked compiled comment

/-- A find with a term on a page column returns the pages that satisfy the term. -/
theorem answers_native (kind : term.kind = .native) :
    finder.Answers catalog store [term] True fun page =>
      term.isSatisfiedNatively catalog page = true := by
  obtain ⟨part, isPart⟩ := (exists_queryFor_singleton_iff unchecked).1 ⟨query, compiled⟩
  rw [Part.ofTerm, kind] at isPart
  obtain ⟨filter, filtered, -⟩ := bind_eq_ok.1 isPart
  have asked := queryFor_nativeQuery unchecked kind filtered
  have native := Term.isNativeName_of_kind kind
  refine (answers_of_filtersBy nodup (filtersBy_nativeQuery store native filtered _) asked
    (isPlainComment_commentFor_singleton unchecked comment)).congr Iff.rfl fun page _ => ?_
  exact pageRows_nativeQuery_ne_nil_iff store native filtered _ page

theorem answers_ancestors (kind : term.kind = .ancestors) :
    finder.Answers catalog store [term] True fun page =>
      ∃ value ∈ term.values, store.SelectsByAncestor catalog value page := by
  obtain ⟨part, isPart⟩ := (exists_queryFor_singleton_iff unchecked).1 ⟨query, compiled⟩
  rw [Part.ofTerm, kind] at isPart
  obtain ⟨ids, named, -⟩ := bind_eq_ok.1 isPart
  have asked := queryFor_ancestorsQuery unchecked kind named
  refine (answers_of_filtersBy nodup (store.filtersBy_ancestorsQuery ids _) asked
    (isPlainComment_commentFor_singleton unchecked comment)).congr Iff.rfl fun page _ => ?_
  rw [Store.pageRows_ancestorsQuery_ne_nil_iff_entry]
  have each := mapM_eq_ok.1 named
  constructor
  · rintro ⟨id, isId, entry, found⟩
    obtain ⟨value, isValue, isOne⟩ := exists_of_mem_forall₂ each isId
    exact ⟨value, isValue, id, isOne, entry, found⟩
  · rintro ⟨value, isValue, id, isOne, entry, found⟩
    obtain ⟨other, isOther, again⟩ := exists_of_mem_left_forall₂ each isValue
    obtain rfl : id = other := Except.ok.inj (isOne.symm.trans again)
    exact ⟨id, isOther, entry, found⟩

end

/-- A find for a path reads the first value of the term. -/
theorem answers_path (nodup : (store.pages.map Page.id).Nodup)
    (unchecked : finder.checkStatus = false) {term : Term}
    (comment : finder.debug = true → isPlainComment term.text.toList = true)
    (kind : term.kind = .path) :
    finder.Answers catalog store [term] (store.TakesPath term.value)
      (store.SelectsByPath term.value) := by
  have part : Part.ofTerm catalog [] term = .ok
      { Part.nothing with
        joins := Path.joins term.value, conjuncts := Path.conjuncts term.value } := by
    rw [Part.ofTerm, kind]
  have asked : finder.queryFor catalog [term] false =
      .ok (pathQuery term.value (finder.commentFor [term])) :=
    queryFor_singleton unchecked (by simp [kind]) (by simp [kind]) part rfl rfl
  have plain : (pathQuery term.value (finder.commentFor [term])).isPlain = true := by
    rw [Query.isPlain, Bool.and_eq_true, List.all_eq_true]
    refine ⟨isPlainComment_commentFor_singleton unchecked comment, fun join isJoin => ?_⟩
    obtain ⟨other, isOther, same⟩ :=
      List.mem_map.1 (Join.map_aliasName_merge_subset _ (List.mem_map_of_mem isJoin))
    rw [← same]
    exact isWord_of_isTableName (Path.isWellNamed_joins term.value other isOther).aliasName
  -- Nothing of the answer depends on the comment.
  exact (answers_of_isPlain nodup plain asked rfl).congr Iff.rfl fun _ _ => Iff.rfl

/-! ### Terms on one attached field -/

section

variable (reached : Store.Reachable catalog.schema store) (unchecked : finder.checkStatus = false)
  {term : Term} (positive : term.negated = false) (attached : term.kind = .attached)
  {name : String} (lone : term.fields = [name])
  (compiled : finder.queryFor catalog [term] false = .ok query)
  (comment : finder.debug = true → isPlainComment term.text.toList = true)

include reached unchecked positive attached lone compiled comment

omit reached positive comment in
/-- The one member of a term on a single name is joined under the name of its table. -/
theorem exists_sole_member (asks : term.asks = true) :
    ∃ (member : Member) (field : Field) (sole : Query),
      finder.queryFor catalog [term] false = .ok sole ∧
      sole.comment = finder.commentFor [term] ∧ sole.IsForTerm catalog term [member] ∧
      catalog.schema.field? (Member.splitName name).1 = some field ∧
      member.table = field.table ∧ ∀ join ∈ sole.joins, join.aliasName = field.table := by
  rw [queryFor_attached unchecked catalog attached] at compiled ⊢
  obtain ⟨found, contributed, -⟩ := map_eq_ok.1 compiled
  rw [contributed]
  obtain ⟨members, stand, aliases, isForTerm⟩ := Query.exists_isForTerm_of_nodup asks
    (by simp [lone]) contributed term.text (finder.commentFor [term])
  rw [lone] at stand
  obtain ⟨member, others, ⟨field, kind, branches, isFor⟩, none, rfl⟩ :=
    List.forall₂_cons_left_iff.1 stand
  obtain rfl := List.forall₂_nil_left_iff.1 none
  have isForTerm := isForTerm (List.nodup_singleton _)
  refine ⟨member, field, _, rfl, rfl, isForTerm, isFor.isField, isFor.table, fun join isJoin => ?_⟩
  have among := List.mem_map_of_mem (f := Join.aliasName) isJoin
  rw [isForTerm.joins, MemberGroup.map_aliasName_joins, aliases] at among
  rw [List.mem_singleton.1 among, isFor.table]
  rfl

omit positive lone in
theorem answers_unasking (silent : term.asks = false) :
    finder.Answers catalog store [term] True fun _ => True := by
  rw [queryFor_attached unchecked catalog attached] at compiled
  obtain ⟨found, contributed, -⟩ := map_eq_ok.1 compiled
  obtain ⟨rows, ok, shows⟩ := find_unasking reached unchecked attached contributed comment silent
  refine ⟨iff_of_true ⟨rows, ok⟩ trivial, fun others again => ?_⟩
  obtain rfl : rows = others := Except.ok.inj (ok.symm.trans again)
  exact shows

/-- The find for one name of a field with a table that can stand anywhere. -/
theorem answers_name (asks : term.asks = true)
    (free : ∀ field, catalog.schema.field? (Member.splitName name).1 = some field →
      IsFreeAlias field.table) :
    finder.Answers catalog store [term] (store.FitsName catalog term name)
      (store.SelectsByName catalog term name) := by
  obtain ⟨member, field, sole, isSole, commented, isForTerm, isField, ofField, aliases⟩ :=
    exists_sole_member unchecked attached lone compiled asks
  obtain ⟨table, isTable, kept⟩ := reached.exists_source? (Schema.mem_fields_of_field? isField)
  rw [← ofField] at isTable kept
  have joinsApart : sole.JoinsApart store := by
    refine ⟨fun join isJoin => aliases join isJoin ▸ free field isField,
      fun join isJoin => ?_, ?_⟩
    · rw [isForTerm.joins] at isJoin
      obtain ⟨other, isOther, sameTable⟩ := MemberGroup.exists_table_of_mem_joins isJoin
      obtain rfl := List.mem_singleton.1 isOther
      exact Store.exists_joins (sameTable ▸ kept)
    · have nodup := isForTerm.nodup
      rwa [← MemberGroup.map_aliasName_joins, ← isForTerm.joins, List.map_map] at nodup
  have plain : sole.statement.hasPlainComment = true := by
    rw [Statement.hasPlainComment_eq, Query.statement, commented]
    exact isPlainComment_commentFor_singleton unchecked comment
  obtain ⟨succeeds, shows⟩ := answers_of_isForTerm reached.nodup_ids isForTerm joinsApart
    (List.forall_mem_singleton.2 ⟨table, isTable, kept⟩) isSole plain
  refine ⟨succeeds.trans ((Store.forall_fits_iff isForTerm.stand asks).trans (by simp [lone])),
    fun rows ok => (shows rows ok).congr fun page isPage => ?_⟩
  rw [Store.selects_iff isForTerm.stand asks (Store.asksForRows_of_positive positive) isPage]
  simp [lone]

omit positive in
/-- The engine does not read a statement on a table that begins a value of its own. -/
theorem answers_name_of_unreadable (asks : term.asks = true)
    (unreadable : ∀ field, catalog.schema.field? (Member.splitName name).1 = some field →
      isQualifier field.table = false) (selected : Page → Prop) :
    finder.Answers catalog store [term] False selected := by
  obtain ⟨member, field, sole, isSole, commented, isForTerm, isField, ofField, aliases⟩ :=
    exists_sole_member unchecked attached lone compiled asks
  have named := reached.isTableName (Schema.mem_fields_of_field? isField)
  rw [isTableName, Bool.and_eq_true] at named
  have plain : sole.isPlain = true := by
    rw [Query.isPlain, Bool.and_eq_true, List.all_eq_true]
    refine ⟨?_, fun join isJoin => aliases join isJoin ▸ isWord_of_isBareName named.1⟩
    rw [Statement.hasPlainComment_eq, Query.statement, commented]
    exact isPlainComment_commentFor_singleton unchecked comment
  have failed (rows : List Row) :
      (finder.find catalog store.unboundedEngine [term] false).rows ≠ .ok rows := by
    intro found
    have readable :=
      ((answers_of_isPlain reached.nodup_ids plain isSole isForTerm.window).succeeds.1
        ⟨rows, found⟩).1
    rw [Query.isReadable, Bool.and_eq_true, List.all_eq_true] at readable
    obtain ⟨join, isJoin, -, -⟩ :=
      MemberGroup.exists_mem_joins (List.mem_singleton_self member)
    rw [← isForTerm.joins] at isJoin
    have qualified := readable.1 join isJoin
    rw [aliases join isJoin, unreadable field isField] at qualified
    cases qualified
  refine ⟨iff_of_false ?_ id, fun rows found => absurd found (failed rows)⟩
  rintro ⟨rows, found⟩
  exact failed rows found

end

end Finder

end PageTree
