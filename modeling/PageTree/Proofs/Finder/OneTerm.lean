import PageTree.Proofs.Finder.Frames

/-!
Finds with one term on attached fields, negated or not. Main statements: such a find succeeds just
when every table has the columns that the term reads, and then it returns the pages that the members
of the term select, each once.
-/

namespace PageTree

open Sql

/-! ### Queries without terms -/

def Query.forAll (comment : String) : Query :=
  { joins := [], conjuncts := [], scores := [], orders := [], window := none, comment }

namespace Store

variable (store : Store) (comment : String)

theorem joinsFields_forAll : (Query.forAll comment).JoinsFields store where
  isAlias := by simp [Query.forAll]
  joined := by simp [Query.forAll]
  nodup := List.nodup_nil

theorem exists_boundPlan?_forAll : ∃ plan, store.boundPlan? (Query.forAll comment) = some plan := by
  have joinsApart := (store.joinsFields_forAll comment).joinsApart
  obtain ⟨plan, planned⟩ := joinsApart.exists_isPlanned
  have own {name : String} (isColumn : Page.columns.any (fun other => sameName other.1 name) =
      true) : plan.resolves ⟨"pages", name⟩ = true :=
    joinsApart.resolves_of_base planned (planned.base ▸ store.provides_of_pageColumn isColumn)
  exact ⟨plan, boundPlan?_eq_some_iff_isPlanned.2 ⟨planned, List.forall_mem_cons.2
    ⟨own (by decide), List.forall_mem_singleton.2 (own (by decide))⟩⟩⟩

variable {store comment}

theorem pageRows_forAll_ne_nil {plan : Plan}
    (bound : store.boundPlan? (Query.forAll comment) = some plan) (page : Record) :
    plan.pageRows (Query.forAll comment) page ≠ [] := by
  have planned := (boundPlan?_eq_some_iff_isPlanned.1 bound).1
  have inner : plan.inner = [] := List.forall₂_nil_left_iff.1 planned.inner
  have left : plan.left = [] := List.forall₂_nil_left_iff.1 planned.left
  rw [Plan.pageRows, Plan.joinAll, inner, left]
  exact List.cons_ne_nil _ _

end Store

namespace Query.IsForTerm

variable {catalog : Catalog} {term : Term} {members : List Member} {query : Query}
  (isForTerm : query.IsForTerm catalog term members) {store : Store}

include isForTerm

section

variable (reached : Store.Reachable catalog.schema store)
  (apart : catalog.schema.HasApartNames) (default : catalog.schema.HasDefaultTables)

include reached apart default

theorem hasTableOf {member : Member} (isMember : member ∈ members) : store.HasTableOf member := by
  obtain ⟨name, -, stands⟩ := exists_of_mem_forall₂ isForTerm.stand isMember
  exact stands.exists_table reached apart default

theorem joinsFields : query.JoinsFields store where
  isAlias join isJoin := by
    have isAlias : join.aliasName ∈ members.map Member.aliasName := by
      rw [← MemberGroup.map_aliasName_joins, ← isForTerm.joins]
      exact List.mem_map_of_mem isJoin
    rw [isForTerm.aliases] at isAlias
    refine Store.isFieldAlias_of_mem_nextAliases reached apart default (fun table isTable => ?_)
      isAlias
    obtain ⟨member, isMember, rfl⟩ := List.mem_map.1 isTable
    obtain ⟨name, -, field, kind, branches, isFor⟩ :=
      exists_of_mem_forall₂ isForTerm.stand isMember
    exact ⟨field, Schema.mem_fields_of_field? isFor.isField, isFor.table⟩
  joined join isJoin := by
    rw [isForTerm.joins] at isJoin
    obtain ⟨member, isMember, sameTable⟩ := MemberGroup.exists_table_of_mem_joins isJoin
    obtain ⟨table, -, kept⟩ := isForTerm.hasTableOf reached apart default isMember
    exact Store.exists_joins (sameTable ▸ kept)
  nodup := by
    have nodup := isForTerm.nodup
    rwa [← MemberGroup.map_aliasName_joins, ← isForTerm.joins, List.map_map] at nodup

end

/-- A query for a term alone stands in the frame that all pages are in. -/
theorem isFramed (joinsApart : query.JoinsApart store)
    (tables : ∀ member ∈ members, store.HasTableOf member) :
    query.IsFramed store (Query.forAll "") [members] := by
  have whole : [members].flatten = members := List.flatten_singleton
  have other (member : Member) (isMember : member ∈ members) :
      sameName member.aliasName "pages" = false := by
    obtain ⟨join, isJoin, aliasName, -⟩ := MemberGroup.exists_mem_joins isMember
    rw [← isForTerm.joins] at isJoin
    exact decide_eq_false (aliasName ▸ (joinsApart.isAlias join isJoin).ne_pages)
  refine ⟨?_, isForTerm.conjuncts, by simp [forAll], rfl, rfl, joinsApart, ?_, ?_, ?_, ?_,
    isForTerm.orders⟩
  · rw [isForTerm.joins, List.flatMap_singleton]
    rfl
  · rwa [whole]
  · rw [whole]
    intro member isMember
    obtain ⟨name, -, stands⟩ := exists_of_mem_forall₂ isForTerm.stand isMember
    exact stands.forall_aliasName
  · rw [whole]
    intro column isColumn
    rcases List.mem_pair.1 isColumn with rfl | rfl
    · exact other
    · exact other
  · rw [whole]
    exact isForTerm.scored

end Query.IsForTerm

namespace Finder

variable {store : Store} {query : Query} {finder : Finder} {catalog : Catalog}

/-- What a find returns whose query asks for the members of a term. -/
theorem answers_of_isForTerm (nodup : (store.pages.map Page.id).Nodup) {term : Term}
    {members : List Member} (isForTerm : query.IsForTerm catalog term members)
    (joinsApart : query.JoinsApart store) (tables : ∀ member ∈ members, store.HasTableOf member)
    {selector : Selector} (compiled : finder.queryFor catalog selector false = .ok query)
    (comment : query.statement.hasPlainComment = true) :
    finder.Answers catalog store selector (∀ member ∈ members, store.Fits member)
      (store.Selects members) := by
  have framed := isForTerm.isFramed joinsApart tables
  obtain ⟨plan, bound⟩ := store.exists_boundPlan?_forAll ""
  refine (answers_of_isFramed nodup framed compiled comment isForTerm.window).congr ?_
    fun page _ => ?_
  · rw [List.flatten_singleton]
    exact and_iff_right ⟨plan, bound⟩
  · rw [List.forall_mem_singleton]
    exact and_iff_right ⟨plan, bound, Store.pageRows_forAll_ne_nil bound page.record⟩

variable (reached : Store.Reachable catalog.schema store)
  (unchecked : finder.checkStatus = false) {term : Term} (attached : term.kind = .attached)
  {found : List Member.Contribution}
  (contributed : Member.contributions catalog term [] term.fields = .ok found)
  (comment : finder.debug = true → isPlainComment term.text.toList = true)

include reached unchecked attached contributed comment

/-- A find with a term on attached fields succeeds when all columns are there, and returns the pages
that the members of the term select. -/
theorem find_term (apart : catalog.schema.HasApartNames)
    (default : catalog.schema.HasDefaultTables) (asks : term.asks = true)
    (named : term.fields ≠ []) :
    ∃ members, List.Forall₂ (Member.StandsByName catalog term) term.fields members ∧
      ((∃ rows, (finder.find catalog store.unboundedEngine [term] false).rows = .ok rows) ↔
        ∀ member ∈ members, store.Fits member) ∧
      ∀ rows, (finder.find catalog store.unboundedEngine [term] false).rows = .ok rows →
        store.Shows rows (store.Selects members) := by
  have compiled := queryFor_attached unchecked catalog attached
  rw [contributed] at compiled
  obtain ⟨members, isForTerm⟩ := Query.exists_isForTerm apart default asks named contributed
    term.text (finder.commentFor [term])
  have found := answers_of_isForTerm reached.nodup_ids isForTerm
    (isForTerm.joinsFields reached apart default).joinsApart
    (fun member isMember => isForTerm.hasTableOf reached apart default isMember) compiled
    (isPlainComment_commentFor_singleton unchecked comment)
  exact ⟨members, isForTerm.stand, found.succeeds, found.shows⟩

theorem find_unasking (silent : term.asks = false) :
    ∃ rows, (finder.find catalog store.unboundedEngine [term] false).rows = .ok rows ∧
      store.Shows rows fun _ => True := by
  obtain ⟨members, scores⟩ := Member.eq_nil_of_contributions silent contributed
  have compiled : finder.queryFor catalog [term] false =
      .ok (Query.forAll (finder.commentFor [term])) := by
    rw [queryFor_attached unchecked catalog attached, contributed]
    simp [Except.map, Query.ofContributions, Part.ofContributions, members, scores,
      MemberGroup.ofRuns, MemberGroup.conjuncts, Join.merge, Query.forAll]
  have joinsApart := (store.joinsFields_forAll (finder.commentFor [term])).joinsApart
  obtain ⟨plan, bound⟩ := store.exists_boundPlan?_forAll (finder.commentFor [term])
  have answers := answers_of_joinsApart reached.nodup_ids joinsApart compiled
    (isPlainComment_commentFor_singleton unchecked comment) rfl
  obtain ⟨rows, found⟩ := answers.succeeds.2 ⟨plan, bound⟩
  refine ⟨rows, found, (answers.shows rows found).congr fun page _ => ?_⟩
  exact iff_of_true ⟨plan, bound, Store.pageRows_forAll_ne_nil bound page.record⟩ trivial

end Finder

end PageTree
