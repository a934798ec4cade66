import PageTree.Proofs.Finder.Frames
import PageTree.Proofs.Finder.Union
import PageTree.Proofs.Selector.Writing
import PageTree.Proofs.Store.SortedRows

/-!
Finds that are sorted. Sort terms add tables that rows are looked up in, and orders before the order
by relevance. Main statement: a find with sort terms returns the rows of the find without them,
sorted once more, unless its statement is beyond the limits of the engine.
-/

namespace PageTree

open Sql Text

namespace Selector

theorem sortValues_withStatusBound (selector : Selector) (single : Bool) :
    (selector.withStatusBound single).sortValues = selector.sortValues := by
  have resolved (term : Term) (sorts : term.field = "sort") : term.resolveStatus = term := by
    refine if_neg fun status => ?_
    have native := Term.kind_of_isStatus status
    rw [Term.kind_eq_sort_iff.2 sorts] at native
    cases native
  have field (term : Term) : (term.resolveStatus).field = term.field := by
    unfold Term.resolveStatus
    split <;> rfl
  have bound (bounds : List Int) :
      (bounds.map fun bound => Term.single "status" .less (toString bound)).filter
        (fun term => term.field = "sort") = [] := by
    rw [List.filter_eq_nil_iff, List.forall_mem_map]
    exact fun _ _ sorts => absurd (of_decide_eq_true sorts) (by decide : "status" ≠ "sort")
  have kept : (selector.map Term.resolveStatus).filter (fun term => term.field = "sort") =
      selector.filter fun term => term.field = "sort" := by
    rw [List.filter_map]
    simp only [Function.comp_def, field]
    refine (List.map_congr_left fun term isTerm => ?_).trans (List.map_id _)
    exact resolved term (of_decide_eq_true (List.mem_filter.1 isTerm).2)
  rw [sortValues, sortValues, withStatusBound, List.filter_append, bound, kept, List.append_nil]

end Selector

namespace Finder

theorem sortValues_prepare (finder : Finder) (selector : Selector) :
    (finder.prepare selector false).sortValues = selector.sortValues := by
  simp only [prepare, Bool.false_eq_true, if_false]
  split
  · exact selector.sortValues_withStatusBound false
  · rfl

theorem kind_ne_window_of_mem_prepare {finder : Finder} {selector : Selector}
    (unlimited : ∀ term ∈ selector, term.kind ≠ .window) :
    ∀ term ∈ finder.prepare selector false, term.kind ≠ .window := by
  simp only [prepare, Bool.false_eq_true, if_false]
  split
  · rw [Selector.withStatusBound, List.forall_mem_append, List.forall_mem_map, List.forall_mem_map]
    refine ⟨fun term isTerm => ?_, fun _ _ => ?_⟩
    · rw [Term.kind_resolveStatus]
      exact unlimited term isTerm
    · change TermKind.native ≠ .window
      decide
  · exact unlimited

theorem isPlainComment_commentFor_withoutSort {finder : Finder} {selector : Selector}
    (plain : isPlainComment (finder.commentFor selector).toList = true) :
    isPlainComment (finder.commentFor selector.withoutSort).toList = true := by
  rw [isPlainComment_commentFor_iff] at plain ⊢
  rw [prepare_withoutSort]
  exact fun debug term member => plain debug term (List.mem_of_mem_filter member)

end Finder

/-! ### Queries of a selector and of its other terms -/

namespace Query

variable {query other : Query}

theorem Sorts.withComments {schema : Schema} {values : List SortValue}
    (sorts : query.Sorts other schema values) (comment otherComment : String) :
    Query.Sorts { query with comment } { other with comment := otherComment } schema values :=
  ⟨sorts.inner, sorts.left, sorts.conjuncts, sorts.scores, sorts.orders, sorts.unsorted,
    sorts.window, sorts.otherWindow⟩

theorem JoinsApart.withComment {store : Store} (joinsApart : query.JoinsApart store)
    (comment : String) : Query.JoinsApart store { query with comment } :=
  ⟨joinsApart.isAlias, joinsApart.joined, joinsApart.nodup⟩

end Query

section

variable {catalog : Catalog} {store : Store} (reached : Store.Reachable catalog.schema store)
  (valid : catalog.schema.Valid) (apart : catalog.schema.HasApartNames)
  (default : catalog.schema.HasDefaultTables) {selector : Selector}
  (plain : ∀ value ∈ selector.sortValues, value.IsPlain catalog.schema)

include reached valid apart default plain

theorem Selector.joinsApart_assemble_of_isPlain {parts : List Part}
    (compiled : Part.ofTerms catalog [] selector = .ok parts) :
    (selector.assemble catalog parts).JoinsApart store := by
  have keys := Selector.flatMap_sortKeys_of_isPlain plain
  refine joinsApart_assemble compiled reached apart default (fun join isJoin => ?_) ?_
  · rw [keys] at isJoin
    refine ⟨Schema.isFreeAlias_of_mem_sortJoins valid isJoin, ?_⟩
    obtain ⟨value, isValue, source, found, rfl⟩ := Schema.mem_sortJoins.1 isJoin
    rcases (plain value isValue).sortSource?_eq with
      ⟨none, -⟩ | ⟨parent, -⟩ | ⟨field, named, isField⟩
    · rw [none] at found
      cases found
    · obtain rfl := Option.some.inj (parent.symm.trans found)
      exact ⟨store.pageTable, rfl⟩
    · obtain rfl := Option.some.inj (named.symm.trans found)
      obtain ⟨table, -, kept⟩ := reached.exists_source? (Schema.mem_fields_of_field? isField)
      exact ⟨table.asTable, kept⟩
  · rw [keys]
    exact Schema.nodup_merge_sortJoins plain valid

variable {finder : Finder} (unlimited : ∀ term ∈ selector, term.kind ≠ .window)
  (comment : isPlainComment (finder.commentFor selector).toList = true)

include unlimited comment

/-- A find with sort terms on page columns, the parent and fields without references returns the
rows of the find without them, sorted once more, the last value first, or is beyond the limits of
the engine. -/
theorem Finder.find_sorted {rows : List Row}
    (found : (finder.find catalog store.engine selector.withoutSort false).rows = .ok rows) :
    ∃ query, finder.queryFor catalog selector false = .ok query ∧
      (finder.find catalog store.engine selector false).rows =
        if query.isWithinLimits then
          .ok (rows.mergeSort (store.rowInOrder catalog.schema selector.sortValues))
        else .error (.database .rejectedStatement) := by
  let prepared := finder.prepare selector false
  have values : prepared.sortValues = selector.sortValues := finder.sortValues_prepare selector
  have plainToo : ∀ value ∈ prepared.sortValues, value.IsPlain catalog.schema := values ▸ plain
  -- The terms without sort terms compile, and so do all.
  obtain ⟨other, result, asked, executed, rfl⟩ := exists_of_find_ok found
  rw [queryFor_eq_map_compile, prepare_withoutSort] at asked
  obtain ⟨assembled, compiled, rfl⟩ := map_eq_ok.1 asked
  obtain ⟨others, areOthers, rfl⟩ := map_eq_ok.1 compiled
  obtain ⟨parts, areParts⟩ : ∃ parts, Part.ofTerms catalog [] prepared = .ok parts := by
    have totals := Part.map_total_ofTerms_withoutSort catalog [] prepared
    rw [areOthers] at totals
    obtain ⟨parts, areParts, -⟩ := map_eq_ok.1 totals.symm
    exact ⟨parts, areParts⟩
  have sorts := (Selector.sorts_assemble plainToo (kind_ne_window_of_mem_prepare unlimited) areParts
    areOthers (Schema.hasApartTables apart default) default).withComments
      (finder.commentFor selector) (finder.commentFor selector.withoutSort)
  have joinsApart := (Selector.joinsApart_assemble_of_isPlain reached valid apart default plainToo
    areParts).withComment (finder.commentFor selector)
  have joinsApartToo := (Selector.joinsApart_assemble areOthers reached apart default
    (by simp [Selector.sortKeys_withoutSort])
    (by simp [Selector.sortKeys_withoutSort, Join.merge])).withComment
      (finder.commentFor selector.withoutSort)
  have queried : finder.queryFor catalog selector false =
      .ok { prepared.assemble catalog parts with comment := finder.commentFor selector } := by
    rw [queryFor_eq_map_compile, Selector.compile, areParts]
    rfl
  have isPlain := joinsApart.isPlain (by rwa [Statement.hasPlainComment_eq])
  have isPlainToo := joinsApartToo.isPlain (by
    rw [Statement.hasPlainComment_eq]
    exact isPlainComment_commentFor_withoutSort comment)
  obtain ⟨frame, runnable, rfl⟩ := Store.exists_runnablePlan?_of_execute isPlainToo executed
  refine ⟨_, queried, ?_⟩
  split
  · next small =>
    obtain ⟨plan, tables, runs, sortsBy⟩ :=
      Store.exists_runnablePlan?_of_sorts reached plainToo sorts joinsApart small runnable
    rw [(find_of_runnablePlan? isPlain runs queried).1,
      sortsBy.assemble_eq sorts (Store.boundPlan?_of_runnablePlan? runnable) plainToo
        reached.nodup_ids, values]
  · next large =>
    exact find_rows_of_error queried
      (Store.execute_of_isWithinLimits_eq_false (Bool.eq_false_iff.2 large))

end

/-- The query of a selector without terms. -/
def wholeQuery : Query :=
  { joins := [], conjuncts := [], scores := [], orders := [], window := none, comment := "" }

/-- Titles tell pages apart first, the last title first, and the names of parents only after
them. -/
theorem Finder.find_sorted_textsStore :
    ∃ selector rows, Selector.read "sort=parent|-title" = .ok selector ∧
      (anyStatus.find textsCatalog textsStore.engine selector.withoutSort false).rows = .ok rows ∧
      rows.map textsStore.pageOf? = textsStore.pages.map some ∧
      (anyStatus.find textsCatalog textsStore.engine selector false).rows = .ok rows.reverse := by
  let selector : Selector :=
    [{ fields := ["sort"], values := ["parent", "-title"], operator := .equal, negated := false
       text := "sort=parent|-title" }]
  have parsed : Selector.read "sort=parent|-title" = .ok selector := rfl
  have values : selector.sortValues = [⟨"parent", none, false⟩, ⟨"title", none, true⟩] := by decide
  have plain : ∀ value ∈ selector.sortValues, value.IsPlain textsSchema := by
    rw [values, List.forall_mem_cons, List.forall_mem_singleton]
    exact ⟨⟨rfl, .inl rfl⟩, rfl, .inr (.inr ⟨by decide, _, rfl, by decide⟩)⟩
  obtain ⟨plan, runnable⟩ : ∃ plan, textsStore.runnablePlan? wholeQuery = some plan := ⟨_, rfl⟩
  have found := (find_of_runnablePlan? (by decide) runnable
    (rfl : anyStatus.queryFor textsCatalog selector.withoutSort false = .ok wholeQuery)).1
  have pages : (plan.resultSet wholeQuery).assemble.map textsStore.pageOf? =
      textsStore.pages.map some := by
    obtain rfl := Option.some.inj runnable
    rw [Plan.assemble_eq_map_rowOf _ rfl, List.mergeSort_of_pairwise (by decide)]
    rfl
  obtain ⟨query, compiled, sorted⟩ := find_sorted Store.reachable_textsStore (by decide) (by decide)
    (by decide) plain (by decide) (by decide) found
  obtain rfl := Except.ok.inj ((rfl : anyStatus.queryFor textsCatalog selector false = _).symm.trans
    compiled)
  rw [if_pos (by decide)] at sorted
  refine ⟨selector, _, parsed, found, pages, sorted.trans ?_⟩
  -- Two rows, and the title of the second page comes after that of the first.
  obtain ⟨first, second, rows⟩ := List.length_eq_two.1
    ((List.length_map textsStore.pageOf?).symm.trans (congrArg List.length pages))
  rw [rows] at pages ⊢
  have isFirst : textsStore.pageOf? first = _ := (List.cons.inj pages).1
  have isSecond : textsStore.pageOf? second = _ := (List.cons.inj (List.cons.inj pages).2).1
  have apart : textsStore.rowInOrder textsCatalog.schema selector.sortValues first second =
      false := by
    rw [Store.rowInOrder, isFirst, isSecond, values]
    decide
  simp [List.mergeSort, apart]

/-- A sort term that gives the id over and over. -/
def idDraft (more : Nat) : Draft where
  negated := false
  fields := ["sort"]
  operator := .equal
  values := List.replicate (more + 1) ⟨"id", '"', rfl, by decide⟩
  fields_ne_nil := nofun
  isName := List.forall_mem_singleton.2 ⟨by decide, List.all_eq_true.1 (by decide)⟩
  values_ne_nil := nofun

def idsQuery (more : Nat) : Query :=
  Selector.assemble textsCatalog [(idDraft more).term] [Part.nothing]

section

variable (more : Nat)

theorem sortValues_idDraft :
    Selector.sortValues [(idDraft more).term] = List.replicate (more + 1) ⟨"id", none, false⟩ := by
  have read : SortValue.read? "id" = some ⟨"id", none, false⟩ := by decide
  change (((idDraft more).values.map QuotedValue.value) ++ []).filterMap SortValue.read? = _
  rw [List.append_nil, idDraft, List.map_replicate, List.filterMap_replicate_of_some read]

theorem isPlain_of_mem_sortValues_idDraft :
    ∀ value ∈ Selector.sortValues [(idDraft more).term], value.IsPlain textsSchema := by
  intro value isValue
  rw [sortValues_idDraft] at isValue
  obtain rfl := List.eq_of_mem_replicate isValue
  exact ⟨rfl, .inr (.inl (by decide))⟩

theorem length_orders_idsQuery : (idsQuery more).orders.length = more + 1 := by
  have keys := Selector.sortKeys_of_isPlain (isPlain_of_mem_sortValues_idDraft more)
  have orders : (idsQuery more).orders =
      ((Selector.sortKeys textsSchema [(idDraft more).term]).map Prod.fst).reverse ++ [] := rfl
  rw [orders, keys, sortValues_idDraft]
  simp

theorem rows_find_idDraft (many : 2000 ≤ more) :
    (Finder.anyStatus.find textsCatalog textsStore.engine [(idDraft more).term] false).rows =
      .error (.database .rejectedStatement) := by
  have compiled : Finder.anyStatus.queryFor textsCatalog [(idDraft more).term] false =
      .ok (idsQuery more) := rfl
  have large : (idsQuery more).isWithinLimits = false := by
    have above : ¬ more + 1 ≤ Query.columnLimit := Nat.not_le.2 (Nat.lt_succ_of_le many)
    rw [Query.isWithinLimits, length_orders_idsQuery, decide_eq_false above, Bool.and_false,
      Bool.false_and]
  exact Finder.find_rows_of_error compiled (Store.execute_of_isWithinLimits_eq_false large)

end

/-- Statements with more than two thousand orders are rejected. -/
theorem Finder.find_sorted_manyOrders :
    ∃ selector rows, Selector.read (idDraft 2000).text = .ok selector ∧
      Store.Reachable textsSchema textsStore ∧ textsSchema.Valid ∧ textsSchema.HasApartNames ∧
      textsSchema.HasDefaultTables ∧ (∀ term ∈ selector, term.kind = .sort) ∧
      (∀ value ∈ selector.sortValues, value.IsPlain textsSchema) ∧
      (anyStatus.find textsCatalog textsStore.engine selector.withoutSort false).rows = .ok rows ∧
      (anyStatus.find textsCatalog textsStore.engine selector false).rows =
        .error (.database .rejectedStatement) := by
  have parsed : Selector.read (idDraft 2000).text = .ok [(idDraft 2000).term] := by
    have whole := Selector.read_texts [idDraft 2000]
    rwa [List.map_singleton, String.intercalate_singleton] at whole
  have isSort : ∀ term ∈ [(idDraft 2000).term], term.kind = .sort :=
    List.forall_mem_singleton.2 (Term.kind_eq_sort_iff.2 rfl)
  obtain ⟨plan, runnable⟩ : ∃ plan, textsStore.runnablePlan? wholeQuery = some plan := ⟨_, rfl⟩
  have found := (find_of_runnablePlan? (by decide) runnable
    (rfl : anyStatus.queryFor textsCatalog [] false = .ok wholeQuery)).1
  exact ⟨_, _, parsed, Store.reachable_textsStore, by decide, by decide, by decide, isSort,
    isPlain_of_mem_sortValues_idDraft 2000, found, rows_find_idDraft 2000 le_rfl⟩

end PageTree
