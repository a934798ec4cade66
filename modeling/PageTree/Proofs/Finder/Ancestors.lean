import PageTree.Proofs.Finder.InnerJoins
import PageTree.Proofs.Query.Limits
import PageTree.Proofs.Store.Ancestry

/-!
Finds by the pages above. A term lists pages by number or by path, and the entries of a page's
parent say whether one of them is above the page. Main statement: a find for such a term returns the
pages below any listed page, each once, and the engine takes up to 498 listed pages.
-/

namespace PageTree

open Sql Text

/-- The page that a value stands for: its number in digits, or its path. -/
def Store.named? (store : Store) (value : String) : Option Int :=
  if isDigits value then Number.readInt64? value.toList else store.pageId? value

/-! ### The query -/

namespace Term

variable {store : Store} {schema : Schema} {now : Date.Moment} {pageNumber : Option Int}

theorem kind_of_field_eq_has_parent {term : Term} (field : term.field = "has_parent") :
    term.kind = .ancestors := by
  rw [kind, field]
  rfl

theorem ancestorId_eq_ok (value : String) :
    ancestorId (store.catalog schema now pageNumber) value =
      .ok ((store.named? value).getD 0) := by
  unfold ancestorId Store.named?
  split
  · rfl
  · rfl

/-- The numbers that a term asks for, zero where a value names no page. -/
def ancestorIds (store : Store) (term : Term) : List Int :=
  term.values.map fun value => (store.named? value).getD 0

theorem mapM_ancestorId (store : Store) (term : Term) :
    term.values.mapM (ancestorId (store.catalog schema now pageNumber)) =
      .ok (term.ancestorIds store) := by
  rw [mapM_eq_ok, ancestorIds, List.forall₂_map_right_iff, List.forall₂_same]
  exact fun value _ => ancestorId_eq_ok value

theorem forall_ancestorJoin {p : Test → Prop} {aliasName : String} {ids : List Int}
    (link : p (.compare ⟨aliasName, "pages_id"⟩ .equal (.column (Path.parentOf "pages"))))
    (each : ∀ name ∈ ["parents_id", "pages_id"], ∀ id,
      p (.compare ⟨aliasName, name⟩ .equal (.integer id))) :
    (ancestorJoin aliasName ids).on.Forall p := by
  simp only [List.forall_mem_cons] at each
  simp only [ancestorJoin, Condition.forall_conj, Condition.forall_disj, List.forall_mem_cons,
    List.forall_mem_map, Condition.forall_test]
  exact ⟨link, fun id _ => ⟨each.1 id, each.2.1 id, by simp⟩, by simp⟩

end Term

/-- The query of a term on the pages above, for the numbers of those pages. -/
def ancestorsQuery (ids : List Int) (comment : String) : Query :=
  { joins := [Term.ancestorJoin "pages_parents" ids], conjuncts := [], scores := [], orders := []
    window := none, comment }

namespace Store

variable (store : Store)

theorem source?_ancestry : store.source? "pages_parents" = some store.ancestryTable := by
  rw [source?, if_neg (by decide), if_pos (sameName_refl _)]

theorem ancestryColumns : ∀ name ∈ ["parents_id", "pages_id"],
    store.ancestryTable.hasColumn name = true ∧
      store.ancestryTable.affinity? name = some .integer :=
  let bare : Table := { columns := Ancestry.columns, records := [] }
  (by decide : ∀ name ∈ ["parents_id", "pages_id"],
    bare.hasColumn name = true ∧ bare.affinity? name = some .integer)

section

variable (entry : Ancestry) (index : Nat)

theorem cell_entryPage :
    store.ancestryTable.cell (entry.record index) "pages_id" = .integer entry.page :=
  Table.cell_eq (by decide : Ancestry.columns.findIdx? _ = some 0) rfl

theorem cell_entryAncestor :
    store.ancestryTable.cell (entry.record index) "parents_id" = .integer entry.ancestor :=
  Table.cell_eq (by decide : Ancestry.columns.findIdx? _ = some 1) rfl

end

variable (ids : List Int) (comment : String)

theorem filtersBy_ancestorsQuery :
    (ancestorsQuery ids comment).FiltersBy store store.ancestryTable where
  kind := List.forall_mem_singleton.2 rfl
  source := List.forall_mem_singleton.2 store.source?_ancestry
  apart := (by decide : (["pages", "pages_parents"].map foldName).Nodup)
  qualifier := List.forall_mem_singleton.2 (by decide : isQualifier "pages_parents" = true)
  begins := List.forall_mem_singleton.2 (by decide : beginsQuery "pages_parents" = false)
  joins := by
    have own : ∀ name ∈ ["parents_id", "pages_id"],
        (ancestorsQuery ids comment).Names store.ancestryTable ⟨"pages_parents", name⟩ :=
      fun name isName =>
        .inr ⟨_, List.mem_singleton_self _, rfl, (store.ancestryColumns _ isName).1⟩
    have parent : (ancestorsQuery ids comment).Names store.ancestryTable (Path.parentOf "pages") :=
      .inl ⟨rfl, by decide⟩
    refine List.forall_mem_singleton.2 (Term.forall_ancestorJoin ?_ fun name isName id => ?_)
    · exact List.forall_mem_cons.2 ⟨own _ (by simp), List.forall_mem_singleton.2 parent⟩
    · exact List.forall_mem_singleton.2 (own name isName)
  filters := by simp [ancestorsQuery]
  scores := rfl
  orders := rfl
  window := rfl

/-- What the query reads. -/
abbrev ancestorsPlan : Plan :=
  store.innerPlan store.ancestryTable (ancestorsQuery ids comment)

section

variable (page : Page) {assignment : String → Record} {entry : Ancestry} {index : Nat}
  (assigned : assignment "pages_parents" = entry.record index)

include assigned

theorem holds_entryTest {name : String} (isName : name ∈ ["parents_id", "pages_id"])
    (right : Operand) {m n : Int}
    (isLeft : store.ancestryTable.cell (entry.record index) name = .integer m)
    (isRight : right.value ((store.ancestorsPlan ids comment).assigned page.record assignment)
      = .integer n) :
    (store.ancestorsPlan ids comment).holds
        ((store.ancestorsPlan ids comment).assigned page.record assignment)
        (.test (.compare ⟨"pages_parents", name⟩ .equal right)) = decide (m = n) := by
  have filters := store.filtersBy_ancestorsQuery ids comment
  have joined : Term.ancestorJoin "pages_parents" ids ∈ (ancestorsQuery ids comment).joins :=
    List.mem_singleton_self _
  obtain ⟨isColumn, affinity⟩ := store.ancestryColumns name isName
  have own : (store.ancestorsPlan ids comment).affinity ⟨"pages_parents", name⟩ = .integer := by
    have converted := filters.affinity_join joined isColumn
    rwa [affinity] at converted
  have value := filters.assigned_join page assignment joined isColumn
  exact Plan.holds_equal_integer own
    (value.trans ((congrArg (store.ancestryTable.cell · name) assigned).trans isLeft)) isRight

/-- The entries that are joined to a page: those of its parent, for a listed page. -/
theorem holds_ancestorJoin :
    (store.ancestorsPlan ids comment).holds
        ((store.ancestorsPlan ids comment).assigned page.record assignment)
        (Term.ancestorJoin "pages_parents" ids).on = true ↔
      entry.page = page.parent ∧ ∃ id ∈ ids, entry.ancestor = id ∨ entry.page = id := by
  have parent : (store.ancestorsPlan ids comment).assigned page.record assignment
      (Path.parentOf "pages") = .integer page.parent :=
    ((store.filtersBy_ancestorsQuery ids comment).assigned_page page assignment (by decide)).trans
      (store.cell_parent page)
  have ofPage := store.cell_entryPage entry index
  have ofAncestor := store.cell_entryAncestor entry index
  have link := store.holds_entryTest ids comment page assigned (by simp)
    (.column (Path.parentOf "pages")) ofPage parent
  have itself (id : Int) := store.holds_entryTest ids comment page assigned (by simp)
    (.integer id) ofPage rfl
  have above (id : Int) := store.holds_entryTest ids comment page assigned (by simp)
    (.integer id) ofAncestor rfl
  simp only [Term.ancestorJoin, Plan.holds_conj, Plan.holds_disj, List.all_cons, List.all_nil,
    List.any_map, List.any_cons, List.any_nil, Function.comp_def, Bool.and_true, Bool.or_false,
    link, itself, above, Bool.and_eq_true, decide_eq_true_eq, List.any_eq_true, Bool.or_eq_true]

end

/-- A page is selected by the entries of its parent. -/
theorem pageRows_ancestorsQuery_ne_nil_iff_entry (page : Page) :
    (store.ancestorsPlan ids comment).pageRows (ancestorsQuery ids comment) page.record ≠ [] ↔
      ∃ id ∈ ids, ∃ entry ∈ store.ancestry,
        entry.page = page.parent ∧ (entry.ancestor = id ∨ entry.page = id) := by
  rw [(store.filtersBy_ancestorsQuery ids comment).pageRows_ne_nil_iff]
  constructor
  · rintro ⟨assignment, inside, holds, -⟩
    obtain ⟨index, isIndex, assigned⟩ := List.mem_mapIdx.1 (inside _ (List.mem_singleton_self _))
    obtain ⟨parent, id, isId, found⟩ := (store.holds_ancestorJoin ids comment page assigned.symm).1
      (holds _ (List.mem_singleton_self _))
    exact ⟨id, isId, _, List.getElem_mem isIndex, parent, found⟩
  · rintro ⟨id, isId, entry, isEntry, parent, found⟩
    obtain ⟨index, isIndex, rfl⟩ := List.getElem_of_mem isEntry
    refine ⟨fun _ => (store.ancestry[index]).record index, ?_, ?_, by simp [ancestorsQuery]⟩
    · exact List.forall_mem_singleton.2 (List.mem_mapIdx.2 ⟨index, isIndex, rfl⟩)
    · exact List.forall_mem_singleton.2 ((store.holds_ancestorJoin ids comment page rfl).2
        ⟨parent, id, isId, found⟩)

/-- A page is selected just when it is below a listed page. -/
theorem pageRows_ancestorsQuery_ne_nil_iff {isName : String → Prop} (tree : store.IsTree isName)
    (lists : store.ListsAncestors) {page : Page} (isPage : page ∈ store.pages) :
    (store.ancestorsPlan ids comment).pageRows (ancestorsQuery ids comment) page.record ≠ [] ↔
      ∃ id ∈ ids, store.IsBelow page.id id := by
  rw [pageRows_ancestorsQuery_ne_nil_iff_entry]
  simp only [lists.exists_entry_iff tree isPage]

end Store

/-! ### Limits -/

namespace Term

/-- The tests whether a page or one above it is `id`. -/
def ancestorTests (aliasName : String) (id : Int) : List Filter :=
  [.test (.compare ⟨aliasName, "parents_id"⟩ .equal (.integer id)),
    .test (.compare ⟨aliasName, "pages_id"⟩ .equal (.integer id))]

theorem on_ancestorJoin (aliasName : String) (ids : List Int) :
    (ancestorJoin aliasName ids).on =
      .all [.test (.compare ⟨aliasName, "pages_id"⟩ .equal (.column (Path.parentOf "pages"))),
        .any (ids.flatMap (ancestorTests aliasName))] := by
  have flat : (ids.map fun id => Condition.disj (ancestorTests aliasName id)).flatMap
      Condition.disjuncts = ids.flatMap (ancestorTests aliasName) := by
    rw [List.flatMap_map]
    rfl
  have merged : Condition.disj (ids.map fun id => Condition.disj (ancestorTests aliasName id)) =
      .any (ids.flatMap (ancestorTests aliasName)) := by
    rw [Condition.disj, flat]
    cases ids <;> rfl
  change Condition.conj [.test _, Condition.disj (ids.map fun id =>
    Condition.disj (ancestorTests aliasName id))] = _
  rw [merged]
  rfl

theorem length_flatMap_ancestorTests (aliasName : String) (ids : List Int) :
    (ids.flatMap (ancestorTests aliasName)).length = 2 * ids.length := by
  rw [List.length_flatMap]
  simp [ancestorTests, Nat.mul_comm]

theorem depth_ancestorJoin (aliasName : String) (ids : List Int) :
    (ancestorJoin aliasName ids).on.depth Test.depth = max 4 (2 * ids.length + 3) := by
  let tests := ids.flatMap (ancestorTests aliasName)
  have three : ∀ depth ∈ tests.map (Condition.depth Test.depth), depth = 3 := by
    rw [List.forall_mem_map, List.forall_mem_flatMap]
    intro id _
    simp [ancestorTests, Condition.depth, Test.depth]
  have chain : max 3 (Condition.chainDepth (tests.map (Condition.depth Test.depth))) + 1 =
      max 4 (2 * ids.length + 3) := by
    cases ids with
    | nil => rfl
    | cons id ids =>
        have sum := Condition.chainDepth_eq three (by simp [tests, ancestorTests])
        rw [List.length_map, length_flatMap_ancestorTests, List.length_cons] at sum
        rw [List.length_cons]
        omega
  rw [on_ancestorJoin, ← chain, ← Condition.depthEach_eq_map]
  rfl

end Term

section

variable (ids : List Int) (comment : String)

theorem isWithinLimits_ancestorsQuery :
    (ancestorsQuery ids comment).isWithinLimits = decide (ids.length ≤ 498) := by
  have depths : (ancestorsQuery ids comment).conditionDepths = [max 4 (2 * ids.length + 3)] := by
    rw [← Term.depth_ancestorJoin "pages_parents" ids]
    rfl
  have fits : max 4 (2 * ids.length + 3) ≤ Query.depthLimit ↔ ids.length ≤ 498 := by
    rw [Query.depthLimit]
    omega
  rw [Query.isWithinLimits, depths, Condition.chainDepth, List.foldl_nil, decide_eq_decide.2 fits]
  rfl

theorem hasLongPattern_ancestorsQuery : (ancestorsQuery ids comment).hasLongPattern = false := by
  have short : (Term.ancestorJoin "pages_parents" ids).on.Forall fun test : Test =>
      test.isTooLong = false := Term.forall_ancestorJoin rfl fun _ _ _ => rfl
  simpa [Query.hasLongPattern, ancestorsQuery, Condition.Forall] using short

end

/-! ### Finds -/

theorem Finder.queryFor_ancestorsQuery {finder : Finder} (unchecked : finder.checkStatus = false)
    {term : Term} (kind : term.kind = .ancestors) {catalog : Catalog} {ids : List Int}
    (named : term.values.mapM (Term.ancestorId catalog) = .ok ids) :
    finder.queryFor catalog [term] false =
      .ok (ancestorsQuery ids (finder.commentFor [term])) := by
  have compiled : Part.ofTerm catalog [] term = .ok
      { Part.nothing with
        used := ["pages_parents"], joins := [Term.ancestorJoin "pages_parents" ids] } := by
    rw [Part.ofTerm, kind]
    dsimp only
    rw [named]
    rfl
  exact queryFor_singleton unchecked (by simp [kind]) (by simp [kind]) compiled rfl rfl

section

variable {store : Store} {schema : Schema} {now : Date.Moment} {pageNumber : Option Int}
  {finder : Finder} (unchecked : finder.checkStatus = false) {term : Term}
  (field : term.field = "has_parent")

include unchecked field

theorem Finder.queryFor_ancestors :
    finder.queryFor (store.catalog schema now pageNumber) [term] false =
      .ok (ancestorsQuery (term.ancestorIds store) (finder.commentFor [term])) :=
  queryFor_ancestorsQuery unchecked (Term.kind_of_field_eq_has_parent field)
    (Term.mapM_ancestorId store term)

theorem Finder.find_ancestors_of_lt (large : 498 < term.values.length) :
    (finder.find (store.catalog schema now pageNumber) store.engine [term] false).rows =
      .error (.database .rejectedStatement) := by
  refine find_rows_of_error (queryFor_ancestors unchecked field)
    (Store.execute_of_isWithinLimits_eq_false ?_)
  rw [isWithinLimits_ancestorsQuery, Term.ancestorIds, List.length_map]
  exact decide_eq_false (Nat.not_le_of_lt large)

end

/-- Entries without a page stand for nothing, and zero is no page. -/
theorem Term.exists_ancestorId_iff {isName : String → Prop} {store : Store}
    (tree : store.IsTree isName) (term : Term) {id : Int} :
    (∃ top ∈ term.ancestorIds store, store.IsBelow id top) ↔
      ∃ value ∈ term.values, ∃ top, store.named? value = some top ∧ store.IsBelow id top := by
  have notZero : ¬store.IsBelow id 0 := fun below => by
    have isPage := Store.hasPage_of_isBelow below
    rw [Store.hasPage_iff_of_isNumbered tree.numbered] at isPage
    omega
  simp only [ancestorIds, List.mem_map, exists_exists_and_eq_and]
  refine exists_congr fun value => and_congr_right fun _ => ?_
  cases store.named? value with
  | none => simpa using notZero
  | some top => simp

/-- In a store that grew, the entries of ancestry are one of the root with itself and one for every
page and every page above it. So a find for pages below others returns exactly those, each once. -/
theorem Store.Grown.find_below {schema : Schema} {store : Store}
    (grown : Grown schema (fun _ => True) store) :
    (store.ancestry.Nodup ∧ ∀ page ancestor, ⟨page, ancestor⟩ ∈ store.ancestry ↔
      page = rootId ∧ ancestor = rootId ∨ page ≠ rootId ∧ store.IsBelow page ancestor) ∧
    ∀ (finder : Finder) (term : Term) (now : Date.Moment) (pageNumber : Option Int),
      finder.checkStatus = false → term.field = "has_parent" →
      (finder.debug = true → isPlainComment term.text.toList = true) →
      ∃ rows, (finder.find (store.catalog schema now pageNumber) store.unboundedEngine [term]
          false).rows = .ok rows ∧
        (∃ ids : List Int, (rows.map fun row => Dictionary.find? row "id").Perm
            (ids.map fun id => some (.integer id)) ∧ ids.Nodup ∧
          ∀ id, id ∈ ids ↔ ∃ value ∈ term.values, ∃ top,
            store.named? value = some top ∧ store.IsBelow id top) ∧
        (term.values.length ≤ 498 →
          (finder.find (store.catalog schema now pageNumber) store.engine [term] false).rows =
            .ok rows) := by
  have tree := grown.isTree fun _ _ => trivial
  have lists := grown.listsAncestors fun _ _ => trivial
  refine ⟨⟨lists.nodup, fun page ancestor => ?_⟩, ?_⟩
  · rw [lists.mem_iff, Ancestry.mk.injEq]
    refine or_congr_right ⟨fun below => ⟨?_, below⟩, And.right⟩
    rintro rfl
    exact tree.not_isBelow_root below
  · intro finder term now pageNumber unchecked field comment
    obtain ⟨rows, found, ⟨ids, same, nodup, mem⟩, bounded⟩ :=
      Finder.find_ids (nodup_of_isNumbered tree.numbered)
        (store.filtersBy_ancestorsQuery (term.ancestorIds store) (finder.commentFor [term]))
        (Finder.queryFor_ancestors unchecked field)
        (Finder.isPlainComment_commentFor_singleton unchecked comment)
    refine ⟨rows, found, ⟨ids, same, nodup, fun id => ?_⟩, fun small => bounded ?_ ?_⟩
    · rw [mem, ← term.exists_ancestorId_iff tree]
      constructor
      · rintro ⟨page, isPage, rfl, rows⟩
        exact (pageRows_ancestorsQuery_ne_nil_iff _ _ _ tree lists isPage).1 rows
      · rintro ⟨top, isTop, below⟩
        obtain ⟨page, isPage, rfl⟩ := exists_page_of_hasPage (hasPage_of_isBelow_left below)
        exact ⟨page, isPage, rfl,
          (pageRows_ancestorsQuery_ne_nil_iff _ _ _ tree lists isPage).2 ⟨top, isTop, below⟩⟩
    · rw [isWithinLimits_ancestorsQuery, Term.ancestorIds, List.length_map]
      exact decide_eq_true small
    · exact hasLongPattern_ancestorsQuery ..

theorem Store.Grown.find_below_teamStore :
    ∃ selector rows, Selector.read "has_parent=/about/|7" = .ok selector ∧
      ({ Finder.new with checkStatus := false }.find
        (teamStore.catalog titleSchema ⟨0, false⟩ none) teamStore.engine selector false).rows =
          .ok rows ∧
      (rows.map fun row => Dictionary.find? row "id").Perm [some (.integer 3)] := by
  let term : Term :=
    { fields := ["has_parent"], values := ["/about/", "7"], operator := .equal, negated := false
      text := "has_parent=/about/|7" }
  have grown := grown_teamStore.mono fun _ _ => trivial
  obtain ⟨-, finds⟩ := find_below grown
  obtain ⟨rows, -, ⟨ids, same, nodup, mem⟩, bounded⟩ :=
    finds { Finder.new with checkStatus := false } term ⟨0, false⟩ none rfl rfl
      fun debug => absurd debug Bool.false_ne_true
  have about : teamStore.named? "/about/" = some 2 := rfl
  have seven : teamStore.named? "7" = some 7 := rfl
  have listed : teamStore.ancestry = [⟨1, 1⟩, ⟨2, 1⟩, ⟨3, 2⟩, ⟨3, 1⟩] := rfl
  have below {id top : Int} (other : top ≠ 1) :
      teamStore.IsBelow id top ↔ ⟨id, top⟩ ∈ teamStore.ancestry := by
    rw [(grown.listsAncestors fun _ _ => trivial).mem_iff]
    simp [other, rootId]
  have only : ids.Perm [3] := by
    refine (List.perm_ext_iff_of_nodup nodup (List.nodup_singleton 3)).2 fun id => ?_
    rw [mem]
    simp [term, about, seven, below, listed]
  exact ⟨[term], rows, rfl, bounded (by decide), same.trans (only.map _)⟩

/-- The engine does not take a condition that lists more pages, even where it would hold. -/
theorem Finder.find_below_tooMany :
    ∃ term : Term, Store.Grown titleSchema (fun _ => True) teamStore ∧
      term.field = "has_parent" ∧ term.values = List.replicate 600 "1" ∧
      teamStore.named? "1" = some rootId ∧ teamStore.IsBelow 2 rootId ∧
      ({ Finder.new with checkStatus := false }.find
        (teamStore.catalog titleSchema ⟨0, false⟩ none) teamStore.engine [term] false).rows =
          .error (.database .rejectedStatement) := by
  let term : Term :=
    { fields := ["has_parent"], values := List.replicate 600 "1", operator := .equal
      negated := false, text := "has_parent=" ++ "|".intercalate (List.replicate 600 "1") }
  have child : teamStore.IsChildOf 2 rootId :=
    ⟨⟨"about", List.mem_cons_of_mem _ (List.mem_cons_self ..)⟩, List.mem_cons_self ..⟩
  refine ⟨term, Store.grown_teamStore.mono fun _ _ => trivial, rfl, rfl, rfl, .single child,
    find_ancestors_of_lt rfl rfl ?_⟩
  rw [List.length_replicate]
  decide

end PageTree
