import PageTree.Proofs.Compile.Path
import PageTree.Proofs.Finder.InnerJoins
import PageTree.Proofs.Query.Limits
import PageTree.Proofs.Sql.Patterns
import PageTree.Proofs.Store.Tree

/-!
Finds by path. Every page above the last name is joined once, with its name and with the page above
it, up to the root. Main statement: a find for a path returns the page that the path is looked up
as, and nothing when there is none, in whatever way pages name their parents.
-/

namespace PageTree

open Sql Text

/-! ### Joined pages -/

/-- The alias stands for the page: its columns are read like those of the page. -/
def Plan.ReadsPage (plan : Plan) (binding : Binding) (aliasName : String) (page : Page) : Prop :=
  ∀ name ∈ ["id", "parent_id", "name"],
    plan.affinity ⟨aliasName, name⟩ = (Page.emptyTable.affinity? name).getD .text ∧
      binding ⟨aliasName, name⟩ = Page.emptyTable.cell page.record name

namespace Plan.ReadsPage

variable {plan : Plan} {binding : Binding} {aliasName other : String} {page above : Page}
  (reads : plan.ReadsPage binding aliasName page)

include reads

theorem id : plan.affinity ⟨aliasName, "id"⟩ = .integer ∧
    binding ⟨aliasName, "id"⟩ = .integer page.id := by
  obtain ⟨affinity, value⟩ := reads "id" (by simp)
  exact ⟨affinity.trans (by decide),
    value.trans (Table.cell_eq (by decide : Page.columns.findIdx? _ = some 0) rfl)⟩

theorem parent : plan.affinity ⟨aliasName, "parent_id"⟩ = .integer ∧
    binding ⟨aliasName, "parent_id"⟩ = .integer page.parent := by
  obtain ⟨affinity, value⟩ := reads "parent_id" (by simp)
  exact ⟨affinity.trans (by decide),
    value.trans (Table.cell_eq (by decide : Page.columns.findIdx? _ = some 1) rfl)⟩

theorem name : plan.affinity ⟨aliasName, "name"⟩ = .text ∧
    binding ⟨aliasName, "name"⟩ = .text page.name := by
  obtain ⟨affinity, value⟩ := reads "name" (by simp)
  exact ⟨affinity.trans (by decide),
    value.trans (Table.cell_eq (by decide : Page.columns.findIdx? _ = some 3) rfl)⟩

theorem holds_isRoot :
    plan.holds binding (.test (.compare ⟨aliasName, "id"⟩ .equal (.integer rootId))) =
      decide (page.id = rootId) :=
  holds_equal_integer reads.id.1 reads.id.2 rfl

theorem holds_isNamed {name : String} (free : '\x00' ∉ name.toList) :
    plan.holds binding (.test (.compare (Path.nameOf aliasName) .equal (.ofText name))) =
      decide (page.name = name) := by
  calc plan.holds binding (.test (.compare (Path.nameOf aliasName) .equal (.ofText name)))
      = decide (page.name = dropNulls name) := holds_equal_text reads.name.1 reads.name.2
    _ = decide (page.name = name) := by rw [dropNulls_eq_self free]

theorem holds_isBelow (joined : plan.ReadsPage binding other above) :
    plan.holds binding (.test (.compare (Path.parentOf aliasName) .equal (.column ⟨other, "id"⟩))) =
      decide (page.parent = above.id) :=
  holds_equal_integer reads.parent.1 reads.parent.2 joined.id.2

theorem holds_rootJoin (root : plan.ReadsPage binding "rootparent" above) :
    plan.holds binding (Path.rootJoin aliasName).on = true ↔
      page.parent = above.id ∧ above.id = rootId := by
  simp [Path.rootJoin, holds_conj, reads.holds_isBelow root, root.holds_isRoot]

theorem holds_parentJoin {name : String} (free : '\x00' ∉ name.toList)
    (joined : plan.ReadsPage binding other above) :
    plan.holds binding (Path.parentJoin aliasName other name).on = true ↔
      page.parent = above.id ∧ above.name = name := by
  simp [Path.parentJoin, holds_conj, reads.holds_isBelow joined, joined.holds_isNamed free]

end Plan.ReadsPage

/-! ### Chains of pages -/

namespace Path

/-- The pages stand above `page`, each at its depth, and have these names from the deepest on. -/
def Climbs (pages : Nat → Page) : Page → List String → Prop
  | page, [] => page.parent = (pages 0).id ∧ (pages 0).id = rootId
  | page, name :: above =>
    (page.parent = (pages (above.length + 1)).id ∧ (pages (above.length + 1)).name = name) ∧
      Climbs pages (pages (above.length + 1)) above

variable {pages others : Nat → Page} {page : Page} {above : List String}

theorem Climbs.congr (climbs : Climbs pages page above)
    (same : ∀ n ≤ above.length, pages n = others n) : Climbs others page above := by
  induction above generalizing page with
  | nil => rwa [Climbs, ← same 0 (Nat.zero_le _)]
  | cons name above induction =>
      rw [List.length_cons] at same
      rw [Climbs, ← same _ (Nat.le_refl _)]
      exact ⟨climbs.1, induction climbs.2 fun n inside => same n (Nat.le_succ_of_le inside)⟩

variable {store : Store}

theorem Climbs.leads (climbs : Climbs pages page above)
    (inside : ∀ n ≤ above.length, pages n ∈ store.pages) :
    store.Leads above.reverse page.parent := by
  induction above generalizing page with
  | nil =>
      rw [climbs.1, climbs.2]
      exact .root
  | cons name above induction =>
      rw [List.length_cons] at inside
      obtain ⟨⟨parent, rfl⟩, rest⟩ := climbs
      rw [List.reverse_cons, parent]
      exact .child (induction rest fun n bound => inside n (Nat.le_succ_of_le bound))
        (List.mem_map_of_mem (inside _ (Nat.le_refl _)))

theorem exists_climbs (rooted : store.HasPage rootId)
    (leads : store.Leads above.reverse page.parent) :
    ∃ pages, (∀ n ≤ above.length, pages n ∈ store.pages) ∧ Climbs pages page above := by
  induction above generalizing page with
  | nil =>
      obtain ⟨root, isPage, isRoot⟩ := Store.exists_page_of_hasPage rooted
      exact ⟨fun _ => root, fun _ _ => isPage, (Store.leads_nil_iff.1 leads).trans isRoot.symm,
        isRoot⟩
  | cons name above induction =>
      rw [List.reverse_cons, Store.leads_concat_iff] at leads
      obtain ⟨parent, leads, isPlace⟩ := leads
      obtain ⟨next, isPage, stands⟩ := List.mem_map.1 isPlace
      obtain ⟨same, rfl, rfl⟩ := Store.Place.mk.inj stands
      obtain ⟨pages, inside, climbs⟩ := induction leads
      have others : ∀ n ≤ above.length,
          pages n = Function.update pages (above.length + 1) next n := fun n bound =>
        (Function.update_of_ne (by omega) ..).symm
      refine ⟨Function.update pages (above.length + 1) next, fun n bound => ?_, ?_⟩
      · rw [List.length_cons] at bound
        rcases Nat.lt_or_eq_of_le bound with before | rfl
        · rw [← others n (by omega)]
          exact inside n (by omega)
        · rw [Function.update_self]
          exact isPage
      · rw [Climbs, Function.update_self]
        exact ⟨⟨same.symm, rfl⟩, climbs.congr others⟩

/-- The joins above a page hold where the joined pages stand above it. -/
theorem holds_joinsAbove_iff {plan : Plan} {binding : Binding} {below : String}
    (named : ∀ name ∈ above, name ≠ "" ∧ '\x00' ∉ name.toList)
    (reads : plan.ReadsPage binding below page)
    (joined : ∀ n ≤ above.length, plan.ReadsPage binding (aliasAt n) (pages n)) :
    (∀ join ∈ joinsAbove below (above ++ [""]), plan.holds binding join.on = true) ↔
      Climbs pages page above := by
  induction above generalizing below page with
  | nil =>
      rw [List.nil_append, joinsAbove_root, List.forall_mem_singleton,
        reads.holds_rootJoin (joined 0 (Nat.zero_le _))]
      rfl
  | cons name above induction =>
      rw [List.forall_mem_cons] at named
      rw [List.length_cons] at joined
      have next := joined _ (Nat.le_refl _)
      rw [List.cons_append, joinsAbove_cons named.1.1, List.forall_mem_cons,
        reads.holds_parentJoin named.1.2 next,
        induction named.2 next fun n bound => joined n (Nat.le_succ_of_le bound)]
      rfl

end Path

/-! ### The query -/

/-- The query for the page below a chain of names, which are given from the deepest upwards. -/
def chainQuery (above : List String) (last comment : String) : Query :=
  { joins := Path.joinsAbove "pages" (above ++ [""])
    conjuncts := [.plain (.compare (Path.nameOf "pages") .equal (.ofText last))]
    scores := [], orders := [], window := none, comment }

namespace Store

variable (store : Store)

theorem source?_pages : store.source? "pages" = some store.pageTable := by
  rw [source?, if_pos (sameName_refl _)]

theorem pageColumns : ∀ name ∈ ["id", "parent_id", "name"],
    Page.columns.any (fun other => sameName other.1 name) = true := by decide

theorem hasColumn_pageTable {name : String} (isName : name ∈ ["id", "parent_id", "name"]) :
    store.pageTable.hasColumn name = true := by
  rw [Table.hasColumn, Bool.or_eq_true]
  exact .inl (pageColumns name isName)

end Store

section

variable {store : Store} {query : Query} (filters : query.FiltersBy store store.pageTable)
  (page : Page) (assignment : String → Record)

include filters

theorem Query.FiltersBy.readsPage_page :
    (store.innerPlan store.pageTable query).ReadsPage
      ((store.innerPlan store.pageTable query).assigned page.record assignment) "pages" page :=
  fun name isName => ⟨Store.affinity_innerPlan (Store.pageColumns name isName),
    filters.assigned_page page assignment (Store.pageColumns name isName)⟩

theorem Query.FiltersBy.readsPage_join {join : Join} (isJoin : join ∈ query.joins) {other : Page}
    (assigned : assignment join.aliasName = other.record) :
    (store.innerPlan store.pageTable query).ReadsPage
      ((store.innerPlan store.pageTable query).assigned page.record assignment)
        join.aliasName other := by
  intro name isName
  have isColumn := store.hasColumn_pageTable isName
  refine ⟨filters.affinity_join isJoin isColumn, ?_⟩
  rw [filters.assigned_join page assignment isJoin isColumn, assigned]
  rfl

end

section

variable (store : Store) {above : List String} (last comment : String)

theorem Store.filtersBy_chainQuery (named : ∀ name ∈ above, name ≠ "") :
    (chainQuery above last comment).FiltersBy store store.pageTable := by
  -- What a join may be below: the page itself, or a page that is joined.
  let isAlias (aliasName : String) : Prop :=
    aliasName = "pages" ∨ ∃ n ≤ above.length, aliasName = Path.aliasAt n
  have each {p : Join → Prop} (root : ∀ below, isAlias below → p (Path.rootJoin below))
      (parent : ∀ below n name, isAlias below → n < above.length →
        p (Path.parentJoin below (Path.aliasAt (n + 1)) name)) :
      ∀ join ∈ (chainQuery above last comment).joins, p join :=
    Path.forall_joinsAbove named (.inl rfl) (fun n inside => .inr ⟨n, inside, rfl⟩) root
      fun below n name isAlias inside _ => parent below n name isAlias inside
  have names {aliasName name : String} (known : isAlias aliasName)
      (isName : name ∈ ["id", "parent_id", "name"]) :
      (chainQuery above last comment).Names store.pageTable ⟨aliasName, name⟩ := by
    rcases known with rfl | ⟨n, inside, rfl⟩
    · exact .inl ⟨rfl, Store.pageColumns name isName⟩
    · obtain ⟨join, isJoin, same⟩ := Path.exists_join_of_le named inside
      exact .inr ⟨join, isJoin, same.symm, store.hasColumn_pageTable isName⟩
  have root : isAlias "rootparent" := .inr ⟨0, Nat.zero_le _, rfl⟩
  exact
    { kind := each (fun _ _ => rfl) fun _ _ _ _ _ => rfl
      source := each (fun _ _ => store.source?_pages) fun _ _ _ _ _ => store.source?_pages
      apart := Path.nodup_map_foldName_joinsAbove named
      qualifier := each (fun _ _ => Path.isQualifier_aliasAt 0)
        fun _ n _ _ _ => Path.isQualifier_aliasAt (n + 1)
      begins := each (fun _ _ => Path.beginsQuery_aliasAt 0)
        fun _ n _ _ _ => Path.beginsQuery_aliasAt (n + 1)
      joins := by
        refine each (fun below known => ?_) fun below n name known inside => ?_
        · simp [Path.rootJoin, Test.columns, Path.parentOf, names known, names root]
        · have joined : isAlias (Path.aliasAt (n + 1)) := .inr ⟨n + 1, inside, rfl⟩
          simp [Path.parentJoin, Test.columns, Path.parentOf, Path.nameOf, Operand.ofText,
            names known, names joined]
      filters := List.forall_mem_singleton.2
        ((Condition.forall_test _).2 (List.forall_mem_singleton.2 (names (.inl rfl) (by simp))))
      scores := rfl
      orders := rfl
      window := rfl }

/-- What the query reads. -/
abbrev Store.chainPlan (above : List String) : Plan :=
  store.innerPlan store.pageTable (chainQuery above last comment)

variable {store last} (page : Page) {assignment : String → Record}

theorem Store.holds_chainQuery_conjuncts_iff (named : ∀ name ∈ above, name ≠ "")
    (free : '\x00' ∉ last.toList) :
    (∀ conjunct ∈ (chainQuery above last comment).conjuncts,
      (store.chainPlan last comment above).holds
        ((store.chainPlan last comment above).assigned page.record assignment)
        conjunct.filter = true) ↔ page.name = last := by
  have reads := (store.filtersBy_chainQuery last comment named).readsPage_page page assignment
  refine List.forall_mem_singleton.trans ?_
  rw [Conjunct.filter, reads.holds_isNamed free, decide_eq_true_eq]

theorem Store.holds_chainQuery_joins_iff
    (named : ∀ name ∈ above, name ≠ "" ∧ '\x00' ∉ name.toList) {pages : Nat → Page}
    (assigned : ∀ n ≤ above.length, assignment (Path.aliasAt n) = (pages n).record) :
    (∀ join ∈ (chainQuery above last comment).joins,
      (store.chainPlan last comment above).holds
        ((store.chainPlan last comment above).assigned page.record assignment) join.on = true) ↔
      Path.Climbs pages page above := by
  have filled : ∀ name ∈ above, name ≠ "" := fun name member => (named name member).1
  have filters := store.filtersBy_chainQuery last comment filled
  refine Path.holds_joinsAbove_iff named (filters.readsPage_page page assignment) fun n inside => ?_
  obtain ⟨join, isJoin, same⟩ := Path.exists_join_of_le filled inside
  rw [← same]
  exact filters.readsPage_join page assignment isJoin (same ▸ assigned n inside)

/-- A page is selected just when the names lead to it. -/
theorem Store.pageRows_chainQuery_ne_nil_iff (apart : (store.pages.map Page.id).Nodup)
    (rooted : store.HasPage rootId) (named : ∀ name ∈ above, name ≠ "" ∧ '\x00' ∉ name.toList)
    (free : '\x00' ∉ last.toList) {page : Page} (isPage : page ∈ store.pages) :
    (store.chainPlan last comment above).pageRows (chainQuery above last comment) page.record ≠ [] ↔
      store.Leads (above.reverse ++ [last]) page.id := by
  have filled : ∀ name ∈ above, name ≠ "" := fun name member => (named name member).1
  have filters := store.filtersBy_chainQuery last comment filled
  rw [filters.pageRows_ne_nil_iff, leads_concat_page_iff apart isPage]
  constructor
  · rintro ⟨assignment, inside, joined, filtered⟩
    -- Every joined record is one of a page, and the alias says at which depth it stands.
    have found : ∀ n, ∃ other : Page, n ≤ above.length →
        other ∈ store.pages ∧ other.record = assignment (Path.aliasAt n) := by
      intro n
      by_cases bound : n ≤ above.length
      · obtain ⟨join, isJoin, same⟩ := Path.exists_join_of_le filled bound
        obtain ⟨other, isOther, record⟩ := List.mem_map.1 (inside join isJoin)
        exact ⟨other, fun _ => ⟨isOther, same ▸ record⟩⟩
      · exact ⟨page, fun inside => absurd inside bound⟩
    choose pages found using found
    have climbs := (holds_chainQuery_joins_iff comment page named fun n bound =>
      (found n bound).2.symm).1 joined
    exact ⟨climbs.leads fun n bound => (found n bound).1,
      (holds_chainQuery_conjuncts_iff comment page filled free).1 filtered⟩
  · rintro ⟨leads, isLast⟩
    obtain ⟨pages, inside, climbs⟩ := Path.exists_climbs rooted leads
    -- No two depths share an alias, so each alias can be given the page of its depth.
    let assignment := Function.extend Path.aliasAt (fun n => (pages n).record) fun _ => page.record
    have assigned (n : Nat) : assignment (Path.aliasAt n) = (pages n).record :=
      Path.injective_aliasAt.extend_apply ..
    refine ⟨assignment, ?_, (holds_chainQuery_joins_iff comment page named fun n _ =>
      assigned n).2 climbs, (holds_chainQuery_conjuncts_iff comment page filled free).2 isLast⟩
    intro join isJoin
    obtain ⟨n, bound, same⟩ := (Path.mem_map_aliasName_iff filled).1 (List.mem_map_of_mem isJoin)
    rw [← same, assigned]
    exact List.mem_map_of_mem (inside n bound)

end

/-! ### Limits -/

section

variable {store : Store} {above : List String} {last comment : String}
  (named : ∀ name ∈ above, name ≠ "")

include named

theorem shape_joinsAbove (below : String) :
    ∀ join ∈ Path.joinsAbove below (above ++ [""]), join.on.depth Test.depth = 4 ∧
      join.on.Forall fun test : Test => test.isTooLong = false :=
  @Path.forall_joinsAbove below above (fun _ => True) _ named trivial (fun _ _ => trivial)
    (fun _ _ => ⟨rfl, by simp [Path.rootJoin, Test.isTooLong]⟩)
    fun _ _ _ _ _ _ => ⟨rfl, by simp [Path.parentJoin, Test.isTooLong]⟩

theorem isWithinLimits_chainQuery
    (filters : (chainQuery above last comment).FiltersBy store store.pageTable)
    (few : above.length + 1 < 64) : (chainQuery above last comment).isWithinLimits = true := by
  have count : (chainQuery above last comment).joins.length = above.length + 1 := by
    have aliases : ((chainQuery above last comment).joins.map Join.aliasName).length =
        ((List.range (above.length + 1)).reverse.map Path.aliasAt).length :=
      congrArg List.length (Path.map_aliasName_joinsAbove named)
    simpa only [List.length_map, List.length_reverse, List.length_range] using aliases
  have depths : (chainQuery above last comment).conditionDepths =
      3 :: (chainQuery above last comment).joins.map fun join => join.on.depth Test.depth := by
    rw [Query.conditionDepths, Query.orderedJoins, filters.joinsOf_inner, filters.joinsOf_left,
      List.append_nil]
    rfl
  have shallow : Condition.chainDepth (chainQuery above last comment).conditionDepths ≤
      Query.depthLimit := by
    refine Nat.le_trans (Condition.chainDepth_le (by decide : 2 ≤ 4) ?_) ?_
    · rw [depths, List.forall_mem_cons, List.forall_mem_map]
      exact ⟨by decide, fun join isJoin =>
        Nat.le_of_eq (shape_joinsAbove named _ join isJoin).1⟩
    · rw [depths, List.length_cons, List.length_map, count, Query.depthLimit]
      omega
  rw [Query.isWithinLimits, count, decide_eq_true shallow, Query.tableLimit, decide_eq_true few]
  rfl

theorem hasLongPattern_chainQuery : (chainQuery above last comment).hasLongPattern = false := by
  rw [Query.hasLongPattern, Bool.or_eq_false_iff]
  constructor
  · rw [List.any_eq_false]
    intro test isTest
    obtain ⟨join, isJoin, among⟩ := List.mem_flatMap.1 isTest
    simp [(shape_joinsAbove named _ join isJoin).2 test among]
  · rfl

end

/-! ### Finds -/

/-- The query for the root alone. -/
def rootQuery (comment : String) : Query :=
  { joins := [], conjuncts := [.plain (.compare Query.idColumn .equal (.integer rootId))]
    scores := [], orders := [], window := none, comment }

/-- The query selects the pages that the names lead to, and the engine takes it when few tables are
joined. -/
structure Query.FindsPath (store : Store) (names : List String) (query : Query) : Prop where
  filters : query.FiltersBy store store.pageTable
  selects : ∀ page ∈ store.pages,
    (store.innerPlan store.pageTable query).pageRows query page.record ≠ [] ↔
      store.Leads names page.id
  small : names.length < 64 → query.isWithinLimits = true
  short : query.hasLongPattern = false

section

variable (store : Store) (comment : String)

theorem filtersBy_rootQuery : (rootQuery comment).FiltersBy store store.pageTable where
  kind := by simp [rootQuery]
  source := by simp [rootQuery]
  apart := List.nodup_singleton _
  qualifier := by simp [rootQuery]
  begins := by simp [rootQuery]
  joins := by simp [rootQuery]
  filters := List.forall_mem_singleton.2 ((Condition.forall_test _).2
    (List.forall_mem_singleton.2 (.inl ⟨rfl, by decide⟩)))
  scores := rfl
  orders := rfl
  window := rfl

theorem findsPath_rootQuery : (rootQuery comment).FindsPath store [] where
  filters := filtersBy_rootQuery store comment
  selects page isPage := by
    have filters := filtersBy_rootQuery store comment
    have reads (assignment : String → Record) := filters.readsPage_page page assignment
    rw [filters.pageRows_ne_nil_iff, Store.leads_nil_iff]
    constructor
    · rintro ⟨assignment, -, -, filtered⟩
      have holds := filtered _ (List.mem_singleton_self _)
      exact of_decide_eq_true ((reads assignment).holds_isRoot.symm.trans holds)
    · intro isRoot
      refine ⟨fun _ => page.record, by simp [rootQuery], by simp [rootQuery], ?_⟩
      exact List.forall_mem_singleton.2
        ((reads fun _ => page.record).holds_isRoot.trans (decide_eq_true isRoot))
  small _ := by rfl
  short := rfl

end

section

variable {store : Store} (apart : (store.pages.map Page.id).Nodup) (rooted : store.HasPage rootId)

include apart rooted

theorem findsPath_chainQuery {above : List String}
    (named : ∀ name ∈ above, name ≠ "" ∧ '\x00' ∉ name.toList) {last : String}
    (free : '\x00' ∉ last.toList) (comment : String) :
    (chainQuery above last comment).FindsPath store (above.reverse ++ [last]) := by
  have filled : ∀ name ∈ above, name ≠ "" := fun name member => (named name member).1
  have filters := store.filtersBy_chainQuery last comment filled
  refine ⟨filters, fun page isPage =>
    Store.pageRows_chainQuery_ne_nil_iff comment apart rooted named free isPage, fun few => ?_,
    hasLongPattern_chainQuery filled⟩
  rw [List.length_append, List.length_reverse, List.length_singleton] at few
  exact isWithinLimits_chainQuery filled filters few

end

namespace Path

theorem parts_of_isPathText {names : List String} {last : String}
    (named : ∀ name ∈ names ++ [last], Store.IsPathName name) {path : String}
    (spelled : Store.IsPathText (names ++ [last]) path) :
    joins path = joinsAbove "pages" (names.reverse ++ [""]) ∧
      conjuncts path = [.plain (.compare (nameOf "pages") .equal (.ofText last))] := by
  have other : path ≠ "/" := by
    rintro rfl
    have read := Store.pathNames_of_isPathText named spelled
    have nameless : Store.pathNames "/" = [] := rfl
    simp [nameless] at read
  have parts : segments path = "" :: (names ++ [last]) :=
    Store.segments_of_isPathText named (by simp) spelled
  have above : ("" :: (names ++ [last])).dropLast = "" :: names := by
    rw [← List.cons_append, List.dropLast_concat]
  have final : ("" :: (names ++ [last])).getLastD "" = last := by
    rw [← List.cons_append, List.getLastD_concat]
  rw [joins, conjuncts, if_neg other, if_neg other, parts]
  dsimp only
  rw [above, final, if_neg (by simp), List.reverse_cons]
  exact ⟨rfl, rfl⟩

end Path

namespace Term

theorem kind_of_field_eq_path {term : Term} (field : term.field = "path" ∨ term.field = "url") :
    term.kind = .path := by
  rcases field with field | field
  · rw [kind, field]
    rfl
  · rw [kind, field]
    rfl

end Term

namespace Finder

/-- A written term of one value without two slashes next to each other is a plain comment. -/
theorem isPlainComment_text {term : Term} (written : term.IsWritten) {value : String}
    (values : term.values = [value]) (lone : Statement.HasLoneSlashes value.toList)
    (null : '\x00' ∉ value.toList) : isPlainComment term.text.toList = true := by
  obtain ⟨front, back, spelled, margins⟩ := written.isAround values
  have free {c : Char} (inner : Term.isMargin c = false) : c ∉ front ++ back := fun member => by
    rw [margins c member] at inner
    cases inner
  have slash := free (by decide : Term.isMargin '/' = false)
  have nulls := free (by decide : Term.isMargin '\x00' = false)
  rw [List.mem_append, not_or] at slash nulls
  rw [spelled]
  refine isPlainComment_of_hasLoneSlashes (lone.surround slash.1 slash.2) ?_
  simp [nulls, null]

theorem exists_query_of_path {schema : Schema} {store : Store}
    (reached : Store.Reachable schema store) {names : List String}
    (named : ∀ name ∈ names, Store.IsPathName name ∧ '\x00' ∉ name.toList) {path : String}
    (spelled : Store.IsPathText names path) {finder : Finder}
    (unchecked : finder.checkStatus = false) {term : Term}
    (field : term.field = "path" ∨ term.field = "url") (values : term.values = [path])
    (catalog : Catalog) :
    ∃ query, finder.queryFor catalog [term] false = .ok query ∧
      query.comment = finder.commentFor [term] ∧ query.FindsPath store names := by
  have kind := Term.kind_of_field_eq_path field
  have unsorted : term.kind ≠ .sort := by simp [kind]
  have unlimited : term.kind ≠ .window := by simp [kind]
  have value : term.value = path := by rw [Term.value, values, List.headD_cons]
  have compiled : Part.ofTerm catalog [] term = .ok
      { Part.nothing with joins := Path.joins path, conjuncts := Path.conjuncts path } := by
    rw [Part.ofTerm, kind, ← value]
  rcases List.eq_nil_or_concat names with rfl | ⟨above, last, rfl⟩
  · rw [Store.isPathText_nil_iff] at spelled
    subst spelled
    exact ⟨_, queryFor_singleton unchecked unsorted unlimited compiled rfl rfl, rfl,
      findsPath_rootQuery store _⟩
  · rw [List.concat_eq_append] at named spelled ⊢
    obtain ⟨joins, conjuncts⟩ := Path.parts_of_isPathText (fun name member => (named name member).1)
      spelled
    rw [List.forall_mem_append, List.forall_mem_singleton] at named
    have reversed : ∀ name ∈ above.reverse, name ≠ "" ∧ '\x00' ∉ name.toList :=
      fun name member => by
        obtain ⟨⟨filled, -⟩, free⟩ := named.1 name (List.mem_reverse.1 member)
        exact ⟨filled, free⟩
    have finds := findsPath_chainQuery reached.nodup_ids reached.hasPage_root reversed named.2.2
      (finder.commentFor [term])
    rw [List.reverse_reverse] at finds
    rw [joins, conjuncts] at compiled
    have unmerged : Join.merge (Path.joinsAbove "pages" (above.reverse ++ [""])) =
        Path.joinsAbove "pages" (above.reverse ++ [""]) :=
      Join.merge_eq_self finds.filters.nodup_joins
    refine ⟨_, ?_, rfl, finds⟩
    rw [queryFor_singleton unchecked unsorted unlimited compiled rfl rfl]
    dsimp only
    rw [unmerged]
    rfl

/-- A find for a path returns the page that the path is looked up as. The engine returns the same
as long as it can join that many tables. -/
theorem find_path {schema : Schema} {store : Store} (reached : Store.Reachable schema store)
    {names : List String} (named : ∀ name ∈ names, Store.IsPathName name ∧ '\x00' ∉ name.toList)
    {path : String} (spelled : Store.IsPathText names path) {finder : Finder}
    (unchecked : finder.checkStatus = false) {term : Term}
    (field : term.field = "path" ∨ term.field = "url") (values : term.values = [path])
    (written : finder.debug = true → term.IsWritten) (now : Date.Moment)
    (pageNumber : Option Int) :
    ∃ rows, (finder.find (store.catalog schema now pageNumber) store.unboundedEngine [term]
        false).rows = .ok rows ∧
      (rows.map fun row => Dictionary.find? row "id") =
        (store.pageId? path).toList.map (fun id => some (.integer id)) ∧
      (names.length < 64 →
        (finder.find (store.catalog schema now pageNumber) store.engine [term] false).rows =
          .ok rows) := by
  obtain ⟨query, compiled, commented, finds⟩ := exists_query_of_path reached named spelled unchecked
    field values (store.catalog schema now pageNumber)
  have usable : ∀ name ∈ names, Store.IsPathName name := fun name member => (named name member).1
  have plain : query.statement.hasPlainComment = true := by
    rw [Statement.hasPlainComment_eq, Query.statement, commented]
    refine isPlainComment_commentFor_singleton unchecked fun debug =>
      isPlainComment_text (written debug) values
        (Store.hasLoneSlashes_of_isPathText usable spelled) ?_
    exact Store.notMem_of_isPathText (by decide) (fun name member => (named name member).2) spelled
  obtain ⟨rows, found, ⟨ids, same, nodup, mem⟩, bounded⟩ :=
    find_ids reached.nodup_ids finds.filters compiled plain
  refine ⟨rows, found, ?_, fun few => bounded (finds.small few) finds.short⟩
  -- Both are the pages that the names lead to, of which there is one at most.
  have isFound {id : Int} : id ∈ ids ↔ store.pageId? path = some id := by
    rw [mem, Store.pageId?_eq_some_iff reached.hasApartSiblings,
      Store.pathNames_of_isPathText usable spelled]
    constructor
    · rintro ⟨page, isPage, rfl, rows⟩
      exact (finds.selects page isPage).1 rows
    · intro leads
      obtain ⟨page, isPage, rfl⟩ := Store.exists_page_of_hasPage
        (Store.hasPage_of_leads reached.hasPage_root leads)
      exact ⟨page, isPage, rfl, (finds.selects page isPage).2 leads⟩
  cases lookup : store.pageId? path with
  | none =>
      have empty : ids = [] := List.eq_nil_iff_forall_not_mem.2 fun id member => by
        rw [isFound, lookup] at member
        cases member
      rw [empty] at same
      exact same.eq_nil
  | some id =>
      have only : ids.Perm [id] := by
        refine (List.perm_ext_iff_of_nodup nodup (List.nodup_singleton id)).2 fun other => ?_
        rw [isFound, lookup, Option.some.injEq, List.mem_singleton]
        exact eq_comm
      exact List.perm_singleton.1 (same.trans (only.map _))

theorem find_path_teamStore :
    ∃ selector rows, Selector.read "url='/about/team/'" = .ok selector ∧
      ({ Finder.new with checkStatus := false, debug := true }.find
        (teamStore.catalog titleSchema ⟨0, false⟩ none) teamStore.engine selector false).rows =
          .ok rows ∧
      (rows.map fun row => Dictionary.find? row "id") = [some (.integer 3)] := by
  let term : Term :=
    { fields := ["url"], values := ["/about/team/"], operator := .equal, negated := false
      text := "url='/about/team/'" }
  have parsed : Selector.read "url='/about/team/'" = .ok [term] := rfl
  have named : ∀ name ∈ ["about", "team"], Store.IsPathName name ∧ '\x00' ∉ name.toList := by
    unfold Store.IsPathName
    decide
  have spelled : Store.IsPathText ["about", "team"] "/about/team/" := .inr rfl
  have written := Selector.isWritten_of_read parsed term (List.mem_singleton_self _)
  let finder : Finder := { Finder.new with checkStatus := false, debug := true }
  have unchecked : finder.checkStatus = false := rfl
  obtain ⟨rows, -, same, bounded⟩ := find_path Store.grown_teamStore.reachable named spelled
    unchecked (.inr rfl) rfl (fun _ => written) ⟨0, false⟩ none
  have lookup : teamStore.pageId? "/about/team/" = some 3 := rfl
  rw [lookup] at same
  exact ⟨[term], rows, parsed, bounded (by decide), same⟩

end Finder

end PageTree
