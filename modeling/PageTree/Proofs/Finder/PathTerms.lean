import PageTree.Proofs.Finder.Answers
import PageTree.Proofs.Finder.Paths
import PageTree.Proofs.Store.Heights

/-!
Finds with several paths. Joins of two paths under one alias are merged into one, so that the pages
they ask for are the same page. Main statement: a find with several paths returns the pages that
stand at all of them and above which the paths meet, which are the pages of all paths when the paths
are aligned.
-/

namespace PageTree

open Sql Text

/-! ### Merged conditions -/

namespace Plan

variable {plan : Plan} {binding : Binding}

theorem forall_holds_addTo_iff (join : Join) (joins : List Join) :
    (∀ other ∈ join.addTo joins, plan.holds binding other.on = true) ↔
      (∀ other ∈ joins, plan.holds binding other.on = true) ∧
        plan.holds binding join.on = true := by
  induction joins with
  | nil => simp [Join.addTo]
  | cons other rest induction =>
      rw [Join.addTo]
      by_cases same : other.aliasName = join.aliasName
      · rw [if_pos same]
        by_cases again : other.on.same join.on = true
        · rw [if_pos again, List.forall_mem_cons, ← Condition.eq_of_same again]
          tauto
        · rw [if_neg again, List.forall_mem_cons, List.forall_mem_cons, holds_conj]
          simp only [List.all_cons, List.all_nil, Bool.and_true, Bool.and_eq_true]
          tauto
      · rw [if_neg same, List.forall_mem_cons, List.forall_mem_cons, induction]
        tauto

/-- Merged joins ask for what the joins ask for. -/
theorem forall_holds_merge_iff (joins : List Join) :
    (∀ join ∈ Join.merge joins, plan.holds binding join.on = true) ↔
      ∀ join ∈ joins, plan.holds binding join.on = true := by
  have fold (merged : List Join) :
      (∀ join ∈ joins.foldl (fun merged join => join.addTo merged) merged,
        plan.holds binding join.on = true) ↔
      (∀ join ∈ merged, plan.holds binding join.on = true) ∧
        ∀ join ∈ joins, plan.holds binding join.on = true := by
    induction joins generalizing merged with
    | nil => simp
    | cons join joins induction =>
        rw [List.foldl_cons, induction, forall_holds_addTo_iff, List.forall_mem_cons, and_assoc]
  rw [Join.merge, fold]
  simp

end Plan

/-! ### Joined pages -/

namespace Plan.ReadsPage

variable {plan : Plan} {binding : Binding} {aliasName other : String} {page above : Page}
  (reads : plan.ReadsPage binding aliasName page)

include reads

theorem holds_isCalled (name : String) :
    plan.holds binding (.test (.compare (Path.nameOf aliasName) .equal (.ofText name))) =
      decide (page.name = dropNulls name) :=
  holds_equal_text reads.name.1 reads.name.2

theorem holds_isBelowRoot :
    plan.holds binding (.test (.compare (Path.parentOf aliasName) .equal (.integer rootId))) =
      decide (page.parent = rootId) :=
  holds_equal_integer reads.parent.1 reads.parent.2 rfl

theorem holds_parentJoin_iff (joined : plan.ReadsPage binding other above) (name : String) :
    plan.holds binding (Path.parentJoin aliasName other name).on = true ↔
      page.parent = above.id ∧ above.name = dropNulls name := by
  simp [Path.parentJoin, holds_conj, reads.holds_isBelow joined, joined.holds_isCalled]

end Plan.ReadsPage

namespace Path

theorem holds_joinsAbove_iff_seats {plan : Plan} {binding : Binding} {below : String} {page : Page}
    {above : List String} {place : String → Page} (reads : plan.ReadsPage binding below page)
    (joined : ∀ aliasName ∈ aliases above, plan.ReadsPage binding aliasName (place aliasName)) :
    (∀ join ∈ joinsAbove below above, plan.holds binding join.on = true) ↔
      Seats place page above := by
  induction above generalizing below page with
  | nil => simp [joinsAbove, Seats]
  | cons name above induction =>
      rw [aliases, List.forall_mem_cons] at joined
      rw [joinsAbove, Seats]
      by_cases empty : name = ""
      · rw [if_pos empty] at joined ⊢
        rw [if_pos empty, List.forall_mem_cons, reads.holds_rootJoin joined.1,
          induction reads joined.2]
      · rw [if_neg empty] at joined ⊢
        rw [if_neg empty, List.forall_mem_cons]
        exact and_congr (reads.holds_parentJoin_iff joined.1 name) (induction joined.1 joined.2)

theorem holds_conjuncts_iff {plan : Plan} {binding : Binding} {page : Page}
    (reads : plan.ReadsPage binding "pages" page) (store : Store) (path : String) :
    ((∀ conjunct ∈ conjuncts path, plan.holds binding conjunct.filter = true) ∧
        store.Ascends page (upper path)) ↔ store.LiesAt path page := by
  rw [conjuncts, Store.LiesAt]
  by_cases isRoot : path = "/"
  · rw [if_pos isRoot, if_pos isRoot, upper, if_pos isRoot, List.forall_mem_singleton,
      Conjunct.filter, Query.idColumn, reads.holds_isRoot, decide_eq_true_eq]
    exact and_iff_left trivial
  · rw [if_neg isRoot, if_neg isRoot, List.forall_mem_cons, Conjunct.filter, reads.holds_isCalled,
      decide_eq_true_eq, and_assoc]
    refine and_congr_right fun _ => and_congr_left fun _ => ?_
    by_cases short : (segments path).length ≤ 1
    · rw [if_pos short, List.forall_mem_singleton, Conjunct.filter, reads.holds_isBelowRoot,
        decide_eq_true_eq]
      exact ⟨fun below _ => below, fun below => below short⟩
    · rw [if_neg short]
      exact iff_of_true (by simp) fun few => absurd few short

theorem table_joinsAbove (below : String) (above : List String) :
    ∀ join ∈ joinsAbove below above, join.table = "pages" := by
  induction above generalizing below with
  | nil => simp [joinsAbove]
  | cons name above induction =>
      rw [joinsAbove]
      split
      · exact List.forall_mem_cons.2 ⟨rfl, induction _⟩
      · exact List.forall_mem_cons.2 ⟨rfl, induction _⟩

/-- The columns that paths ask for, of tables whose aliases have a property. -/
def ReadsColumns (p : String → Prop) (filter : Filter) : Prop :=
  filter.Forall fun test => ∀ column ∈ test.columns,
    p column.aliasName ∧ column.name ∈ ["id", "parent_id", "name"]

section

variable {p : String → Prop} {below : String} (isBelow : p below)

include isBelow

theorem readsColumns_rootJoin (root : p "rootparent") : ReadsColumns p (rootJoin below).on := by
  simp [ReadsColumns, rootJoin, Test.columns, parentOf, isBelow, root]

theorem readsColumns_parentJoin {aliasName : String} (joined : p aliasName) (name : String) :
    ReadsColumns p (parentJoin below aliasName name).on := by
  simp [ReadsColumns, parentJoin, Test.columns, parentOf, nameOf, Operand.ofText, isBelow, joined]

theorem readsColumns_joinsAbove {above : List String}
    (each : ∀ aliasName ∈ aliases above, p aliasName) :
    ∀ join ∈ joinsAbove below above, ReadsColumns p join.on := by
  induction above generalizing below with
  | nil => simp [joinsAbove]
  | cons name above induction =>
      rw [aliases, List.forall_mem_cons] at each
      rw [joinsAbove]
      by_cases empty : name = ""
      · rw [if_pos empty] at each ⊢
        exact List.forall_mem_cons.2
          ⟨readsColumns_rootJoin isBelow each.1, induction isBelow each.2⟩
      · rw [if_neg empty] at each ⊢
        exact List.forall_mem_cons.2
          ⟨readsColumns_parentJoin isBelow each.1 name, induction each.1 each.2⟩

end

theorem readsColumns_conjuncts (path : String) :
    ∀ conjunct ∈ conjuncts path, ReadsColumns (fun aliasName => aliasName = "pages")
      conjunct.filter := by
  unfold conjuncts
  split
  · simp [ReadsColumns, Conjunct.filter, Test.columns, Query.idColumn]
  · refine List.forall_mem_cons.2 ⟨?_, ?_⟩
    · simp [ReadsColumns, Conjunct.filter, Test.columns, nameOf, Operand.ofText]
    · split
      · simp [ReadsColumns, Conjunct.filter, Test.columns, parentOf]
      · simp

end Path

/-! ### The query -/

/-- The query of several paths. -/
def pathsQuery (paths : List String) (comment : String) : Query :=
  { joins := Join.merge (paths.flatMap Path.joins), conjuncts := paths.flatMap Path.conjuncts
    scores := [], orders := [], window := none, comment }

section

variable (store : Store) (paths : List String) (comment : String)

theorem isOfTree_pathsQuery : ∀ join ∈ (pathsQuery paths comment).joins, join.IsOfTree := by
  refine Join.isOfTree_merge fun join isJoin => ?_
  obtain ⟨path, -, among⟩ := List.mem_flatMap.1 isJoin
  exact Path.isOfTree_joins path join among

/-- Each alias of the names above a path is that of one join. -/
theorem mem_aliases_pathsQuery_iff {aliasName : String} :
    aliasName ∈ (pathsQuery paths comment).joins.map Join.aliasName ↔
      ∃ path ∈ paths, aliasName ∈ Path.aliases (Path.upper path) := by
  rw [pathsQuery, Join.mem_map_aliasName_merge_iff, List.map_flatMap, List.mem_flatMap]
  refine exists_congr fun path => and_congr_right fun _ => ?_
  rw [Path.joins_eq, Path.map_aliasName_joinsAbove_eq]

theorem table_pathsQuery : ∀ join ∈ (pathsQuery paths comment).joins, join.table = "pages" := by
  refine Join.forall_merge (fun _ _ one _ _ _ => one) fun join isJoin => ?_
  obtain ⟨path, -, among⟩ := List.mem_flatMap.1 isJoin
  rw [Path.joins_eq] at among
  exact Path.table_joinsAbove _ _ join among

/-- The joins read columns of the page and of each other. -/
theorem readsColumns_pathsQuery : ∀ join ∈ (pathsQuery paths comment).joins,
    Path.ReadsColumns (fun aliasName => aliasName = "pages" ∨
      aliasName ∈ (pathsQuery paths comment).joins.map Join.aliasName) join.on := by
  refine Join.forall_merge (fun one other isOne isOther _ _ => ?_) fun join isJoin => ?_
  · rw [Path.ReadsColumns, Condition.forall_conj]
    exact List.forall_mem_cons.2 ⟨isOne, List.forall_mem_singleton.2 isOther⟩
  · obtain ⟨path, isPath, among⟩ := List.mem_flatMap.1 isJoin
    rw [Path.joins_eq] at among
    refine Path.readsColumns_joinsAbove (.inl rfl) (fun aliasName isAlias => .inr ?_) join among
    exact (mem_aliases_pathsQuery_iff paths comment).2 ⟨path, isPath, isAlias⟩

theorem filtersBy_pathsQuery : (pathsQuery paths comment).FiltersBy store store.pageTable := by
  have ofTree := isOfTree_pathsQuery paths comment
  have names {filter : Filter} (reads : Path.ReadsColumns (fun aliasName => aliasName = "pages" ∨
        aliasName ∈ (pathsQuery paths comment).joins.map Join.aliasName) filter) :
      filter.Forall fun test => ∀ column ∈ test.columns,
        (pathsQuery paths comment).Names store.pageTable column := by
    intro test isTest column read
    obtain ⟨isPage | isAlias, isName⟩ := reads test isTest column read
    · exact .inl ⟨isPage, Store.pageColumns _ isName⟩
    · obtain ⟨join, isJoin, same⟩ := List.mem_map.1 isAlias
      exact .inr ⟨join, isJoin, same.symm, store.hasColumn_pageTable isName⟩
  have lower : ("pages" :: (pathsQuery paths comment).joins.map Join.aliasName).map foldName =
      "pages" :: (pathsQuery paths comment).joins.map Join.aliasName := by
    rw [List.map_cons, List.map_map]
    refine congrArg₂ List.cons (by decide) (List.map_congr_left fun join isJoin => ?_)
    exact (ofTree join isJoin).isAlias.foldName_eq
  constructor
  case kind => exact fun join isJoin => (ofTree join isJoin).kind
  case source => exact fun join isJoin =>
    table_pathsQuery paths comment join isJoin ▸ store.source?_pages
  case apart =>
    rw [lower, List.nodup_cons]
    refine ⟨fun isAlias => ?_, Join.nodup_merge _⟩
    obtain ⟨join, isJoin, same⟩ := List.mem_map.1 isAlias
    exact (ofTree join isJoin).isAlias.isFree.ne_pages (by rw [same])
  case qualifier => exact fun join isJoin => (ofTree join isJoin).isAlias.isFree.isQualifier
  case begins => exact fun join isJoin => (ofTree join isJoin).isAlias.isFree.not_beginsQuery
  case joins => exact fun join isJoin => names (readsColumns_pathsQuery paths comment join isJoin)
  case filters =>
    intro conjunct isConjunct
    obtain ⟨path, -, among⟩ := List.mem_flatMap.1 isConjunct
    refine names fun test isTest column reads => ?_
    exact (Path.readsColumns_conjuncts path conjunct among test isTest column reads).imp_left .inl
  all_goals rfl

end

section

variable {store : Store} (paths : List String) (comment : String) (page : Page)

theorem holds_pathsQuery_joins_iff {assignment : String → Record} {place : String → Page}
    (same : ∀ path ∈ paths, ∀ aliasName ∈ Path.aliases (Path.upper path),
      assignment aliasName = (place aliasName).record) :
    (∀ join ∈ (pathsQuery paths comment).joins,
      (store.innerPlan store.pageTable (pathsQuery paths comment)).holds
        ((store.innerPlan store.pageTable (pathsQuery paths comment)).assigned page.record
          assignment) join.on = true) ↔
      ∀ path ∈ paths, Path.Seats place page (Path.upper path) := by
  have filters := filtersBy_pathsQuery store paths comment
  refine Plan.forall_holds_merge_iff _ |>.trans ?_
  rw [List.forall_mem_flatMap]
  refine forall₂_congr fun path isPath => ?_
  rw [Path.joins_eq]
  apply Path.holds_joinsAbove_iff_seats (filters.readsPage_page page assignment)
  intro aliasName isAlias
  obtain ⟨join, isJoin, rfl⟩ := List.mem_map.1
    ((mem_aliases_pathsQuery_iff paths comment).2 ⟨path, isPath, isAlias⟩)
  exact filters.readsPage_join page assignment isJoin (same path isPath _ isAlias)

variable (apart : (store.pages.map Page.id).Nodup) (rooted : store.HasPage rootId)

include apart rooted

/-- The query of several paths selects the pages at all of them above which they meet. -/
theorem Store.pageRows_pathsQuery_ne_nil_iff :
    (store.innerPlan store.pageTable (pathsQuery paths comment)).pageRows
        (pathsQuery paths comment) page.record ≠ [] ↔
      (∀ path ∈ paths, store.LiesAt path page) ∧
        ∀ path ∈ paths, ∀ other ∈ paths, store.Meet page path other := by
  have filters := filtersBy_pathsQuery store paths comment
  have own (assignment : String → Record) (path : String) :=
    Path.holds_conjuncts_iff (filters.readsPage_page page assignment) store path
  have seated := Path.exists_seats_iff apart page rooted paths
  rw [filters.pageRows_ne_nil_iff]
  constructor
  · rintro ⟨assignment, inside, joined, filtered⟩
    have found (aliasName : String) : ∃ other : Page,
        aliasName ∈ (pathsQuery paths comment).joins.map Join.aliasName →
          other ∈ store.pages ∧ other.record = assignment aliasName := by
      by_cases isAlias : aliasName ∈ (pathsQuery paths comment).joins.map Join.aliasName
      · obtain ⟨join, isJoin, rfl⟩ := List.mem_map.1 isAlias
        obtain ⟨other, isOther, record⟩ := List.mem_map.1 (inside join isJoin)
        exact ⟨other, fun _ => ⟨isOther, record⟩⟩
      · exact ⟨page, fun among => absurd among isAlias⟩
    choose place found using found
    have given {path aliasName : String} (isPath : path ∈ paths)
        (isAlias : aliasName ∈ Path.aliases (Path.upper path)) :=
      found aliasName ((mem_aliases_pathsQuery_iff paths comment).2 ⟨path, isPath, isAlias⟩)
    have seats := (holds_pathsQuery_joins_iff paths comment page fun path isPath aliasName isAlias =>
      (given isPath isAlias).2.symm).1 joined
    obtain ⟨ascends, meet⟩ := seated.1 ⟨place, fun path isPath =>
      ⟨fun aliasName isAlias => (given isPath isAlias).1, seats path isPath⟩⟩
    refine ⟨fun path isPath => (own assignment path).1 ⟨?_, ascends path isPath⟩, meet⟩
    exact fun conjunct isConjunct => filtered conjunct (List.mem_flatMap.2 ⟨path, isPath, isConjunct⟩)
  · rintro ⟨lies, meet⟩
    obtain ⟨place, seats⟩ := seated.2 ⟨fun path isPath =>
      ((own (fun _ => page.record) path).2 (lies path isPath)).2, meet⟩
    let assignment (aliasName : String) : Record := (place aliasName).record
    refine ⟨assignment, fun join isJoin => ?_, ?_, ?_⟩
    · obtain ⟨path, isPath, isAlias⟩ := (mem_aliases_pathsQuery_iff paths comment).1
        (List.mem_map_of_mem isJoin)
      exact List.mem_map_of_mem ((seats path isPath).1 _ isAlias)
    · exact (holds_pathsQuery_joins_iff paths comment page fun _ _ _ _ => rfl).2 fun path isPath =>
        (seats path isPath).2
    · intro conjunct isConjunct
      obtain ⟨path, isPath, among⟩ := List.mem_flatMap.1 isConjunct
      exact ((own assignment path).2 (lies path isPath)).1 conjunct among

end

/-! ### Finds -/

namespace Store

variable {store : Store}

theorem LiesAt.ascends {path : String} {page : Page} (lies : store.LiesAt path page) :
    store.Ascends page (Path.upper path) := by
  rw [LiesAt] at lies
  split at lies
  · next root => rw [Path.upper, if_pos root, Ascends]; trivial
  · exact lies.2.2

theorem Shows.eq_nil {rows : List Row} {p : Page → Prop} (shows : store.Shows rows p)
    (none : ∀ page ∈ store.pages, ¬p page) : rows = [] := by
  apply List.eq_nil_iff_forall_not_mem.2
  intro row isRow
  obtain ⟨page, isPage, holds, -⟩ := (shows.mem_iff _).1 (List.mem_map_of_mem isRow)
  exact none page isPage holds

end Store

namespace Part

variable {catalog : Catalog} {used : List String} {selector : Selector}

def ofPath (path : String) : Part :=
  { nothing with joins := Path.joins path, conjuncts := Path.conjuncts path }

theorem ofTerm_path {term : Term} (kind : term.kind = .path) :
    ofTerm catalog used term = .ok (ofPath term.value) := by
  rw [ofTerm, kind]
  rfl

theorem ofTerms_paths (paths : ∀ term ∈ selector, term.kind = .path) :
    ofTerms catalog used selector = .ok (selector.map fun term => ofPath term.value) := by
  induction selector generalizing used with
  | nil => rfl
  | cons term selector induction =>
      rw [List.forall_mem_cons] at paths
      rw [ofTerms, ofTerm_path paths.1, List.map_cons]
      exact bind_eq_ok.2 ⟨_, rfl, bind_eq_ok.2 ⟨_, induction paths.2, rfl⟩⟩

theorem assemble_paths (paths : ∀ term ∈ selector, term.kind = .path) (catalog : Catalog) :
    selector.assemble catalog (selector.map fun term => ofPath term.value) =
      pathsQuery (selector.map Term.value) "" := by
  have others : ∀ term ∈ selector, term.kind ≠ .sort ∧ term.kind ≠ .window :=
    fun term isTerm => by simp [paths term isTerm]
  obtain ⟨unsorted, unlimited⟩ :=
    Selector.sortKeys_eq_nil_and_window?_eq_none_of_kind others catalog
  have none {α : Type} {f : Part → List α} (empty : ∀ path, f (ofPath path) = []) :
      (selector.map fun term => ofPath term.value).flatMap f = [] := by
    simp [empty]
  rw [Selector.assemble, none (f := Part.members) fun _ => rfl,
    none (f := Part.scores) fun _ => rfl, unsorted, unlimited]
  simp [pathsQuery, MemberGroup.ofRuns, MemberGroup.conjuncts, List.flatMap_map, ofPath]

end Part

namespace Finder

variable {finder : Finder} (unchecked : finder.checkStatus = false) {selector : Selector}
  (paths : ∀ term ∈ selector, term.kind = .path)

include unchecked paths

theorem queryFor_pathsQuery (catalog : Catalog) :
    finder.queryFor catalog selector false =
      .ok (pathsQuery (selector.map Term.value) (finder.commentFor selector)) := by
  rw [queryFor_eq_map_compile, prepare_of_unchecked unchecked, Selector.compile,
    Part.ofTerms_paths paths]
  refine congrArg Except.ok ?_
  rw [Part.assemble_paths paths]
  rfl

/-- A find with several paths returns the pages that stand at all of them, when the paths meet above
the page. -/
theorem answers_paths {store : Store} (apart : (store.pages.map Page.id).Nodup)
    (rooted : store.HasPage rootId) {catalog : Catalog}
    (comments : finder.debug = true → ∀ term ∈ selector, isPlainComment term.text.toList = true) :
    finder.Answers catalog store selector True fun page =>
      (∀ term ∈ selector, store.LiesAt term.value page) ∧
        ∀ term ∈ selector, ∀ other ∈ selector, store.Meet page term.value other.value := by
  have plain : isPlainComment (finder.commentFor selector).toList = true := by
    rw [isPlainComment_commentFor_iff, prepare_of_unchecked unchecked]
    exact comments
  refine (answers_of_filtersBy apart (filtersBy_pathsQuery store _ _)
    (queryFor_pathsQuery unchecked paths catalog) plain).congr Iff.rfl fun page _ => ?_
  rw [Store.pageRows_pathsQuery_ne_nil_iff _ _ _ apart rooted]
  simp only [List.forall_mem_map]

end Finder

section

variable {schema : Schema} {store : Store} (reached : Store.Reachable schema store)
  {finder : Finder} (unchecked : finder.checkStatus = false) {term other : Term}

include reached unchecked

theorem Finder.answers_path_liesAt (kind : term.kind = .path)
    (comment : finder.debug = true → isPlainComment term.text.toList = true) (catalog : Catalog) :
    finder.Answers catalog store [term] True (store.LiesAt term.value) := by
  refine (answers_paths unchecked (List.forall_mem_singleton.2 kind) reached.nodup_ids
    reached.hasPage_root fun debug => List.forall_mem_singleton.2 (comment debug)).congr Iff.rfl
      fun page _ => ?_
  simp only [List.forall_mem_singleton]
  exact and_iff_left (Store.meet_of_aligned (Path.aligned_self _) page)

theorem Finder.answers_two_paths (kind : term.kind = .path) (kindToo : other.kind = .path)
    (comment : finder.debug = true → isPlainComment term.text.toList = true)
    (commentToo : finder.debug = true → isPlainComment other.text.toList = true)
    (catalog : Catalog) :
    finder.Answers catalog store [term, other] True fun page =>
      (store.LiesAt term.value page ∧ store.LiesAt other.value page) ∧
        store.Meet page term.value other.value := by
  refine (answers_paths unchecked (by simp [kind, kindToo]) reached.nodup_ids reached.hasPage_root
    fun debug => by simp [comment debug, commentToo debug]).congr Iff.rfl fun page _ => ?_
  have meets (path : String) : store.Meet page path path :=
    Store.meet_of_aligned (Path.aligned_self path) page
  simp only [List.forall_mem_cons, List.not_mem_nil, false_imp_iff, implies_true, and_true]
  exact and_congr_right fun _ => ⟨fun meet => meet.1.2, fun meet =>
    ⟨⟨meets _, meet⟩, meet.symm, meets _⟩⟩

/-- Two paths together select the pages that each selects by itself, where the paths meet above
them: all of those pages when the paths are aligned and, in a tree, none when they are not. -/
theorem Finder.find_two_paths (kind : term.kind = .path) (kindToo : other.kind = .path)
    (comment : finder.debug = true → isPlainComment term.text.toList = true)
    (commentToo : finder.debug = true → isPlainComment other.text.toList = true)
    (now : Date.Moment) (pageNumber : Option Int) :
    ∃ first second both,
      (finder.find (store.catalog schema now pageNumber) store.unboundedEngine [term] false).rows =
        .ok first ∧
      (finder.find (store.catalog schema now pageNumber) store.unboundedEngine [other]
        false).rows = .ok second ∧
      (finder.find (store.catalog schema now pageNumber) store.unboundedEngine [term, other]
        false).rows = .ok both ∧
      store.Shows first (store.LiesAt term.value) ∧ store.Shows second (store.LiesAt other.value) ∧
      store.Shows both (fun page => (store.LiesAt term.value page ∧ store.LiesAt other.value page) ∧
        store.Meet page term.value other.value) ∧
      (Path.Aligned term.value other.value → store.Shows both fun page =>
        store.LiesAt term.value page ∧ store.LiesAt other.value page) ∧
      (Store.Grown schema (fun _ => True) store → ¬Path.Aligned term.value other.value →
        both = []) ∧
      ∀ selector ∈ [[term], [other], [term, other]], ∀ query,
        finder.queryFor (store.catalog schema now pageNumber) selector false = .ok query →
        query.isWithinLimits = true → query.hasLongPattern = false →
          (finder.find (store.catalog schema now pageNumber) store.engine selector false).rows =
            (finder.find (store.catalog schema now pageNumber) store.unboundedEngine selector
              false).rows := by
  have one := answers_path_liesAt reached unchecked kind comment
    (store.catalog schema now pageNumber)
  have two := answers_path_liesAt reached unchecked kindToo commentToo
    (store.catalog schema now pageNumber)
  have together := answers_two_paths reached unchecked kind kindToo comment commentToo
    (store.catalog schema now pageNumber)
  obtain ⟨first, isFirst⟩ := one.succeeds.2 trivial
  obtain ⟨second, isSecond⟩ := two.succeeds.2 trivial
  obtain ⟨both, isBoth⟩ := together.succeeds.2 trivial
  have shows := together.shows both isBoth
  refine ⟨first, second, both, isFirst, isSecond, isBoth, one.shows first isFirst,
    two.shows second isSecond, shows, fun aligned => ?_, fun grown crossed => ?_, ?_⟩
  · exact shows.congr fun page _ => and_iff_left (Store.meet_of_aligned aligned page)
  · refine shows.eq_nil fun page isPage holds => crossed ?_
    exact ((grown.isTree fun _ _ => trivial).meet_iff_aligned isPage holds.1.1.ascends).1 holds.2
  · intro selector _ query compiled small short
    exact congrArg Found.rows (find_engine_eq compiled small short)

end

theorem Finder.find_two_paths_teamStore :
    ∃ selector both,
      Selector.read "path=/about/team, url=about/team" = .ok selector ∧
      (anyStatus.find (teamStore.catalog titleSchema ⟨0, false⟩ none) teamStore.engine selector
        false).rows = .ok both ∧
      teamStore.Shows both fun page => page.id = 3 := by
  let first : Term :=
    { fields := ["path"], values := ["/about/team"], operator := .equal, negated := false
      text := "path=/about/team" }
  let second : Term :=
    { fields := ["url"], values := ["about/team"], operator := .equal, negated := false
      text := "url=about/team" }
  have plain {text : String} (debug : anyStatus.debug = true) : isPlainComment text.toList = true :=
    absurd debug Bool.false_ne_true
  obtain ⟨_, _, both, -, -, found, -, -, -, shows, -, bounded⟩ :=
    find_two_paths Store.grown_teamStore.reachable (rfl : anyStatus.checkStatus = false)
      (rfl : first.kind = .path) (rfl : second.kind = .path) plain plain ⟨0, false⟩ none
  refine ⟨[first, second], both, rfl, ?_, (shows (by decide)).congr (by decide)⟩
  exact (bounded _ (by simp) _ (queryFor_pathsQuery rfl (by decide) _) (by decide)
    (by decide)).trans found

end PageTree
