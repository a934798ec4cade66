import PageTree.Proofs.Compile.Windowless
import PageTree.Proofs.Store.Evaluation
import PageTree.Proofs.Store.Reachable

/-!
The window of a find. Main statement: a find returns what it returns without its `limit` and `start`
terms, cut to the rows that the last of them ask for, or to those of its page; and the pages of one
selector are all its rows, each once and in order. Chance as a key is no part of the model, which
leaves rows in order there.
-/

namespace PageTree

open Number Sql

/-! ### What is shown -/

namespace Selector

variable {α : Type}

/-- How many rows stand before those shown: what the last `start` says, or else the rows of the
pages before, where there are not too many of them to count. -/
def offset (selector : Selector) (pageNumber : Option Int) (count : Int) : Int :=
  match selector.lastValue? "start" with
  | some value => max (toInteger value) 0
  | none =>
    match pageNumber with
    | some page =>
      if InInt64 ((max page 1 - 1) * count) then (max page 1 - 1) * count else 0
    | none => 0

/-- The rows that the last `limit` shows. -/
def shown (selector : Selector) (pageNumber : Option Int) (rows : List α) : List α :=
  match selector.lastValue? "limit" with
  | some value =>
    if toInteger value ≤ 0 then rows
    else
      (rows.drop (selector.offset pageNumber (toInteger value)).toNat).take (toInteger value).toNat
  | none => rows

theorem start_window?_eq_offset (selector : Selector) (pageNumber : Option Int) (count : Int) :
    (match selector.lastValue? "start" with
      | some value => some (max (toInteger value) 0)
      | none => pageNumber.bind fun page => pageOffset? page count).getD 0 =
        selector.offset pageNumber count := by
  unfold offset
  cases selector.lastValue? "start" with
  | some value => rfl
  | none =>
      cases pageNumber with
      | none => rfl
      | some page =>
          dsimp only [Option.bind]
          rw [pageOffset?, checkInt64]
          split <;> rfl

theorem windowed_eq_shown {query : Query} {selector : Selector} {pageNumber : Option Int}
    (window : query.window = selector.window? pageNumber) (rows : List α) :
    query.windowed rows = selector.shown pageNumber rows := by
  rw [Query.windowed, window, window?, shown]
  cases selector.lastValue? "limit" with
  | none => rfl
  | some value =>
      dsimp only [Option.map]
      by_cases positive : 0 < toInteger value
      · rw [if_pos positive, if_neg (Int.not_le.2 positive), ← start_window?_eq_offset]
        rfl
      · rw [if_neg positive, if_pos (Int.not_lt.1 positive)]

theorem shown_page {selector : Selector} {value : String}
    (limit : selector.lastValue? "limit" = some value) (positive : 0 < toInteger value)
    (paged : selector.lastValue? "start" = none) {k : Nat}
    (inRange : k * toInteger value ≤ maxInt64) (rows : List α) :
    selector.shown (some (k + 1)) rows =
      (rows.drop (k * (toInteger value).toNat)).take (toInteger value).toNat := by
  have before : max ((k : Int) + 1) 1 - 1 = k := by omega
  have least : 0 ≤ k * toInteger value := Int.mul_nonneg (Int.natCast_nonneg k) (Int.le_of_lt positive)
  have counted : InInt64 (k * toInteger value) :=
    ⟨Int.le_trans (by decide) least, inRange⟩
  have skipped : (k * toInteger value).toNat = k * (toInteger value).toNat := by
    rw [Int.toNat_mul (Int.natCast_nonneg k) (Int.le_of_lt positive), Int.toNat_natCast]
  rw [shown, limit]
  dsimp only
  rw [if_neg (Int.not_le.2 positive), offset, paged]
  dsimp only
  rw [before, if_pos counted, skipped]

end Selector

theorem flatMap_pages {α : Type} (rows : List α) (count n : Nat) :
    (List.range n).flatMap (fun k => (rows.drop (k * count)).take count) =
      rows.take (n * count) := by
  induction n with
  | zero => simp
  | succ n induction =>
      rw [List.range_succ, List.flatMap_append, induction, List.flatMap_singleton, Nat.succ_mul,
        List.take_add]

/-! ### Terms on the status -/

namespace Selector

theorem lastValue?_withStatusBound (selector : Selector) (single : Bool) {field : String}
    (other : field ≠ "status") :
    (selector.withStatusBound single).lastValue? field = selector.lastValue? field := by
  have resolved : (selector.map Term.resolveStatus).filter (fun term => term.field = field) =
      selector.filter fun term => term.field = field := by
    have kept (term : Term) : term.resolveStatus.field = term.field := by
      unfold Term.resolveStatus
      split <;> rfl
    rw [List.filter_map]
    simp only [Function.comp_def, kept]
    refine (List.map_congr_left fun term member => ?_).trans (List.map_id _)
    have named : term.field = field := of_decide_eq_true (List.mem_filter.1 member).2
    rw [Term.resolveStatus, if_neg]
    · rfl
    · intro status
      have fields : term.fields = ["status"] := of_decide_eq_true status
      rw [Term.field, fields] at named
      exact other named.symm
  have bound (bounds : List Int) : (bounds.map fun bound =>
      Term.single "status" .less (toString bound)).filter (fun term => term.field = field) =
        [] := by
    rw [List.filter_eq_nil_iff, List.forall_mem_map]
    intro _ _ named
    exact other (of_decide_eq_true named).symm
  rw [lastValue?, withStatusBound, List.filter_append, resolved, bound, List.append_nil, lastValue?]

end Selector

@[simp]
theorem Store.execute_engine (store : Store) : store.engine.execute = store.execute :=
  rfl

@[simp]
theorem Store.foundRows_engine (store : Store) : store.engine.foundRows = store.foundRows :=
  rfl

namespace Finder

theorem lastValue?_prepare (finder : Finder) (selector : Selector) {field : String}
    (other : field ≠ "status") :
    (finder.prepare selector false).lastValue? field = selector.lastValue? field := by
  simp only [prepare, Bool.false_eq_true, if_false]
  split
  · exact selector.lastValue?_withStatusBound false other
  · rfl

theorem window?_prepare (finder : Finder) (selector : Selector) (pageNumber : Option Int) :
    (finder.prepare selector false).window? pageNumber = selector.window? pageNumber := by
  rw [Selector.window?, finder.lastValue?_prepare selector (by decide : "limit" ≠ "status"),
    finder.lastValue?_prepare selector (by decide : "start" ≠ "status"), ← Selector.window?]

/-! ### Finds -/

variable {schema : Schema} {store : Store} {finder : Finder} {selector : Selector}
  {now : Date.Moment} {pageNumber : Option Int}

theorem window_of_queryFor {query : Query}
    (compiled : finder.queryFor (store.catalog schema now pageNumber) selector false = .ok query) :
    query.window = selector.window? pageNumber := by
  rw [queryFor_eq_map_compile] at compiled
  obtain ⟨silent, isSilent, rfl⟩ := map_eq_ok.1 compiled
  obtain ⟨parts, -, rfl⟩ := map_eq_ok.1 isSilent
  exact finder.window?_prepare selector pageNumber

/-- The window comes back to what is compiled without it. -/
theorem queryFor_of_withoutWindow {query : Query}
    (shorter : finder.queryFor (store.catalog schema now pageNumber) selector.withoutWindow false =
      .ok query) :
    finder.queryFor (store.catalog schema now pageNumber) selector false =
      .ok { query with
        window := selector.window? pageNumber, comment := finder.commentFor selector } := by
  rw [queryFor_withoutWindow] at shorter
  obtain ⟨whole, compiled, rfl⟩ := map_eq_ok.1 shorter
  have window := window_of_queryFor compiled
  rw [compiled, ← window]
  rw [queryFor_eq_map_compile] at compiled
  obtain ⟨silent, -, rfl⟩ := map_eq_ok.1 compiled
  rfl

/-- A schema of words, and a comment that is none to anyone else: the statement says what the query
says. -/
theorem isPlain_of_queryFor (names : schema.HasWordNames) (reached : Store.Reachable schema store)
    (comment : isPlainComment (finder.commentFor selector).toList = true) {query : Query}
    (compiled : finder.queryFor (store.catalog schema now pageNumber) selector false = .ok query) :
    query.isPlain = true := by
  rw [queryFor_eq_map_compile] at compiled
  obtain ⟨silent, isSilent, rfl⟩ := map_eq_ok.1 compiled
  have words : ∀ join ∈ silent.joins, isWord join.aliasName = true :=
    Selector.isWord_compile reached.hasWordTables names isSilent
  rw [Query.isPlain, Bool.and_eq_true, List.all_eq_true]
  exact ⟨comment, words⟩

theorem resolveTotal_of_hasLimit {engine : Engine} {query : Query} {returned : Nat}
    (limited : query.hasLimit = true) :
    resolveTotal engine query returned false = (engine.foundRows query, [.foundRows]) := by
  rw [resolveTotal, limited]
  rfl

/-- What comes of a find whose statement is carried out and returns rows. -/
theorem find_of_execute {catalog : Catalog} {query : Query} {result : ResultSet} {total : Int}
    {requests : List Request}
    (compiled : finder.queryFor catalog selector false = .ok query)
    (executed : store.execute query = .ok result) (some : result.rows ≠ [])
    (resolved : resolveTotal store.engine query result.assemble.length false =
      (.ok total, requests)) :
    (finder.find catalog store.engine selector false).rows = .ok result.assemble ∧
      (finder.find catalog store.engine selector false).finder.total = total := by
  have isEmpty : ¬ result.rows.isEmpty = true := fun empty => some (List.isEmpty_iff.1 empty)
  unfold find
  simp only [compiled, store.execute_engine, executed, if_neg isEmpty, resolved, and_self]

theorem find_rows_of_queryFor_error {catalog : Catalog} {engine : Engine} {single : Bool}
    {error : Error} (failed : finder.queryFor catalog selector single = .error error) :
    (finder.find catalog engine selector single).rows = .error error := by
  unfold find
  rw [failed]

theorem find_rows_of_runnablePlan?_eq_none {catalog : Catalog} {query : Query}
    (plain : query.isPlain = true) (stuck : store.runnablePlan? query = none)
    (compiled : finder.queryFor catalog selector false = .ok query) :
    (finder.find catalog store.engine selector false).rows =
      .error (.database .rejectedStatement) :=
  find_rows_of_error compiled (Store.execute_of_runnablePlan?_eq_none plain stuck)

theorem exists_resolveTotal_eq {query : Query} {plan : Plan} (plain : query.isPlain = true)
    (runnable : store.runnablePlan? query = some plan) :
    ∃ requests, resolveTotal store.engine query (plan.resultSet query).assemble.length false =
      (.ok (plan.groupedRows query).length, requests) := by
  have counted : store.engine.foundRows query = .ok (plan.groupedRows query).length :=
    Store.foundRows_of_runnablePlan? plain runnable
  rw [resolveTotal, counted]
  split
  · exact ⟨_, rfl⟩
  · next unlimited =>
    have windowless : query.window = none := by
      simpa [Query.hasLimit] using unlimited
    rw [ResultSet.assemble, List.length_map, plan.length_rows_resultSet query windowless]
    exact ⟨_, rfl⟩

/-- What comes of a find whose query can be carried out: its rows, and as their total the number of
rows without the window. -/
theorem find_of_runnablePlan? {catalog : Catalog} {query : Query} {plan : Plan}
    (plain : query.isPlain = true) (runnable : store.runnablePlan? query = some plan)
    (compiled : finder.queryFor catalog selector false = .ok query) :
    (finder.find catalog store.engine selector false).rows =
        .ok (plan.resultSet query).assemble ∧
      ((plan.resultSet query).assemble ≠ [] →
        (finder.find catalog store.engine selector false).finder.total =
          (plan.groupedRows query).length) := by
  have executed : store.engine.execute query = .ok (plan.resultSet query) :=
    Store.execute_of_runnablePlan? plain runnable
  obtain ⟨requests, resolved⟩ := exists_resolveTotal_eq plain runnable
  by_cases empty : (plan.resultSet query).rows = []
  · have none : (plan.resultSet query).assemble = [] := by
      rw [ResultSet.assemble, empty, List.map_nil]
    refine ⟨?_, fun some => absurd none some⟩
    rw [none, find, compiled]
    simp only [executed, empty, List.isEmpty_nil, if_true]
  · have found := find_of_execute compiled executed empty resolved
    exact ⟨found.1, fun _ => found.2⟩

theorem queryFor_withoutWindow_pageNumber (finder : Finder) (catalog : Catalog)
    (selector : Selector) (pageNumber : Option Int) :
    finder.queryFor { catalog with pageNumber } selector.withoutWindow false =
      finder.queryFor catalog selector.withoutWindow false := by
  rw [queryFor_eq_map_compile, queryFor_eq_map_compile, Selector.compile_pageNumber,
    window?_prepare, Selector.window?_withoutWindow, prepare_withoutWindow,
    Selector.compile_withoutWindow]
  cases (finder.prepare selector false).compile catalog with
  | error error => rfl
  | ok query => rfl

section Windows

variable (names : schema.HasWordNames) (reached : Store.Reachable schema store)
  (comment : isPlainComment (finder.commentFor selector).toList = true)

include names reached comment

theorem find_rows_eq_map_shown :
    (finder.find (store.catalog schema now pageNumber) store.engine selector false).rows =
      (finder.find (store.catalog schema now pageNumber) store.engine selector.withoutWindow
        false).rows.map (selector.shown pageNumber) := by
  cases compiled : finder.queryFor (store.catalog schema now pageNumber) selector false with
  | error error =>
      have shorter : finder.queryFor (store.catalog schema now pageNumber)
          selector.withoutWindow false = .error error := by
        rw [queryFor_withoutWindow, compiled]
        rfl
      rw [find_rows_of_queryFor_error compiled, find_rows_of_queryFor_error shorter]
      rfl
  | ok query =>
      have shorter := queryFor_withoutWindow_of_ok compiled
      have plain := isPlain_of_queryFor names reached comment compiled
      have plainer := isPlain_of_queryFor names reached
        (isPlainComment_commentFor_withoutWindow comment) shorter
      cases runnable : store.runnablePlan? query with
      | none =>
          rw [find_rows_of_runnablePlan?_eq_none plain runnable compiled,
            find_rows_of_runnablePlan?_eq_none plainer runnable shorter]
          rfl
      | some plan =>
          rw [(find_of_runnablePlan? plain runnable compiled).1,
            (find_of_runnablePlan? plainer runnable shorter).1,
            plan.assemble_resultSet_eq query (finder.commentFor selector.withoutWindow),
            Selector.windowed_eq_shown (window_of_queryFor compiled)]
          rfl

/-- The first `n` pages of a selector, one find for each, hold its first rows. -/
theorem exists_mapM_find_pages {full : List Row}
    (found : (finder.find (store.catalog schema now none) store.engine selector.withoutWindow
      false).rows = .ok full)
    {value : String} (limit : selector.lastValue? "limit" = some value)
    (positive : 0 < toInteger value) (paged : selector.lastValue? "start" = none) {n : Nat}
    (inRange : (n - 1) * toInteger value ≤ maxInt64) :
    ∃ pages : List (List Row),
      (List.range n).mapM (fun k : Nat =>
        (finder.find (store.catalog schema now (some (k + 1))) store.engine selector
          false).rows) = .ok pages ∧
      pages.flatten = full.take (n * (toInteger value).toNat) := by
  refine ⟨(List.range n).map fun k =>
    (full.drop (k * (toInteger value).toNat)).take (toInteger value).toNat, ?_, ?_⟩
  · rw [mapM_eq_ok, List.forall₂_map_right_iff, List.forall₂_same]
    intro k member
    have least := List.mem_range.1 member
    have near : (k : Int) * toInteger value ≤ maxInt64 :=
      Int.le_trans (Int.mul_le_mul_of_nonneg_right (by omega) (Int.le_of_lt positive)) inRange
    have same : (finder.find (store.catalog schema now (some (k + 1))) store.engine
        selector.withoutWindow false).rows = .ok full := by
      have numbered := finder.queryFor_withoutWindow_pageNumber (store.catalog schema now none)
        selector (some (k + 1))
      have twice : (finder.find (store.catalog schema now (some (k + 1))) store.engine
          selector.withoutWindow false) = finder.find (store.catalog schema now none) store.engine
            selector.withoutWindow false := by
        unfold find
        rw [← numbered]
        rfl
      rw [twice, found]
    rw [find_rows_eq_map_shown names reached comment, same]
    exact congrArg Except.ok (Selector.shown_page limit positive paged near full)
  · rw [← List.flatMap_def, flatMap_pages]

/-- A find shows the rows that its `limit` and `start` terms ask for of those that it returns without
these terms, and the pages of a selector follow one another without a gap. -/
theorem find_window :
    (∀ pageNumber,
      (finder.find (store.catalog schema now pageNumber) store.engine selector false).rows =
        (finder.find (store.catalog schema now pageNumber) store.engine selector.withoutWindow
          false).rows.map (selector.shown pageNumber)) ∧
    ∀ (full : List Row) (value : String),
      (finder.find (store.catalog schema now none) store.engine selector.withoutWindow
        false).rows = .ok full →
      selector.lastValue? "limit" = some value → 0 < toInteger value →
      selector.lastValue? "start" = none →
      ∀ n : Nat, (n - 1) * toInteger value ≤ maxInt64 →
        ∃ pages : List (List Row),
          (List.range n).mapM (fun k : Nat =>
            (finder.find (store.catalog schema now (some (k + 1))) store.engine selector
              false).rows) = .ok pages ∧
          pages.flatten = full.take (n * (toInteger value).toNat) :=
  ⟨fun _ => find_rows_eq_map_shown names reached comment,
    fun _ _ found limit positive paged _ inRange =>
      exists_mapM_find_pages names reached comment found limit positive paged inRange⟩

end Windows

end Finder

/-- The query for all pages that are no drafts and not hidden. -/
def ordinaryQuery : Query :=
  { joins := []
    conjuncts := [.enclosed (.test (.compare ⟨"pages", "status"⟩ .less (.digits "1024")))]
    scores := [], orders := [], window := none, comment := "" }

theorem Finder.queryFor_nil :
    Finder.new.queryFor (titledStore.catalog titleSchema ⟨0, false⟩ none) [] false =
      .ok ordinaryQuery := rfl

theorem Finder.find_window_titledStore :
    ∃ selector full pages, Selector.read "limit=1" = .ok selector ∧
      (Finder.new.find (titledStore.catalog titleSchema ⟨0, false⟩ none) titledStore.engine
        selector.withoutWindow false).rows = .ok full ∧ full.length = 2 ∧
      (List.range 2).mapM (fun k : Nat =>
        (Finder.new.find (titledStore.catalog titleSchema ⟨0, false⟩ (some (k + 1)))
          titledStore.engine selector false).rows) = .ok pages ∧
      pages.flatten = full := by
  let term : Term :=
    { fields := ["limit"], values := ["1"], operator := .equal, negated := false
      text := "limit=1" }
  let plan : Plan := ⟨[], [], titledStore.baseSource⟩
  have parsed : Selector.read "limit=1" = .ok [term] := rfl
  have windowless : Selector.withoutWindow [term] = [] := rfl
  have compiled : Finder.new.queryFor (titledStore.catalog titleSchema ⟨0, false⟩ none)
      (Selector.withoutWindow [term]) false = .ok ordinaryQuery := windowless ▸ queryFor_nil
  have runnable : titledStore.runnablePlan? ordinaryQuery = some plan := rfl
  have found := (find_of_runnablePlan? (by decide) runnable compiled).1
  have both : (plan.groupedRows ordinaryQuery).length = 2 := by decide
  have length : (plan.resultSet ordinaryQuery).assemble.length = 2 := by
    rw [ResultSet.assemble, List.length_map, plan.length_rows_resultSet ordinaryQuery rfl, both]
  obtain ⟨pages, turned, flat⟩ := (find_window (by decide) Store.reachable_titledStore
    (by decide)).2 _ "1" found rfl (by decide) rfl 2 (by decide)
  refine ⟨[term], _, pages, parsed, found, length, turned, flat.trans ?_⟩
  exact List.take_of_length_le length.le

/-! ### Names that open a comment -/

/-- A finder that leaves the status of pages alone. -/
def Finder.anyStatus : Finder :=
  { Finder.new with checkStatus := false }

def unclosedSchema : Schema :=
  [("a/*", { kind := "text", table := some "t", label := none }),
    ("b LIMIT 1/*", { kind := "text", table := some "t", label := none })]

def unclosedCatalog : Catalog :=
  unclosedStore.catalog unclosedSchema ⟨0, false⟩ none

theorem Store.reachable_unclosedStore : Store.Reachable unclosedSchema unclosedStore := by
  let fresh : Store :=
    { Store.new ⟨0, false⟩ with tables := [⟨"t", .text, []⟩], indexes := unclosedStore.indexes }
  have made : (Store.new ⟨0, false⟩).ensureTables unclosedSchema.fields = (fresh, .ok ()) := rfl
  have inserted : fresh.insertPage ⟨0, false⟩ (.named 1 "about") = .ok (2, unclosedStore) := rfl
  exact (Reachable.fresh made).insertPage inserted

namespace Unclosed

def selector : Selector :=
  [{ fields := ["sort"], values := ["a/*"], operator := .equal, negated := false
     text := "sort=a/*" },
    { fields := ["sort"], values := ["b LIMIT 1/*"], operator := .equal, negated := false
      text := "sort=b LIMIT 1/*" },
    { fields := ["id"], values := ["*/,(SELECT 1 AS _sort_b) --"], operator := .notEqual
      negated := false, text := "id!='*/,(SELECT 1 AS _sort_b) --'" },
    { fields := ["start"], values := ["1"], operator := .equal, negated := false
      text := "start=1" },
    { fields := ["limit"], values := ["1"], operator := .equal, negated := false
      text := "limit=1" }]

theorem read_selector :
    Selector.read
      "sort=a/*, sort=b LIMIT 1/*, id!='*/,(SELECT 1 AS _sort_b) --', start=1, limit=1" =
        .ok selector :=
  rfl

def row : Row :=
  Row.ofCells [("id", .integer 1), ("templates_id", .integer 0)]

theorem find_selector :
    (Finder.anyStatus.find unclosedCatalog unclosedStore.engine selector.withoutWindow false).rows =
        .ok [row] ∧
      (Finder.anyStatus.find unclosedCatalog unclosedStore.engine selector false).rows =
        .ok [row] ∧
      (Finder.anyStatus.find unclosedCatalog unclosedStore.engine selector false).finder.total =
        2 := by
  have shorter : Finder.anyStatus.queryFor unclosedCatalog selector.withoutWindow false =
      .ok (unclosedQuery none) := rfl
  have window : selector.window? none = some ⟨some 1, 1⟩ := by decide
  have compiled : Finder.anyStatus.queryFor unclosedCatalog selector false =
      .ok (unclosedQuery (some ⟨some 1, 1⟩)) := by
    rw [unclosedCatalog, Finder.queryFor_of_withoutWindow shorter, window]
    rfl
  have counted : Finder.resolveTotal unclosedStore.engine (unclosedQuery (some ⟨some 1, 1⟩)) 1
      false = (.ok 2, [.foundRows]) := by
    rw [Finder.resolveTotal_of_hasLimit rfl, Store.foundRows_engine, foundRows_unclosedQuery]
  exact ⟨(Finder.find_of_execute shorter (execute_unclosedQuery tokens_whole) (by simp) rfl).1,
    Finder.find_of_execute compiled (execute_unclosedQuery tokens_windowed) (by simp) counted⟩

end Unclosed

/-- The engine reads what is written: where the name of a field opens a comment, the window may stand
in it, and a find returns a page that its window leaves out. -/
theorem Finder.find_window_unclosedStore :
    ∃ selector full rows, Store.Reachable unclosedSchema unclosedStore ∧
      Selector.read
        "sort=a/*, sort=b LIMIT 1/*, id!='*/,(SELECT 1 AS _sort_b) --', start=1, limit=1" =
          .ok selector ∧
      (Finder.anyStatus.find unclosedCatalog unclosedStore.engine selector.withoutWindow
        false).rows = .ok full ∧
      (Finder.anyStatus.find unclosedCatalog unclosedStore.engine selector false).rows = .ok rows ∧
      rows.length = 1 ∧ selector.shown none full = [] := by
  obtain ⟨whole, windowed, -⟩ := Unclosed.find_selector
  have limit : Unclosed.selector.lastValue? "limit" = some "1" := by decide
  have start : Unclosed.selector.lastValue? "start" = some "1" := by decide
  refine ⟨Unclosed.selector, _, _, Store.reachable_unclosedStore, Unclosed.read_selector, whole,
    windowed, rfl, ?_⟩
  rw [Selector.shown, limit]
  dsimp only
  rw [Selector.offset, start]
  decide

end PageTree
