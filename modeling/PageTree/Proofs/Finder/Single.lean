import PageTree.Proofs.Finder.History
import PageTree.Proofs.Finder.Window

/-!
Lookups of one page. Main statement: a lookup of one page answers with the first row of a find
without its `limit` and `start` terms, whatever these and the page number ask for, and shows the
window of that row and the number of rows it returned.
-/

namespace PageTree

open Number Sql

namespace Selector

variable {α : Type}

theorem withoutWindow_withSingleWindow (selector : Selector) :
    selector.withSingleWindow.withoutWindow = selector.withoutWindow := by
  rw [withSingleWindow, withoutWindow_append]
  exact List.append_nil _

/-- The window of a lookup stands last, so no other term decides it. -/
theorem lastValue?_withSingleWindow (selector : Selector) :
    selector.withSingleWindow.lastValue? "start" = some "0" ∧
      selector.withSingleWindow.lastValue? "limit" = some "1" := by
  simp [withSingleWindow, lastValue?, Term.single, Term.field, Term.value]

theorem window?_withSingleWindow (selector : Selector) (pageNumber : Option Int) :
    selector.withSingleWindow.window? pageNumber = some ⟨some 0, 1⟩ := by
  obtain ⟨start, limit⟩ := selector.lastValue?_withSingleWindow
  have counted : toInteger "1" = 1 := by decide
  rw [window?, start, limit, Option.map_some, counted]
  rfl

theorem shown_withSingleWindow (selector : Selector) (pageNumber : Option Int) (rows : List α) :
    selector.withSingleWindow.shown pageNumber rows = rows.take 1 := by
  obtain ⟨start, limit⟩ := selector.lastValue?_withSingleWindow
  have skipped : selector.withSingleWindow.offset pageNumber (toInteger "1") = 0 := by
    unfold offset
    rw [start]
    rfl
  have counted : toInteger "1" = 1 := by decide
  rw [shown, limit]
  dsimp only
  rw [skipped, counted]
  exact if_neg (by decide)

end Selector

namespace Finder

variable {finder : Finder} {selector : Selector}

/-! ### Compilation -/

/-- Where the status is left alone, a lookup of one page differs in its window. -/
theorem prepare_single (unchecked : finder.checkStatus = false) (selector : Selector) :
    finder.prepare selector true = finder.prepare selector.withSingleWindow false := by
  simp [prepare, unchecked]

theorem queryFor_single (unchecked : finder.checkStatus = false) (catalog : Catalog)
    (selector : Selector) :
    finder.queryFor catalog selector true =
      finder.queryFor catalog selector.withSingleWindow false := by
  rw [queryFor, queryFor, prepare_single unchecked]

theorem isPlainComment_commentFor_single (unchecked : finder.checkStatus = false)
    (comment : isPlainComment (finder.commentFor selector).toList = true) :
    isPlainComment (finder.commentFor selector.withSingleWindow).toList = true := by
  rw [isPlainComment_commentFor_iff, prepare_of_unchecked unchecked] at comment ⊢
  intro debug
  rw [Selector.withSingleWindow, List.forall_mem_append]
  refine ⟨comment debug, ?_⟩
  decide

/-! ### Answers -/

/-- What a lookup of one page answers, and the finder after it. -/
def findOne (finder : Finder) (catalog : Catalog) (engine : Engine) (selector : Selector) :
    Except Error (Option Row) × Finder :=
  let found := finder.find catalog engine selector true
  (found.rows.map List.head?, found.finder)

theorem fst_findOne (finder : Finder) (catalog : Catalog) (engine : Engine) (selector : Selector) :
    (finder.findOne catalog engine selector).1 =
      (finder.find catalog engine selector true).rows.map List.head? :=
  rfl

theorem snd_findOne (finder : Finder) (catalog : Catalog) (engine : Engine) (selector : Selector) :
    (finder.findOne catalog engine selector).2 =
      (finder.find catalog engine selector true).finder :=
  rfl

/-- No rows are counted for a lookup of one page: its total is the number of those returned. -/
theorem shows_of_single {catalog : Catalog} {engine : Engine} {query : Query} {rows : List Row}
    (compiled : finder.queryFor catalog selector true = .ok query)
    (found : (finder.find catalog engine selector true).rows = .ok rows) :
    (finder.find catalog engine selector true).finder.Shows rows.length query.limit
      query.start := by
  unfold find at found ⊢
  rw [compiled] at found ⊢
  dsimp only at found ⊢
  cases executed : engine.execute query with
  | error error =>
      rw [executed] at found
      cases found
  | ok result =>
      rw [executed] at found
      dsimp only [resolveTotal] at found ⊢
      split
      · next empty =>
        rw [if_pos empty] at found
        cases found
        exact ⟨rfl, rfl, rfl⟩
      · next some =>
        rw [if_neg some] at found
        cases found
        exact ⟨rfl, rfl, rfl⟩

section Lookups

variable {schema : Schema} {store : Store} {now : Date.Moment} {pageNumber : Option Int}
  (names : schema.HasWordNames) (reached : Store.Reachable schema store)
  (unchecked : finder.checkStatus = false)
  (comment : isPlainComment (finder.commentFor selector).toList = true)

include names reached unchecked comment

theorem find_single_rows :
    (finder.find (store.catalog schema now pageNumber) store.engine selector true).rows =
      (finder.find (store.catalog schema now pageNumber) store.engine selector.withoutWindow
        false).rows.map (List.take 1) := by
  have same := queryFor_single unchecked (store.catalog schema now pageNumber) selector
  have windowed := isPlainComment_commentFor_single unchecked comment
  have shown :
      (finder.find (store.catalog schema now pageNumber) store.engine selector.withSingleWindow
        false).rows =
        (finder.find (store.catalog schema now pageNumber) store.engine
          selector.withSingleWindow.withoutWindow false).rows.map
            (selector.withSingleWindow.shown pageNumber) :=
    find_rows_eq_map_shown names reached windowed
  have taken : selector.withSingleWindow.shown pageNumber = (List.take 1 : List Row → List Row) :=
    funext (selector.shown_withSingleWindow pageNumber)
  rw [selector.withoutWindow_withSingleWindow, taken] at shown
  rw [← shown]
  cases compiled : finder.queryFor (store.catalog schema now pageNumber) selector true with
  | error error =>
      rw [find_rows_of_queryFor_error compiled,
        find_rows_of_queryFor_error (same.symm.trans compiled)]
  | ok query =>
      have plain := isPlain_of_queryFor names reached windowed (same.symm.trans compiled)
      cases runnable : store.runnablePlan? query with
      | none =>
          have stuck := Store.execute_of_runnablePlan?_eq_none plain runnable
          rw [find_rows_of_error compiled stuck,
            find_rows_of_error (same.symm.trans compiled) stuck]
      | some plan =>
          rw [(find_of_runnablePlan? plain runnable (same.symm.trans compiled)).1]
          exact find_rows compiled (Store.execute_of_runnablePlan? plain runnable) rfl

/-- A lookup of one page answers with the first row of a find without the window of its selector,
and fails where that does. -/
theorem findOne_eq :
    (finder.findOne (store.catalog schema now pageNumber) store.engine selector).1 =
        (finder.find (store.catalog schema now pageNumber) store.engine selector.withoutWindow
          false).rows.map List.head? ∧
      ∀ row?, (finder.findOne (store.catalog schema now pageNumber) store.engine selector).1 =
          .ok row? →
        (finder.findOne (store.catalog schema now pageNumber) store.engine selector).2.Shows
          row?.toList.length 1 0 := by
  have rows :
      (finder.find (store.catalog schema now pageNumber) store.engine selector true).rows =
        (finder.find (store.catalog schema now pageNumber) store.engine selector.withoutWindow
          false).rows.map (List.take 1) :=
    find_single_rows names reached unchecked comment
  constructor
  · rw [fst_findOne, rows]
    cases (finder.find (store.catalog schema now pageNumber) store.engine selector.withoutWindow
        false).rows with
    | error error => rfl
    | ok full => exact congrArg Except.ok (List.head?_take ..)
  · intro row? found
    obtain ⟨returned, isReturned, rfl⟩ := map_eq_ok.1 found
    obtain ⟨query, -, compiled, -⟩ := exists_of_find_ok isReturned
    have window : query.window = some ⟨some 0, 1⟩ := by
      rw [queryFor_single unchecked] at compiled
      rw [window_of_queryFor compiled, selector.window?_withSingleWindow]
    have shows := shows_of_single compiled isReturned
    rw [Query.limit, Query.start, window] at shows
    rw [isReturned] at rows
    obtain ⟨full, -, rfl⟩ := map_eq_ok.1 rows.symm
    cases full with
    | nil => exact shows
    | cons row full => exact shows

end Lookups

theorem findOne_titledStore :
    ∃ selector full row, Selector.read "start=1, limit=5" = .ok selector ∧
      (anyStatus.find (titledStore.catalog titleSchema ⟨0, false⟩ (some 3)) titledStore.engine
        selector.withoutWindow false).rows = .ok full ∧ full.length = 2 ∧ full.head? = some row ∧
      (anyStatus.findOne (titledStore.catalog titleSchema ⟨0, false⟩ (some 3)) titledStore.engine
        selector).1 = .ok (some row) ∧
      (anyStatus.findOne (titledStore.catalog titleSchema ⟨0, false⟩ (some 3)) titledStore.engine
        selector).2.Shows 1 1 0 := by
  let selector : Selector :=
    [{ fields := ["start"], values := ["1"], operator := .equal, negated := false
       text := "start=1" },
      { fields := ["limit"], values := ["5"], operator := .equal, negated := false
        text := "limit=5" }]
  let query : Query :=
    { joins := [], conjuncts := [], scores := [], orders := [], window := none, comment := "" }
  let plan : Plan := ⟨[], [], titledStore.baseSource⟩
  have parsed : Selector.read "start=1, limit=5" = .ok selector := rfl
  have compiled : anyStatus.queryFor (titledStore.catalog titleSchema ⟨0, false⟩ (some 3))
      selector.withoutWindow false = .ok query := rfl
  have runnable : titledStore.runnablePlan? query = some plan := rfl
  have found := (find_of_runnablePlan? (by decide) runnable compiled).1
  have both : (plan.groupedRows query).length = 2 := by decide +kernel
  have length : (plan.resultSet query).assemble.length = 2 := by
    rw [ResultSet.assemble, List.length_map, plan.length_rows_resultSet query rfl, both]
  obtain ⟨row, others, rows⟩ := List.exists_cons_of_length_pos (length ▸ Nat.two_pos)
  have first : (plan.resultSet query).assemble.head? = some row := by rw [rows, List.head?_cons]
  obtain ⟨answer, shows⟩ : (anyStatus.findOne (titledStore.catalog titleSchema ⟨0, false⟩ (some 3))
      titledStore.engine selector).1 = _ ∧ _ :=
    findOne_eq (by decide) Store.reachable_titledStore rfl (by decide)
  have one : (anyStatus.findOne (titledStore.catalog titleSchema ⟨0, false⟩ (some 3))
      titledStore.engine selector).1 = .ok (some row) := by
    rw [answer, found]
    exact congrArg Except.ok first
  exact ⟨selector, _, row, parsed, found, length, first, one, shows _ one⟩

end Finder

/-! ### A comment that is not closed -/

namespace Unclosed

/-- All pages in an order by a field whose name opens a comment, with a value that closes it and
opens another. -/
def endlessSelector : Selector :=
  [{ fields := ["sort"], values := ["a/*"], operator := .equal, negated := false
     text := "sort=a/*" },
    { fields := ["id"], values := ["*/ /*"], operator := .notEqual, negated := false
      text := "id!='*/ /*'" }]

def endlessQuery (window : Option Window) : Query :=
  { joins := [⟨.left, "t", "_sort_a/*", pageLink "_sort_a/*"⟩]
    conjuncts := [.enclosed (.test (.compare Query.idColumn .notEqual (.text "*/ /*")))]
    scores := []
    orders := [⟨.column ⟨"_sort_a/*", "data"⟩, false⟩]
    window
    comment := "" }

/-- What its statement is read as: neither a condition nor an order nor a window. -/
def endlessCore : Core :=
  .select false [.expression (pageColumn "id") none, .expression (pageColumn "templates_id") none]
    [.mk false (.table "pages") "pages" none, .mk true (.table "t") "_sort_a" none] none [] none

def endlessGrid : Grid :=
  { headings := pageGrid.headings ++ fieldHeadings
    rows := pageGrid.rows.map fun row => row ++ Grid.missingRow fieldHeadings }

def endlessScope (row : List Value) : Scope :=
  { headings := endlessGrid.headings, row, labels := [], group := none }

def endlessExtract : Extract :=
  { source := endlessGrid.headings
    outputs := [⟨pageColumn "id", none⟩, ⟨pageColumn "templates_id", none⟩]
    rows := endlessGrid.rows.zipWith (fun row id => (endlessScope row, [.integer id, .integer 0]))
      [1, 2]
    missing := endlessScope (Grid.missingRow endlessGrid.headings) }

theorem extract?_endlessCore (n : Nat) :
    Selection.extract? unclosedStore.source? (n + 7) [] endlessCore [] = some endlessExtract :=
  rfl

theorem grid?_endlessCore (n : Nat) :
    Selection.grid? unclosedStore.source? (n + 8) [] (.mk endlessCore [] [] none none) =
      some { headings, rows := [[.integer 1, .integer 0], [.integer 2, .integer 0]] } :=
  Selection.grid?_of_extract? (extract?_endlessCore n)

def endlessText : String :=
  "WHERE (pages.id!='*/ /*')\nGROUP BY pages.id\nORDER BY _sort_a/*.data"

def endlessTokens : List Token :=
  [.word "SELECT", .word "pages", .mark ".", .word "id", .mark ",", .word "pages", .mark ".",
    .word "templates_id", .word "FROM", .name "pages", .word "LEFT", .word "JOIN", .word "t",
    .word "AS", .word "_sort_a"]

theorem tokens_endlessQuery :
    tokens (endlessQuery none).statement.withoutFoundRows.render = endlessTokens := by
  have spelled : (endlessQuery none).statement.withoutFoundRows.render =
      headText ++ joinText ++ endlessText := by
    decide +kernel
  rw [spelled, tokens, String.toList_append, String.toList_append, headText, joinText, endlessText]
  iterate 3 rw [String.toList_ofList]
  decide +kernel

theorem tokens_endlessQuery_single :
    tokens (endlessQuery (some ⟨some 0, 1⟩)).statement.withoutFoundRows.render = endlessTokens := by
  have spelled : (endlessQuery (some ⟨some 0, 1⟩)).statement.withoutFoundRows.render =
      headText ++ joinText ++ endlessText ++ "\nLIMIT 0,1" := by
    decide +kernel
  rw [spelled, tokens, String.toList_append, String.toList_append, String.toList_append, headText,
    joinText, endlessText]
  iterate 4 rw [String.toList_ofList]
  decide +kernel

def endlessResult : ResultSet :=
  { columns := ["id", "templates_id"]
    rows := [[.integer 1, .integer 0], [.integer 2, .integer 0]] }

theorem execute_endlessQuery {window : Option Window}
    (spelled : tokens (endlessQuery window).statement.withoutFoundRows.render = endlessTokens) :
    unclosedStore.execute (endlessQuery window) = .ok endlessResult := by
  have mixed : (endlessQuery window).isPlain = false := by
    change (endlessQuery none).isPlain = false
    decide
  have small : (endlessQuery window).isWithinLimits = true := by
    change (endlessQuery none).isWithinLimits = true
    decide
  have read : Select.read? (endlessQuery window).statement.withoutFoundRows.render =
      some (.mk endlessCore [] [] none none) := by
    rw [Select.read?, spelled]
    rfl
  exact Store.execute_of_answer? mixed small
    (Store.answer?_of_read? read fun n => grid?_endlessCore (n + 8))

theorem find_endlessSelector :
    (Finder.anyStatus.find unclosedCatalog unclosedStore.engine endlessSelector false).rows =
        .ok endlessResult.assemble ∧
      (Finder.anyStatus.findOne unclosedCatalog unclosedStore.engine endlessSelector).1 =
        .ok endlessResult.assemble.head? ∧
      (Finder.anyStatus.findOne unclosedCatalog unclosedStore.engine endlessSelector).2.total =
        2 := by
  have whole : Finder.anyStatus.queryFor unclosedCatalog endlessSelector false =
      .ok (endlessQuery none) := rfl
  have single : Finder.anyStatus.queryFor unclosedCatalog endlessSelector true =
      .ok (endlessQuery (some ⟨some 0, 1⟩)) := by
    have shorter : Finder.anyStatus.queryFor unclosedCatalog
        endlessSelector.withSingleWindow.withoutWindow false = .ok (endlessQuery none) := whole
    rw [Finder.queryFor_single rfl, unclosedCatalog, Finder.queryFor_of_withoutWindow shorter,
      Selector.window?_withSingleWindow]
    rfl
  have executed {window : Option Window}
      (spelled : tokens (endlessQuery window).statement.withoutFoundRows.render = endlessTokens) :
      unclosedStore.engine.execute (endlessQuery window) = .ok endlessResult := by
    rw [Store.execute_engine, execute_endlessQuery spelled]
  have found := Finder.find_rows single (executed tokens_endlessQuery_single) rfl
  have counted := (Finder.shows_of_single single found).1
  have two : endlessResult.assemble.length = 2 := rfl
  refine ⟨Finder.find_rows whole (executed tokens_endlessQuery) rfl, ?_, ?_⟩
  · rw [Finder.fst_findOne, found, Except.map]
  · rw [Finder.snd_findOne, counted, two]
    rfl

end Unclosed

/-- Where the name of a field opens a comment that nothing closes, the window of a lookup stands in
it: the engine returns more than one row, and all of them are counted. -/
theorem Finder.findOne_unclosedStore :
    ∃ selector full, Store.Reachable unclosedSchema unclosedStore ∧
      Selector.read "sort=a/*, id!='*/ /*'" = .ok selector ∧ selector.withoutWindow = selector ∧
      (anyStatus.find unclosedCatalog unclosedStore.engine selector false).rows = .ok full ∧
      (anyStatus.findOne unclosedCatalog unclosedStore.engine selector).1 = .ok full.head? ∧
      (anyStatus.findOne unclosedCatalog unclosedStore.engine selector).2.total = 2 := by
  obtain ⟨whole, one, total⟩ := Unclosed.find_endlessSelector
  exact ⟨Unclosed.endlessSelector, _, Store.reachable_unclosedStore, rfl, rfl, whole, one, total⟩

end PageTree
