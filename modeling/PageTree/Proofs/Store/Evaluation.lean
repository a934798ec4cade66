import Mathlib.Data.Option.Basic
import PageTree.Proofs.Store.Window

/-!
What plain selects yield when they are read from their text. Main statement: a select that counts
the rows of another yields their number.
-/

namespace PageTree

open Sql

namespace Sql

theorem KeyOrder.sorted_eq_self {α : Type} {orders : List KeyOrder} {key : α → List Value}
    {items : List α}
    (ordered : items.Pairwise fun a b => compareKeys orders (key a) (key b) ≠ .gt) :
    sorted orders key items = items := by
  unfold sorted
  exact List.mergeSort_of_pairwise (by simpa using ordered)

theorem mapM_some {α β : Type} (f : α → β) (items : List α) :
    items.mapM (fun item => some (f item)) = some (items.map f) :=
  List.mapM_pure

theorem filterAuxM_some_true {α : Type} (items kept : List α) :
    items.filterAuxM (fun _ => some true) kept = some (items.reverse ++ kept) := by
  induction items generalizing kept with
  | nil => rfl
  | cons item items induction =>
      rw [List.filterAuxM]
      simp [induction]

theorem filterM_some_true {α : Type} (items : List α) :
    items.filterM (fun _ => some true) = some items := by
  rw [List.filterM, filterAuxM_some_true]
  simp

namespace Selection

variable {tables : String → Option Table} {n : Nat} {scopes : List Scope}

theorem grid?_of_extract? {core : Core} {extract : Extract}
    (extracted : extract? tables n scopes core [] = some extract) :
    grid? tables (n + 1) scopes (.mk core [] [] none none) =
      some
        { headings := extract.outputs.map fun output =>
            { table := "", name := output.name extract.source
              affinity := output.expression.affinity? n (extract.missing :: scopes)
              isHidden := false, isStored := false : Heading }
          rows := extract.rows.map Prod.snd } := by
  have kept : KeyOrder.sorted [] Prod.fst (extract.rows.map fun entry => ([], entry.2)) =
      extract.rows.map fun entry => (([] : List Value), entry.2) :=
    KeyOrder.sorted_eq_self (List.pairwise_of_forall fun _ _ => by simp [KeyOrder.compareKeys])
  rw [grid?]
  simp only [Option.toList_none, List.mapM_nil, List.isEmpty_nil, if_true, List.map_nil, extracted,
    Option.bind_eq_bind, Option.bind_some, Option.pure_def, Option.map_some, mapM_some, kept]
  simp [limited]

theorem joined?_select_unit {select : Select} {grid : Grid}
    (inner : grid? tables n scopes select = some grid) :
    joined? tables (n + 1) scopes (Grid.unit, []) (.mk false (.select select) "" none) =
      some (grid.named "", []) := by
  rw [joined?]
  simp only [inner, Option.map_some, Option.bind_eq_bind, Option.bind_some, Option.toList_none,
    List.mapM_nil, Option.pure_def, List.all_nil, Option.isSome_some, Bool.true_or, guard, if_true,
    Bool.false_eq_true, if_false, filterM_some_true]
  simp [Grid.unit, Grid.named]

theorem exists_extract?_countRows {select : Select} {grid : Grid}
    (inner : grid? tables n scopes select = some grid) :
    ∃ extract,
      extract? tables (n + 2) scopes
        (.select false [.expression .countRows none] [.mk false (.select select) "" none] none []
          none) [] = some extract ∧
      extract.outputs = [⟨.countRows, none⟩] ∧
      extract.rows.map Prod.snd = [[.integer grid.rows.length]] := by
  have listed : (List.mapM (Output.ofListed? (grid.named "").headings)
      [.expression .countRows none]).map List.flatten = some [⟨.countRows, none⟩] := rfl
  have gathered : Expression.countRows.gathers (n + 1) = true := rfl
  have calm : Expression.countRows.extremes (n + 1) = [] := rfl
  rw [extract?]
  -- All rows are one group: the count is gathered from them and no key is given.
  simp only [List.foldlM_cons, List.foldlM_nil, joined?_select_unit inner, Option.bind_eq_bind,
    Option.bind_some, Option.pure_def, listed, Option.toList_none, List.append_nil, List.mapM_nil,
    List.all_nil, filterM_some_true, List.map_cons, List.map_nil, List.any_cons, List.any_nil,
    gathered, Bool.or_true, Bool.true_or, guard, if_true, Bool.not_true, Bool.false_eq_true,
    if_false, Option.map_some, mapM_some, List.isEmpty_nil, List.flatMap_cons, List.flatMap_nil,
    calm, List.getLast?_nil]
  exact ⟨_, rfl, rfl, rfl⟩

/-- The select that is put around another one to count its rows. -/
theorem grid?_countRows {select : Select} {grid : Grid}
    (inner : grid? tables n scopes select = some grid) :
    grid? tables (n + 3) scopes
      (.mk (.select false [.expression .countRows none] [.mk false (.select select) "" none] none []
        none) [] [] none none) =
      some { headings := [⟨"", "", none, false, false⟩]
             rows := [[.integer grid.rows.length]] } := by
  obtain ⟨extract, extracted, outputs, rows⟩ := exists_extract?_countRows inner
  rw [grid?_of_extract? extracted, outputs, rows]
  rfl

end Selection

end Sql

/-- What a statement yields when its select yields it at all depths of evaluation beyond some. -/
theorem Store.answer?_of_read? {store : Store} {statement : String} {select : Select} {grid : Grid}
    (read : Select.read? statement = some select)
    (yields : ∀ n, Selection.grid? store.source? (n + 16) [] select = some grid) :
    store.answer? statement = some grid := by
  have isSome : statement.length ≠ 0 := by
    intro empty
    rw [String.length_eq_zero_iff.1 empty] at read
    cases read
  have depth : 8 * statement.length + 8 = (8 * statement.length - 8) + 16 := by omega
  rw [answer?, read, Option.bind_eq_bind, Option.bind_some, depth, yields]

theorem Store.execute_of_answer? {store : Store} {query : Query} {grid : Grid}
    (mixed : query.isPlain = false) (small : query.isWithinLimits = true)
    (answered : store.answer? query.statement.withoutFoundRows.render = some grid) :
    store.execute query =
      .ok { columns := query.columnNames, rows := grid.rows.map fun row => row.map Value.datum } := by
  unfold execute executeText
  simp only [mixed, small, answered, if_true, Bool.false_eq_true, if_false]

theorem Store.foundRows_of_answer? {store : Store} {query : Query} {headings : List Heading}
    {n : Int} (mixed : query.isPlain = false)
    (answered : store.answer? ("SELECT COUNT(*) FROM ("
      ++ query.statement.withoutFoundRows.withoutLimit.render ++ ")") =
        some { headings, rows := [[.integer n]] }) :
    store.foundRows query = .ok n := by
  unfold foundRows foundRowsText
  simp only [mixed, answered, Bool.false_eq_true, if_false]

/-! ### Names that open a comment -/

/-- A store with a page beside the first and an empty table. -/
def unclosedStore : Store :=
  { Store.new ⟨0, false⟩ with
    pages :=
      [⟨1, 0, 0, "home", 1, "1970-01-01 00:00:00", "1970-01-01 00:00:00"⟩,
        ⟨2, 1, 0, "about", 1, "1970-01-01 00:00:00", "1970-01-01 00:00:00"⟩]
    ancestry := [⟨1, 1⟩, ⟨2, 1⟩]
    tables := [⟨"t", .text, []⟩]
    indexes := ["idx_t_pages", "idx_t_data"] }

/-- All pages in an order by fields whose names open comments, one of them after a limit of its own,
and with a value that ends a comment. -/
def unclosedQuery (window : Option Window) : Query :=
  { joins :=
      [⟨.left, "t", "_sort_a/*", pageLink "_sort_a/*"⟩,
        ⟨.left, "t", "_sort_b LIMIT 1/*", pageLink "_sort_b LIMIT 1/*"⟩]
    conjuncts :=
      [.enclosed (.test (.compare Query.idColumn .notEqual
        (.text "*/,(SELECT 1 AS _sort_b) --")))]
    scores := []
    orders :=
      [⟨.column ⟨"_sort_b LIMIT 1/*", "data"⟩, false⟩, ⟨.column ⟨"_sort_a/*", "data"⟩, false⟩]
    window
    comment := "" }

namespace Unclosed

def pageColumn (name : String) : Expression :=
  .name [⟨"pages", false⟩, ⟨name, false⟩]

def one : Select :=
  .mk (.select false [.expression (.literal (.integer 1)) (some "_sort_b")] [] none [] none) [] []
    none none

def joins : List Joined :=
  [.mk false (.table "pages") "pages" none, .mk true (.table "t") "_sort_a" none,
    .mk false (.select one) "" none]

def core : Core :=
  .select false [.expression (pageColumn "id") none, .expression (pageColumn "templates_id") none]
    joins none [pageColumn "id"] none

def key : Expression :=
  .name [⟨"_sort_b", false⟩]

/-- What the statement is read as: of its text only what stands outside of comments. -/
def select : Select :=
  .mk core [] [.mk key false true] (some (.literal (.integer 1))) none

/-! #### The grid of its sources -/

def pageGrid : Grid :=
  Grid.ofTable "pages" unclosedStore.pageTable

def fieldHeadings : List Heading :=
  (Grid.ofTable "_sort_a"
    { columns := [("pages_id", .integer), ("data", .text), ("sort", .integer)]
      records := [] }).headings

def grid : Grid :=
  { headings := pageGrid.headings ++ fieldHeadings ++ [⟨"", "_sort_b", none, false, false⟩]
    rows := pageGrid.rows.map fun row =>
      row ++ Grid.missingRow fieldHeadings ++ [.integer 1] }

variable (n : Nat)

theorem grid?_one :
    Selection.grid? unclosedStore.source? (n + 5) [] one =
      some { headings := [⟨"", "_sort_b", none, false, false⟩], rows := [[.integer 1]] } := by
  let scope : Scope :=
    { headings := [], row := [], labels := [("_sort_b", .literal (.integer 1))], group := none }
  let extract : Extract :=
    { source := [], outputs := [⟨.literal (.integer 1), some "_sort_b"⟩]
      rows := [(scope, [.integer 1])], missing := scope }
  have extracted : Selection.extract? unclosedStore.source? (n + 4) []
      (.select false [.expression (.literal (.integer 1)) (some "_sort_b")] [] none [] none) [] =
        some extract := rfl
  exact Selection.grid?_of_extract? extracted

theorem foldlM_joins :
    joins.foldlM (Selection.joined? unclosedStore.source? (n + 6) []) (Grid.unit, []) =
      some (grid, []) := by
  let paired : Grid :=
    { headings := pageGrid.headings ++ fieldHeadings
      rows := pageGrid.rows.map fun row => row ++ Grid.missingRow fieldHeadings }
  have first : Selection.joined? unclosedStore.source? (n + 6) [] (Grid.unit, [])
      (.mk false (.table "pages") "pages" none) = some (pageGrid, []) := rfl
  have second : Selection.joined? unclosedStore.source? (n + 6) [] (pageGrid, [])
      (.mk true (.table "t") "_sort_a" none) = some (paired, []) := rfl
  have third : Selection.joined? unclosedStore.source? (n + 6) [] (paired, [])
      (.mk false (.select one) "" none) = some (grid, []) := by
    rw [Selection.joined?]
    simp only [grid?_one, Option.map_some]
    rfl
  simp only [joins, List.foldlM_cons, List.foldlM_nil, first, second, third, Option.bind_eq_bind,
    Option.bind_some]
  rfl

def scopeOf (row : List Value) (group : List (List Value)) : Scope :=
  { headings := grid.headings, row, labels := [], group := some group }

def extract : Extract :=
  { source := grid.headings
    outputs := [⟨pageColumn "id", none⟩, ⟨pageColumn "templates_id", none⟩]
    rows := grid.rows.zipWith (fun row id => (scopeOf row [row], [.integer id, .integer 0])) [1, 2]
    missing := scopeOf (Grid.missingRow grid.headings) [] }

theorem extract?_core {order : List Expression}
    (calm : order.flatMap (Expression.extremes (n + 6)) = []) :
    Selection.extract? unclosedStore.source? (n + 7) [] core order = some extract := by
  let keyed : List (List Value × List Value) :=
    grid.rows.zipWith (fun row id => ([.integer id], row)) [1, 2]
  have sorted : KeyOrder.sorted [.plain .binary] Prod.fst keyed = keyed :=
    KeyOrder.sorted_eq_self (by decide)
  have listed : (List.mapM (Output.ofListed? grid.headings)
      [.expression (pageColumn "id") none, .expression (pageColumn "templates_id") none]).map
        List.flatten = some extract.outputs := rfl
  have orders : List.map (fun group : Expression =>
      KeyOrder.plain (group.collation?.getD .binary)) [pageColumn "id"] = [.plain .binary] := rfl
  have none : (extract.outputs.map Output.expression).flatMap (Expression.extremes (n + 6)) = [] :=
    rfl
  rw [core, Selection.extract?]
  simp only [foldlM_joins, Option.bind_eq_bind, Option.bind_some, listed, Option.toList_none,
    List.append_nil]
  simp only [List.mapM_nil, Option.pure_def, Option.bind_some, List.all_nil, filterM_some_true,
    List.isEmpty_cons, Bool.not_false, Bool.true_or, Bool.not_true, guard, if_true,
    Bool.false_eq_true, if_false, orders, List.flatMap_append, calm, none, List.append_nil,
    List.getLast?_nil]
  refine Option.bind_eq_some_iff.2 ⟨[pageColumn "id"], rfl, ?_⟩
  refine Option.bind_eq_some_iff.2 ⟨[Value.null], rfl, ?_⟩
  refine Option.bind_eq_some_iff.2 ⟨keyed, rfl, ?_⟩
  rw [sorted]
  rfl

def headings : List Heading :=
  [⟨"", "id", some .integer, false, false⟩, ⟨"", "templates_id", some .integer, false, false⟩]

theorem grid?_select :
    Selection.grid? unclosedStore.source? (n + 8) [] select =
      some { headings, rows := [[.integer 1, .integer 0]] } := by
  let keyed : List (List Value × List Value) :=
    [([.integer 1], [.integer 1, .integer 0]), ([.integer 1], [.integer 2, .integer 0])]
  have sorted : KeyOrder.sorted [⟨.binary, false, true⟩] Prod.fst keyed = keyed :=
    KeyOrder.sorted_eq_self (by decide)
  have calm : [key].flatMap (Expression.extremes (n + 6)) = [] := rfl
  rw [select, Selection.grid?]
  refine Option.bind_eq_some_iff.2 ⟨[1], rfl, ?_⟩
  refine Option.bind_eq_some_iff.2 ⟨[], rfl, ?_⟩
  refine Option.bind_eq_some_iff.2 ⟨extract, extract?_core n calm, ?_⟩
  dsimp only [List.isEmpty_nil]
  rw [if_pos rfl]
  refine Option.bind_eq_some_iff.2 ⟨[Value.null], rfl, ?_⟩
  refine Option.bind_eq_some_iff.2 ⟨keyed, rfl, ?_⟩
  change some (Grid.mk _ (limited 1 0
    ((KeyOrder.sorted [⟨.binary, false, true⟩] Prod.fst keyed).map Prod.snd))) = _
  rw [sorted]
  rfl

theorem grid?_core :
    Selection.grid? unclosedStore.source? (n + 8) [] (.mk core [] [] none none) =
      some { headings, rows := [[.integer 1, .integer 0], [.integer 2, .integer 0]] } :=
  Selection.grid?_of_extract? (extract?_core n rfl)

/-! #### Its texts -/

def headText : String :=
  "SELECT pages.id,pages.templates_id\nFROM \x60pages\x60\n"

def joinText : String :=
  "LEFT JOIN t AS _sort_a/* ON _sort_a/*.pages_id=pages.id\n"

def hiddenText : String :=
  "LEFT JOIN t AS _sort_b LIMIT 1/* ON _sort_b LIMIT 1/*.pages_id=pages.id\n"

def groupText : String :=
  "WHERE (pages.id!='*/,(SELECT 1 AS _sort_b) --')\nGROUP BY pages.id"

def orderText : String :=
  "\nORDER BY _sort_b LIMIT 1/*.data,_sort_a/*.data"

def coreText : String :=
  headText ++ joinText ++ hiddenText ++ groupText

theorem toList_coreText :
    coreText.toList =
      headText.toList ++ joinText.toList ++ hiddenText.toList ++ groupText.toList := by
  rw [coreText, String.toList_append, String.toList_append, String.toList_append]

def coreTokens : List Token :=
  [.word "SELECT", .word "pages", .mark ".", .word "id", .mark ",", .word "pages", .mark ".",
    .word "templates_id", .word "FROM", .name "pages", .word "LEFT", .word "JOIN", .word "t",
    .word "AS", .word "_sort_a", .mark ",", .mark "(", .word "SELECT", .digits ['1'], .word "AS",
    .word "_sort_b", .mark ")", .word "GROUP", .word "BY", .word "pages", .mark ".", .word "id"]

def orderTokens : List Token :=
  [.word "ORDER", .word "BY", .word "_sort_b", .word "LIMIT", .digits ['1']]

def countTokens : List Token :=
  [.word "SELECT", .word "COUNT", .mark "(", .mark "*", .mark ")", .word "FROM", .mark "("]

theorem read?_select {text : String} (spelled : tokens text = coreTokens ++ orderTokens) :
    Select.read? text = some select := by
  rw [Select.read?, spelled]
  rfl

theorem read?_count {text : String}
    (spelled : tokens text = countTokens ++ coreTokens ++ [.mark ")"]) :
    Select.read? text = some (.mk (.select false [.expression .countRows none]
      [.mk false (.select (.mk core [] [] none none)) "" none] none [] none) [] [] none none) := by
  rw [Select.read?, spelled]
  rfl

theorem tokens_whole :
    tokens (unclosedQuery none).statement.withoutFoundRows.render = coreTokens ++ orderTokens := by
  have spelled : (unclosedQuery none).statement.withoutFoundRows.render =
      coreText ++ orderText := by
    decide +kernel
  rw [spelled, tokens, String.toList_append, toList_coreText, headText, joinText, hiddenText,
    groupText, orderText]
  iterate 5 rw [String.toList_ofList]
  decide +kernel

/-- The window stands in a comment. -/
theorem tokens_windowed :
    tokens (unclosedQuery (some ⟨some 1, 1⟩)).statement.withoutFoundRows.render =
      coreTokens ++ orderTokens := by
  have spelled : (unclosedQuery (some ⟨some 1, 1⟩)).statement.withoutFoundRows.render =
      coreText ++ orderText ++ "\nLIMIT 1,1" := by
    decide +kernel
  rw [spelled, tokens, String.toList_append, String.toList_append, toList_coreText, headText,
    joinText, hiddenText, groupText, orderText]
  iterate 6 rw [String.toList_ofList]
  decide +kernel

theorem tokens_counted :
    tokens ("SELECT COUNT(*) FROM ("
      ++ (unclosedQuery (some ⟨some 1, 1⟩)).statement.withoutFoundRows.withoutLimit.render ++ ")") =
      countTokens ++ coreTokens ++ [.mark ")"] := by
  have spelled :
      (unclosedQuery (some ⟨some 1, 1⟩)).statement.withoutFoundRows.withoutLimit.render =
        coreText := by
    decide +kernel
  rw [spelled, tokens, String.toList_append, String.toList_append, toList_coreText, headText,
    joinText, hiddenText, groupText]
  iterate 6 rw [String.toList_ofList]
  decide +kernel

/-! #### Its answers -/

theorem execute_unclosedQuery {window : Option Window}
    (spelled : tokens (unclosedQuery window).statement.withoutFoundRows.render =
      coreTokens ++ orderTokens) :
    unclosedStore.execute (unclosedQuery window) =
      .ok { columns := ["id", "templates_id"], rows := [[.integer 1, .integer 0]] } := by
  have mixed : (unclosedQuery window).isPlain = false := by
    change (unclosedQuery none).isPlain = false
    decide
  have small : (unclosedQuery window).isWithinLimits = true := by
    change (unclosedQuery none).isWithinLimits = true
    decide
  exact Store.execute_of_answer? mixed small
    (Store.answer?_of_read? (read?_select spelled) fun n => grid?_select (n + 8))

theorem foundRows_unclosedQuery :
    unclosedStore.foundRows (unclosedQuery (some ⟨some 1, 1⟩)) = .ok 2 := by
  have mixed : (unclosedQuery (some ⟨some 1, 1⟩)).isPlain = false := by decide
  exact Store.foundRows_of_answer? mixed (Store.answer?_of_read? (read?_count tokens_counted)
    fun n => Selection.grid?_countRows (grid?_core (n + 5)))

end Unclosed

end PageTree
