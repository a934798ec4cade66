import PageTree.Query.Limits
import PageTree.Sql.Function
import PageTree.Sql.Grammar
import PageTree.Sql.Output
import PageTree.Sql.RowOrder
import PageTree.Store.Table

/-!
What a select yields on the tables of a store. Everything is also evaluated on a row without values,
so that a select that names what does not exist yields nothing even where no row comes up.
-/

namespace PageTree.Sql

namespace Grid

def ofTable (name : String) (table : Table) : Grid :=
  let keys := keyNames.filter fun key =>
    table.columns.all fun column => !sameName column.1 key
  { headings :=
      table.columns.map (fun column => ⟨name, column.1, some column.2, false, true⟩)
        ++ keys.map fun key => ⟨name, key, some .integer, true, true⟩
    rows := table.records.map fun record => record.values ++ keys.map fun _ => .integer record.key }

end Grid

/-- Rows with what their keys may be computed from. -/
structure Extract where
  source : List Heading
  outputs : List Output
  rows : List (Scope × List Value)
  missing : Scope

def membership (operand : Value) (values : List Value) : Truth :=
  if values.isEmpty then .no
  else Truth.any (values.map fun value => compareValues .equal operand value)

/-- The one character that a mark in patterns is. -/
def markOf? : List Char → Option Char
  | [c] => some c
  | _ => none

/-- The truth of a match, none when the pattern is beyond the limit or the mark is no character. -/
def likeTruth? (subject pattern : Value) (mark : Option Value) : Option Truth := do
  let mark ←
    match mark.map Value.text? with
    | none => some (some none)
    | some none => some none
    | some (some text) => (markOf? text.toList).map fun c => some (some c)
  match subject.text?, pattern.text?, mark with
  | some text, some pattern, some mark =>
    if patternLimit < pattern.utf8ByteSize then none
    else some (.ofBool (matchesPattern pattern mark text))
  | none, some pattern, _ => if patternLimit < pattern.utf8ByteSize then none else some .unknown
  | _, _, _ => some .unknown

def wholeNumber? (value : Value) : Option Int :=
  match value.convert .integer with
  | .integer n => some n
  | .real x => Value.toInteger? x
  | _ => none

/-! ### Evaluation -/

namespace Selection

mutual

/-- The value of an expression, none when it has no meaning. -/
def value? (tables : String → Option Table) : Nat → List Scope → Expression → Option Value
  | 0, _, _ => none
  | fuel + 1, scopes, expression =>
    match expression with
    | .literal value => some value
    | .name parts =>
      match meaning? parts scopes with
      | none => none
      | some (.column _ value) => some value
      | some (.text value) => some (.text value)
      | some (.truth truth) => some (.ofTruth (.ofBool truth))
      | some (.expression scopes expression) => value? tables fuel scopes expression
    | .field place => scopes.head?.bind fun scope => scope.row[place]?
    | .unary operator operand => (value? tables fuel scopes operand).map operator.apply
    | .binary operator left right => do
      let x ← value? tables fuel scopes left
      let y ← value? tables fuel scopes right
      match operator, truthName? scopes right.withoutCollation with
      | .is, some truth => some (.ofTruth (.ofBool (x.truth = .ofBool truth)))
      | _, _ =>
      if operator.compares then
        let affinity :=
          comparisonAffinity (left.affinity? fuel scopes) (right.affinity? fuel scopes)
        let collation := (left.collation?.or right.collation?).getD .binary
        some (operator.apply ((x.convertIf affinity).collated collation)
          ((y.convertIf affinity).collated collation))
      else
        some (operator.apply x y)
    | .collate operand _ => value? tables fuel scopes operand
    | .cast operand target => (value? tables fuel scopes operand).map (Value.cast target)
    | .between operand low high => do
      let least ← value? tables fuel scopes (.binary (.compare .greaterEqual) operand low)
      let greatest ← value? tables fuel scopes (.binary (.compare .lessEqual) operand high)
      some (.ofTruth (least.truth.and greatest.truth))
    | .oneOf operand choices => do
      let affinity := operand.affinity? fuel scopes
      let x ← value? tables fuel scopes operand
      let values ← choices.mapM (value? tables fuel scopes)
      some (.ofTruth (membership (x.convertIf affinity)
        (values.map fun value => value.convertIf affinity)))
    | .oneOfRows operand select => do
      let x ← value? tables fuel scopes operand
      let grid ← grid? tables fuel scopes select
      match grid.headings with
      | [heading] =>
        let affinity := comparisonAffinity (operand.affinity? fuel scopes) heading.affinity
        some (.ofTruth (membership (x.convertIf affinity)
          (grid.rows.flatten.map fun value => value.convertIf affinity)))
      | _ => none
    | .like operand pattern mark => do
      let x ← value? tables fuel scopes operand
      let y ← value? tables fuel scopes pattern
      let marks ← mark.toList.mapM (value? tables fuel scopes)
      (likeTruth? x y marks.head?).map .ofTruth
    | .choice subject cases otherwise => do
      let chosen ← cases.mapM fun entry => do
        let condition :=
          match subject with
          | some subject => .binary (.compare .equal) subject entry.1
          | none => entry.1
        let truth ← value? tables fuel scopes condition
        let result ← value? tables fuel scopes entry.2
        some (truth.truth.isYes, result)
      let rest ← otherwise.toList.mapM (value? tables fuel scopes)
      some ((((chosen.find? Prod.fst).map Prod.snd).or rest.head?).getD .null)
    | .call function isDistinct arguments =>
      if isGroupFunction function arguments.length then
        match scopes with
        | scope :: outer => do
          let rows ← scope.group
          let values ← rows.mapM fun row =>
            arguments.mapM
              (value? tables fuel ({ scope with row, labels := [], group := none } :: outer))
          let _ ← arguments.mapM
            (value? tables fuel
              ({ scope with
                  row := Grid.missingRow scope.headings, labels := [], group := none } :: outer))
          groupFunction? function isDistinct values
        | [] => none
      else if isDistinct then
        none
      else
        (arguments.mapM (value? tables fuel scopes)).bind (scalarFunction? function)
    | .countRows => do
      let scope ← scopes.head?
      let rows ← scope.group
      some (.integer rows.length)
    | .ofRow select => do
      let grid ← grid? tables fuel scopes select
      if grid.headings.length = 1 then some ((grid.rows.flatten.head?).getD .null) else none
    | .anyRow select =>
      (grid? tables fuel scopes select).map fun grid =>
        .ofTruth (.ofBool !grid.rows.isEmpty)

def grid? (tables : String → Option Table) : Nat → List Scope → Select → Option Grid
  | 0, _, _ => none
  | fuel + 1, scopes, .mk first others order limit offset => do
    let limits ← limit.toList.mapM fun bound => (value? tables fuel [] bound).bind wholeNumber?
    let offsets ← offset.toList.mapM fun bound => (value? tables fuel [] bound).bind wholeNumber?
    let window {α : Type} (rows : List α) : List α :=
      limited (limits.headD (-1)) (offsets.headD 0) rows
    let orders := order.map fun
      | .mk expression isDescending missingFirst =>
        { collation := expression.collation?.getD .binary, isDescending, missingFirst : KeyOrder }
    let keys := order.map fun
      | .mk expression _ _ => expression.withoutCollation
    let extract ← extract? tables fuel scopes first (if others.isEmpty then keys else [])
    let headings := extract.outputs.map fun output =>
      { table := "", name := output.name extract.source
        affinity := output.expression.affinity? fuel (extract.missing :: scopes)
        isHidden := false, isStored := false : Heading }
    if others.isEmpty then
      let keyOf (entry : Scope × List Value) (key : Expression) : Option Value :=
        match Output.number? key with
        | some n => (Output.numbered? headings.length n).bind fun place => entry.2[place]?
        | none =>
          match Output.labelPlace? extract.outputs key with
          | some place => entry.2[place]?
          | none => value? tables fuel (entry.1 :: scopes) key
      let _ ← keys.mapM (keyOf (extract.missing, headings.map fun _ => .null))
      let keyed ← extract.rows.mapM fun entry =>
        (keys.mapM (keyOf entry)).map fun values => (values, entry.2)
      some { headings, rows := window ((KeyOrder.sorted orders Prod.fst keyed).map Prod.snd) }
    else
      let extracts ← others.mapM fun other =>
        (extract? tables fuel scopes other.2 []).map fun found => (other.1, found)
      guard (extracts.all fun other => other.2.outputs.length = headings.length)
      let rows := extracts.foldl
        (fun rows other => other.1.combine rows (other.2.rows.map Prod.snd))
        (extract.rows.map Prod.snd)
      let all := extract :: extracts.map Prod.snd
      let places ← keys.mapM fun key =>
        match Output.number? key with
        | some n => Output.numbered? headings.length n
        | none => all.findSome? fun found =>
          (Output.labelPlace? found.outputs key).or
            ((Output.place? found.source ⟨key, none⟩).bind fun place =>
              found.outputs.findIdx? fun output => output.place? found.source = some place)
      let keyOf (row : List Value) : List Value :=
        places.map fun place => (row[place]?).getD .null
      some { headings, rows := window (KeyOrder.sorted orders keyOf rows) }

/-- The rows of one of the selects of a compound, in groups where values are gathered from them or
the keys `order` are. -/
def extract? (tables : String → Option Table) :
    Nat → List Scope → Core → List Expression → Option Extract
  | 0, _, _, _ => none
  | fuel + 1, scopes, .values rows, _ => do
    let lists ← rows.mapM fun row => row.mapM (value? tables fuel scopes)
    let width := (lists.head?.map List.length).getD 0
    guard (lists.all fun list => list.length = width)
    let scope : Scope := { headings := [], row := [], labels := [], group := none }
    some
      { source := []
        outputs := (List.range width).map fun place =>
          { expression := .field place, label := some ("column" ++ toString (place + 1)) }
        rows := lists.map fun list => (scope, list)
        missing := scope }
  | fuel + 1, scopes, .select isDistinct columns joins condition groups having, order => do
    let (grid, deferred) ← joins.foldlM (joined? tables fuel scopes) (Grid.unit, [])
    let outputs ← (columns.mapM (Output.ofListed? grid.headings)).map List.flatten
    let labels := Output.labels outputs
    let scopeOf (row : List Value) : Scope :=
      { headings := grid.headings, row, labels, group := none }
    let missing := scopeOf (Grid.missingRow grid.headings)
    let conditions := deferred ++ condition.toList
    let _ ← conditions.mapM (value? tables fuel (missing :: scopes))
    let rows ← grid.rows.filterM fun row => do
      let values ← conditions.mapM (value? tables fuel (scopeOf row :: scopes))
      some (values.all fun value => value.truth.isYes)
    let expressions := outputs.map Output.expression
    let gathered := expressions ++ order ++ having.toList
    let isGrouped := !groups.isEmpty || gathered.any (Expression.gathers fuel)
    guard (isGrouped || having.isNone)
    let finish (scope : Scope) : Option (Scope × List Value) :=
      (expressions.mapM
        (value? tables fuel ({ scope with labels := [] } :: scopes))).map fun values =>
          (scope, values)
    let keep (entries : List (Scope × List Value)) : List (Scope × List Value) :=
      if isDistinct then distinctBy Prod.snd entries else entries
    if !isGrouped then
      let _ ← finish missing
      let entries ← rows.mapM fun row => finish (scopeOf row)
      some { source := grid.headings, outputs, rows := keep entries, missing }
    else
      let keys ← groups.mapM fun group =>
        match Output.number? group.withoutCollation with
        | some n => (Output.numbered? outputs.length n).bind fun place => expressions[place]?
        | none => some group.withoutCollation
      let orders := groups.map fun group => KeyOrder.plain (group.collation?.getD .binary)
      let _ ← keys.mapM (value? tables fuel (missing :: scopes))
      let keyed ← rows.mapM fun row =>
        (keys.mapM (value? tables fuel (scopeOf row :: scopes))).map fun values => (values, row)
      let lists :=
        if groups.isEmpty then [rows]
        else
          ((KeyOrder.sorted orders Prod.fst keyed).splitBy fun a b =>
            KeyOrder.compareKeys orders a.1 b.1 = .eq).map fun entries => entries.map Prod.snd
      let extreme := (gathered.flatMap (Expression.extremes fuel)).getLast?
      let grouped ← lists.mapM fun rows => do
        let representative ←
          match extreme with
          | some (isGreatest, argument) => do
            let entries ← rows.mapM fun row =>
              (value? tables fuel (scopeOf row :: scopes) argument).map fun value => (value, row)
            some (extremeRow isGreatest entries)
          | none => some (if groups.isEmpty then rows.getLast? else rows.head?)
        some
          { scopeOf (representative.getD (Grid.missingRow grid.headings)) with
            group := some rows }
      let missing := { missing with group := some [] }
      let _ ← finish missing
      let _ ← having.toList.mapM (value? tables fuel (missing :: scopes))
      let kept ← grouped.filterM fun scope => do
        let values ← having.toList.mapM (value? tables fuel (scope :: scopes))
        some (values.all fun value => value.truth.isYes)
      let entries ← kept.mapM finish
      some { source := grid.headings, outputs, rows := keep entries, missing }

/-- Joins one more table. A condition that names tables to come is put off, unless rows without a
match are kept. -/
def joined? (tables : String → Option Table) :
    Nat → List Scope → Grid × List Expression → Joined → Option (Grid × List Expression)
  | 0, _, _, _ => none
  | fuel + 1, scopes, (grid, deferred), .mk isLeft origin name on => do
    let added ←
      match origin with
      | .table table => (tables table).map (Grid.ofTable name)
      | .select select => (grid? tables fuel scopes select).map (Grid.named name)
    let headings := grid.headings ++ added.headings
    let holds (row : List Value) : Option Bool := do
      let scope : Scope := { headings, row, labels := [], group := none }
      let values ← on.toList.mapM (value? tables fuel (scope :: scopes))
      some (values.all fun value => value.truth.isYes)
    let isKnown := (holds (Grid.missingRow headings)).isSome
    guard (isKnown || !isLeft)
    if isLeft then
      let rows ← grid.rows.mapM fun row => do
        let matching ← (added.rows.map fun other => row ++ other).filterM holds
        some (if matching.isEmpty then [row ++ Grid.missingRow added.headings] else matching)
      some ({ headings, rows := rows.flatten }, deferred)
    else
      let rows := grid.rows.flatMap fun row => added.rows.map fun other => row ++ other
      if isKnown then do
        let rows ← rows.filterM holds
        some ({ headings, rows }, deferred)
      else
        some ({ headings, rows }, deferred ++ on.toList)

end

end Selection

end PageTree.Sql

namespace PageTree

/-- The rows that a statement asks of a store, none when it is rejected. -/
def Store.answer? (store : Store) (statement : String) : Option Sql.Grid := do
  let select ← Sql.Select.read? statement
  Sql.Selection.grid? store.source? (8 * statement.length + 8) [] select

end PageTree
