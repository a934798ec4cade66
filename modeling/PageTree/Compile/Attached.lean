import PageTree.Compile.Catalog

/-!
Terms on attached fields. Each field name of a term joins the field's table under an alias of its
own. Terms with the same text are alternatives: one page satisfies them when it satisfies any.
-/

namespace PageTree

open Sql Text

/-- The condition of one field name of a term. -/
structure Member where
  table : String
  aliasName : String
  condition : Filter
  /-- Asks whether a row exists at all, so that the condition cannot restrict the join. -/
  blank : Bool
  deriving Repr

/-- The alias for one more use of `table`, after the uses of the tables in `used`. -/
def nextAlias (used : List String) (table : String) : String :=
  match used.count table with
  | 0 => table
  | n + 1 => table ++ toString (n + 1)

namespace Member

/-- The tests of one value: whether there is a row at all, or what its column holds. -/
inductive Branch where
  | blank (filter : Filter)
  | tests (matching : Matching)
  deriving Repr

def Branch.filters : Branch → List Filter
  | .blank filter => [filter]
  | .tests matching =>
    if matching.tests.isEmpty then [] else [.conj (matching.tests.map .fragment)]

def Branch.scores : Branch → List Score
  | .blank _ => []
  | .tests matching => matching.scores

def Branch.isBlank : Branch → Bool
  | .blank _ => true
  | .tests _ => false

/-- Does an empty value ask for the absence or presence of a row? -/
def asksForRow (column : String) (operator : Operator) (value : String) : Bool :=
  column = "data" && operator.isEquality && value = ""

def rowFilter (aliasName : String) (operator : Operator) : Filter :=
  if operator = .equal then .test (.isNull ⟨aliasName, "pages_id"⟩)
  else .test (.isNotNull ⟨aliasName, "pages_id"⟩)

def branch (now : Date.Moment) (kind : FieldKind) (target : Column) (operator : Operator)
    (value : String) : Except Error Branch :=
  if asksForRow target.name operator value then
    .ok (.blank (rowFilter target.aliasName operator))
  else
    (kind.matching now target operator value).map .tests

/-- The name of a field and of the column of its table, from `field` or `field.column`. -/
def splitName (name : String) : String × String :=
  match splitFirst? '.' name.toList with
  | some (field, column) => (String.ofList field, String.ofList column)
  | none => (name, "data")

/-- What one field name of a term adds to a query. -/
structure Contribution where
  table : String
  member : Option Member
  scores : List Score
  deriving Repr

def contribution (catalog : Catalog) (used : List String) (term : Term) (name : String) :
    Except Error Contribution := do
  let (fieldName, column) := splitName name
  match catalog.schema.field? fieldName with
  | none => .error (.unknownField name)
  | some field =>
    let kind ← field.kind?
    let aliasName := nextAlias used field.table
    let branches ← term.values.mapM (branch catalog.now kind ⟨aliasName, column⟩ term.operator)
    let filters := branches.flatMap Branch.filters
    let member : Member :=
      { table := field.table, aliasName
        condition := (Condition.disj filters).negateIf term.negated
        blank := branches.any Branch.isBlank }
    .ok
      { table := field.table
        member := if filters.isEmpty then none else some member
        scores := branches.flatMap Branch.scores }

/-- The contributions of the field names of a term, each after those before it. -/
def contributions (catalog : Catalog) (term : Term) :
    List String → List String → Except Error (List Contribution)
  | _, [] => .ok []
  | used, name :: names => do
    let first ← contribution catalog used term name
    let rest ← contributions catalog term (used ++ [first.table]) names
    .ok (first :: rest)

/-- The join condition of a member that stands for itself. -/
def link (member : Member) : Filter :=
  .conj [pageLink member.aliasName, member.condition]

def innerJoin (member : Member) : Join :=
  { kind := .inner, table := member.table, aliasName := member.aliasName, on := member.link }

/-- The join of an alternative, which must not drop pages. -/
def leftJoin (member : Member) : Join :=
  { kind := .left, table := member.table, aliasName := member.aliasName
    on := if member.blank then pageLink member.aliasName else member.link }

end Member

abbrev MemberGroup := List Member

namespace MemberGroup

def ofRuns : List (String × Member) → List MemberGroup
  | [] => []
  | (text, member) :: rest =>
    match ofRuns rest, rest with
    | group :: groups, (next, _) :: _ =>
      if text = next then (member :: group) :: groups else [member] :: group :: groups
    | groups, _ => [member] :: groups

/-- A group of one member without blanks restricts its join; any other is a filter on rows. -/
def isLone (group : MemberGroup) : Bool :=
  match group with
  | [member] => !member.blank
  | _ => false

def joins (group : MemberGroup) : List Join :=
  if group.isLone then group.map Member.innerJoin else group.map Member.leftJoin

def filter? (group : MemberGroup) : Option Filter :=
  if group.isLone then none else some (.disj (group.map Member.condition))

/-- The conjunct on rows of all groups that are not joins alone. -/
def conjuncts (groups : List MemberGroup) : List Conjunct :=
  match groups.filterMap filter? with
  | [] => []
  | filters => [.enclosed (.conj filters)]

end MemberGroup

end PageTree
