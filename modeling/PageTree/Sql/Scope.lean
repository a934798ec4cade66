import PageTree.Sql.Arithmetic

/-!
What names mean where an expression is evaluated. Scopes lie inside one another, the innermost one
first, and a name belongs to the first scope that knows it.
-/

namespace PageTree.Sql

structure Heading where
  table : String
  name : String
  affinity : Option Affinity
  /-- Is the column left out where all columns are asked for? -/
  isHidden : Bool
  /-- Is the column one of a stored table? -/
  isStored : Bool
  deriving Repr

namespace Heading

def isNamed (heading : Heading) : List Identifier → Bool
  | [column] => sameName heading.name column.text
  | [table, column] => sameName heading.table table.text && sameName heading.name column.text
  | [database, table, column] =>
    heading.isStored && sameName database.text "main" && sameName heading.table table.text
      && sameName heading.name column.text
  | _ => false

end Heading

structure Grid where
  headings : List Heading
  rows : List (List Value)
  deriving Repr

namespace Grid

def unit : Grid :=
  { headings := [], rows := [[]] }

/-- The same rows under a name of their own. -/
def named (name : String) (grid : Grid) : Grid :=
  { grid with
    headings := grid.headings.map fun heading =>
      ⟨name, heading.name, heading.affinity, false, false⟩ }

def missingRow (headings : List Heading) : List Value :=
  headings.map fun _ => .null

end Grid

/-! ### Scopes -/

structure Scope where
  headings : List Heading
  row : List Value
  labels : List (String × Expression)
  /-- The rows of the group that the row stands for. -/
  group : Option (List (List Value))

namespace Scope

def places (headings : List Heading) (parts : List Identifier) : List Nat :=
  (headings.zipIdx.filter fun entry => entry.1.isNamed parts).map Prod.snd

def labelled? (scope : Scope) : List Identifier → Option Expression
  | [label] => (scope.labels.find? fun entry => sameName entry.1 label.text).map Prod.snd
  | _ => none

end Scope

inductive Meaning where
  | column (heading : Heading) (value : Value)
  | expression (scopes : List Scope) (expression : Expression)
  | text (value : String)
  | truth (truth : Bool)

/-- What a name stands for in scopes, none when it is unknown or belongs to two columns. -/
def meaning? (parts : List Identifier) : List Scope → Option Meaning
  | [] =>
    match parts with
    | [name] =>
      if name.isLoose then some (.text name.text)
      else if sameName name.text "true" then some (.truth true)
      else if sameName name.text "false" then some (.truth false)
      else none
    | _ => none
  | scope :: outer =>
    match Scope.places scope.headings parts with
    | [place] =>
      scope.headings[place]?.map fun heading =>
        .column heading ((scope.row[place]?).getD .null)
    | [] =>
      match scope.labelled? parts with
      | some expression => some (.expression ({ scope with labels := [] } :: outer) expression)
      | none => meaning? parts outer
    | _ => none

/-- The truth value that an expression is by its name. -/
def truthName? (scopes : List Scope) : Expression → Option Bool
  | .name parts =>
    match meaning? parts scopes with
    | some (.truth truth) => some truth
    | _ => none
  | _ => none

namespace Expression

/-- How an expression converts what it is compared with. -/
def affinity? : Nat → List Scope → Expression → Option Affinity
  | 0, _, _ => none
  | fuel + 1, scopes, expression =>
    match expression with
    | .name parts =>
      match meaning? parts scopes with
      | some (.column heading _) => heading.affinity
      | some (.expression scopes expression) => affinity? fuel scopes expression
      | _ => none
    | .field place => scopes.head?.bind fun scope => scope.headings[place]?.bind Heading.affinity
    | .cast _ target => some (if target = .text then .text else .integer)
    | .collate operand _ => affinity? fuel scopes operand
    | _ => none

end Expression

end PageTree.Sql
