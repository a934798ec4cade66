import PageTree.Sql.Scope

/-!
The columns that a select lists. A key of rows or of groups may name one of them, by its number or
by its new name.
-/

namespace PageTree.Sql

structure Output where
  expression : Expression
  label : Option String

namespace Output

/-- The columns that stand for one of a list. -/
def ofListed? (headings : List Heading) : Listed → Option (List Output)
  | .all =>
    if headings.isEmpty then none
    else some (fields (fun heading => !heading.isHidden))
  | .allOf table =>
    let found := fields fun heading => !heading.isHidden && sameName heading.table table
    if found.isEmpty then none else some found
  | .expression expression label => some [{ expression, label }]
where
  fields (p : Heading → Bool) : List Output :=
    (headings.zipIdx.filter fun entry => p entry.1).map fun entry =>
      { expression := .field entry.2, label := none }

def labels (outputs : List Output) : List (String × Expression) :=
  outputs.filterMap fun output => output.label.map fun label => (label, output.expression)

/-- The place of the column of the joined tables that is listed. -/
def place? (headings : List Heading) (output : Output) : Option Nat :=
  match output.expression with
  | .field place => some place
  | .name parts =>
    match Scope.places headings parts with
    | [place] => some place
    | _ => none
  | _ => none

def name (headings : List Heading) (output : Output) : String :=
  match output.label, output.expression with
  | some label, _ => label
  | none, .field place => ((headings[place]?).map Heading.name).getD ""
  | none, .name parts => ((parts.getLast?).map Identifier.text).getD ""
  | none, _ => ""

/-- The place among the outputs that a number names, none when it is out of range. -/
def numbered? (count : Nat) (n : Int) : Option Nat :=
  if 1 ≤ n ∧ n ≤ count then some (n.toNat - 1) else none

/-- The number of an output, by which a key may name it. -/
def number? : Expression → Option Int
  | .literal (.integer n) => if n.natAbs < Nat.pow 2 31 then some n else none
  | .unary .minus operand => (number? operand).map fun n => -n
  | .unary .plus operand => number? operand
  | _ => none

def labelPlace? (outputs : List Output) : Expression → Option Nat
  | .name [part] =>
    outputs.findIdx? fun output => output.label.any fun label => sameName label part.text
  | _ => none

end Output

end PageTree.Sql
