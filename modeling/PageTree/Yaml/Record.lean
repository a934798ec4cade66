import PageTree.Data.Dictionary
import PageTree.Yaml.Node

/-!
Typed readings of nodes. A text takes a scalar as it is written; a collection that is left out is
empty; a record takes the values under its names and ignores other names.
-/

namespace PageTree.Yaml.Node

/-- A scalar as it is written, whatever value it stands for. -/
def text? : Node → Option String
  | .scalar s _ => some s
  | _ => none

/-- A text that may be null. A quoted text never is. -/
def optionalText? : Node → Option (Option String)
  | .scalar s plain => some (if plain && isNullText s then none else some s)
  | _ => none

def isLeftOut : Node → Bool
  | .scalar s plain => plain && s.isEmpty
  | _ => false

def items? : Node → Option (List Node)
  | .sequence items => some items
  | node => if node.isLeftOut then some [] else none

/-- The entries of a mapping whose keys are scalars. -/
def entries? : Node → Option (List (String × Node))
  | .mapping entries => entries.mapM fun entry => (text? entry.1).map fun key => (key, entry.2)
  | node => if node.isLeftOut then some [] else none

def listOf? {α : Type} (read : Node → Option α) (node : Node) : Option (List α) :=
  (items? node).bind fun items => items.mapM read

/-- The values by name, of which later ones replace earlier ones. -/
def dictionaryOf? {α : Type} (read : Node → Option α) (node : Node) : Option (Dictionary α) := do
  let entries ← entries? node
  let pairs ← entries.mapM fun entry => (read entry.2).map fun value => (entry.1, value)
  some (Dictionary.ofPairs pairs)

/-- The values under the names of a record. No name of the record may be given twice. -/
def record? (names : List String) (node : Node) : Option (Dictionary Node) := do
  let entries ← entries? node
  let known := entries.filter fun entry => names.contains entry.1
  if (known.map Prod.fst).Nodup then some (Dictionary.ofPairs known) else none

/-- A part of a record that must be there. -/
def part? {α : Type} (record : Dictionary Node) (name : String) (read : Node → Option α) :
    Option α :=
  (record.find? name).bind read

/-- A part of a record with the value it has when it is missing. -/
def partOr? {α : Type} (record : Dictionary Node) (name : String) (missing : α)
    (read : Node → Option α) : Option α :=
  match record.find? name with
  | some node => read node
  | none => some missing

mutual

/-- The value of a node. A mapping must not have a key twice. -/
def datum? : Node → Option Datum
  | .scalar s plain => if plain then resolve? s else some (.text s)
  | .sequence items => (data? items).map .list
  | .mapping entries =>
    match dataEntries? entries with
    | some entries =>
      if Datum.hasRepeat (entries.map Prod.fst) then none else some (.mapping entries)
    | none => none

def data? : List Node → Option (List Datum)
  | [] => some []
  | node :: nodes => do
    let value ← datum? node
    let values ← data? nodes
    some (value :: values)

def dataEntries? : List (Node × Node) → Option (List (Datum × Datum))
  | [] => some []
  | (key, value) :: entries => do
    let key ← datum? key
    let value ← datum? value
    let rest ← dataEntries? entries
    some ((key, value) :: rest)

end

end PageTree.Yaml.Node
