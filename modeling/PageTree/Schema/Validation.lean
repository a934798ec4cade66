import PageTree.Schema.Basic

/-!
What a schema may declare. A field needs a plain name that means nothing else in a selector, a
table that is not one of the page tables, and a known kind.
-/

namespace PageTree.Schema

/-- Names with a meaning of their own in selectors. -/
def reservedNames : List String :=
  ["sort", "limit", "start", "path", "url", "has_parent", "score"]

inductive Fault where
  | malformedName
  | reservedName
  | invalidTable (table : String)
  | unknownKind (kind : String)
  deriving DecidableEq, Repr

def Fault.message : Fault → String
  | .malformedName => "Name must be lowercase letters, digits and underscores"
  | .reservedName => "Name is reserved"
  | .invalidTable table => "Invalid table name '" ++ table ++ "'"
  | .unknownKind kind => "Unknown fieldtype '" ++ kind ++ "'"

structure Violation where
  field : String
  fault : Fault
  deriving DecidableEq, Repr

def Violation.text (violation : Violation) : String :=
  "Field '" ++ violation.field ++ "': " ++ violation.fault.message

def isNameRest (c : Char) : Bool :=
  c.isLower || c.isDigit || c = '_'

/-- A lower-case letter followed by lower-case letters, digits and underscores. -/
def isFieldName (name : String) : Bool :=
  match name.toList with
  | [] => false
  | c :: cs => c.isLower && cs.all isNameRest

/-- A letter or underscore followed by letters, digits and underscores. -/
def isTableName (name : String) : Bool :=
  match name.toList with
  | [] => false
  | c :: cs => (c.isAlpha || c = '_') && cs.all fun c => c.isAlphanum || c = '_'

def isReserved (name : String) : Bool :=
  isNativeName name || reservedNames.contains name

def isUsableTable (table : String) : Bool :=
  isTableName table && table ≠ "pages" && table ≠ "pages_parents"

/-- The faults of one declaration, in the order in which they are told. -/
def faults (name : String) (declaration : FieldDeclaration) : List Fault :=
  (if isFieldName name then [] else [.malformedName])
    ++ (if isReserved name then [.reservedName] else [])
    ++ ((declaration.table.filter fun table => !isUsableTable table).toList.map .invalidTable)
    ++ (if (FieldKind.ofName? declaration.kind).isSome then [] else [.unknownKind declaration.kind])

def violations (schema : Schema) : List Violation :=
  List.flatMap (fun entry => (faults entry.1 entry.2).map fun fault => ⟨entry.1, fault⟩) schema

def Valid (schema : Schema) : Prop :=
  violations schema = []

instance (schema : Schema) : Decidable (Valid schema) :=
  inferInstanceAs (Decidable (_ = _))

end PageTree.Schema
