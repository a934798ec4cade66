import PageTree.Data.Dictionary
import PageTree.Field.Kind

/-!
The fields of a site. Some are columns of the page table; all others are attached fields, which a
schema declares and which are stored in tables of their own.
-/

namespace PageTree

/-- The fields that are columns of the page table, under all their names. -/
def nativeNames : List String :=
  ["id", "name", "status", "parent", "parent_id", "template", "templates_id", "created",
    "modified"]

def isNativeName (name : String) : Bool :=
  nativeNames.contains name

structure FieldDeclaration where
  kind : String
  table : Option String
  label : Option String
  deriving DecidableEq, Repr

abbrev Schema := Dictionary FieldDeclaration

/-- An attached field with the table that stores it. -/
structure Field where
  name : String
  table : String
  kind : String
  deriving DecidableEq, Repr

def FieldDeclaration.field (name : String) (declaration : FieldDeclaration) : Field :=
  { name, table := declaration.table.getD ("field_" ++ name), kind := declaration.kind }

namespace Schema

def fields (schema : Schema) : List Field :=
  List.map (fun entry => entry.2.field entry.1) schema

def field? (schema : Schema) (name : String) : Option Field :=
  (Dictionary.find? schema name).map fun declaration => declaration.field name

end Schema

/-- The kind of a field whose kind is known. -/
def Field.kind? (field : Field) : Except Error FieldKind :=
  match FieldKind.ofName? field.kind with
  | some kind => .ok kind
  | none => .error (.unknownKind field.kind field.name)

end PageTree
