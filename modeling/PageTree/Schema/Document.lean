import PageTree.Schema.Basic
import PageTree.Yaml.Record

/-!
Schemas as documents: a mapping with the attached fields by name under `fields`.
-/

namespace PageTree

open Yaml

def FieldDeclaration.ofNode? (node : Node) : Option FieldDeclaration := do
  let record ← node.record? ["type", "table", "label"]
  let kind ← Node.part? record "type" Node.text?
  let table ← Node.partOr? record "table" none Node.optionalText?
  let label ← Node.partOr? record "label" none Node.optionalText?
  some { kind, table, label }

namespace Schema

def ofNode? (node : Node) : Option Schema := do
  let record ← node.record? ["fields"]
  Node.partOr? record "fields" [] (Node.dictionaryOf? FieldDeclaration.ofNode?)

def ofText? (s : String) : Option Schema :=
  (Node.read? s).bind ofNode?

def starterText : String :=
  "\n".intercalate
    ["# Field schema",
      "# Attached fields are stored in their own table (field_<name> by default),",
      "# one or more rows per page.",
      "",
      "fields:",
      "  title:",
      "    type: text",
      "    label: Title",
      "",
      "  body:",
      "    type: textarea",
      "",
      "  # price:",
      "  #   type: integer",
      "",
      "  # published:",
      "  #   type: datetime",
      "",
      "  # related:",
      "  #   type: page",
      "  #   table: field_related_pages",
      ""]

end Schema

end PageTree
