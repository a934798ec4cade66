import PageTree.Store.Seed
import PageTree.Yaml.Record

/-!
Seeds as documents: a mapping with the template names under `templates` and the pages, in the order
in which they are added, under `pages`.
-/

namespace PageTree

open Yaml

/-- A status is a number of bits when it is a plain integer and a text of labels otherwise. Other
plain values are no status. -/
def SeedStatus.ofNode? : Node → Option (Option SeedStatus)
  | .scalar s false => some (some (.labels s))
  | .scalar s true =>
    match resolve? s with
    | some .null => some none
    | some (.integer n) => if Number.InInt64 n then some (some (.bits n)) else none
    | some (.text s) => some (some (.labels s))
    | _ => none
  | _ => none

/-- The collections that may lie inside one another in the value of a field. -/
def SeedPage.valueDepthLimit : Nat := 124

def SeedPage.value? (node : Node) : Option Datum :=
  if node.depth ≤ valueDepthLimit then node.datum? else none

def SeedPage.ofNode? (node : Node) : Option SeedPage := do
  let record ← node.record? ["path", "template", "status", "created", "fields"]
  let path ← Node.part? record "path" Node.text?
  let template ← Node.partOr? record "template" none Node.optionalText?
  let status ← Node.partOr? record "status" none SeedStatus.ofNode?
  let created ← Node.partOr? record "created" none Node.optionalText?
  let fields ← Node.partOr? record "fields" [] (Node.dictionaryOf? SeedPage.value?)
  some { path, template, status, created, fields }

namespace Seed

def ofNode? (node : Node) : Option Seed := do
  let record ← node.record? ["templates", "pages"]
  let templates ← Node.partOr? record "templates" [] (Node.listOf? Node.text?)
  let pages ← Node.partOr? record "pages" [] (Node.listOf? SeedPage.ofNode?)
  some { templates, pages }

def ofText? (s : String) : Option Seed :=
  (Node.read? s).bind ofNode?

end Seed

end PageTree
