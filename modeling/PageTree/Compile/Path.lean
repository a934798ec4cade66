import PageTree.Compile.Catalog

/-!
Terms on the place of a page in the tree. A path fixes the names of the page and of the pages above
it, each of which is joined once more; a term on the pages above asks for one at any distance.
-/

namespace PageTree

open Sql Text

namespace Path

/-- The names of a path from the root downwards; the first is empty when the path starts at the
root. -/
def segments (path : String) : List String :=
  (splitAt '/' (dropEndWhile (fun c => c = '/') path.toList)).map String.ofList

def nameOf (aliasName : String) : Column :=
  ⟨aliasName, "name"⟩

def parentOf (aliasName : String) : Column :=
  ⟨aliasName, "parent_id"⟩

def rootJoin (below : String) : Join :=
  { kind := .inner, table := "pages", aliasName := "rootparent"
    on := .conj
      [.test (.compare (parentOf below) .equal (.column ⟨"rootparent", "id"⟩)),
        .test (.compare ⟨"rootparent", "id"⟩ .equal (.integer rootId))] }

def parentJoin (below aliasName segment : String) : Join :=
  { kind := .inner, table := "pages", aliasName
    on := .conj
      [.test (.compare (parentOf below) .equal (.column ⟨aliasName, "id"⟩)),
        .test (.compare (nameOf aliasName) .equal (.ofText segment))] }

/-- The joins of the pages above `below`, whose names are given from the deepest upwards. -/
def joinsAbove (below : String) : List String → List Join
  | [] => []
  | segment :: above =>
    if segment = "" then
      rootJoin below :: joinsAbove below above
    else
      let aliasName := "parent" ++ toString (above.length + 1)
      parentJoin below aliasName segment :: joinsAbove aliasName above

def conjuncts (path : String) : List Conjunct :=
  if path = "/" then
    [.plain (.compare Query.idColumn .equal (.integer rootId))]
  else
    let names := segments path
    .plain (.compare (nameOf "pages") .equal (.ofText (names.getLastD ""))) ::
      (if names.length ≤ 1 then [.plain (.compare (parentOf "pages") .equal (.integer rootId))]
      else [])

def joins (path : String) : List Join :=
  if path = "/" then [] else joinsAbove "pages" (segments path).dropLast.reverse

end Path

namespace Term

/-- The page that a value names by number or by path; none at all counts as zero. -/
def ancestorId (catalog : Catalog) (value : String) : Except Error Int :=
  if isDigits value then
    .ok ((Number.readInt64? value.toList).getD 0)
  else
    (catalog.pageId value).map fun id => id.getD 0

/-- The parent of a page, or a page above its parent, is one of `ids`. -/
def ancestorJoin (aliasName : String) (ids : List Int) : Join :=
  { kind := .inner, table := "pages_parents", aliasName
    on := .conj
      [.test (.compare ⟨aliasName, "pages_id"⟩ .equal (.column (Path.parentOf "pages"))),
        .disj (ids.map fun id =>
          .disj
            [.test (.compare ⟨aliasName, "parents_id"⟩ .equal (.integer id)),
              .test (.compare ⟨aliasName, "pages_id"⟩ .equal (.integer id))])] }

end Term

end PageTree
