import PageTree.Query.Basic
import PageTree.Schema.Basic

/-!
What the compilation of a selector reads: the attached fields, identifiers of templates and pages,
the page number of a paged result, and the clock.
-/

namespace PageTree

structure Catalog where
  schema : Schema
  templateId : String → Except Error (Option Int)
  pageId : String → Except Error (Option Int)
  /-- Counted from one; decides where the window starts when the selector does not. -/
  pageNumber : Option Int
  now : Date.Moment

def rootId : Int :=
  1

/-- The link from a table of values to the page they belong to. -/
def pageLink (aliasName : String) : Filter :=
  .test (.compare ⟨aliasName, "pages_id"⟩ .equal (.column Query.idColumn))

end PageTree
