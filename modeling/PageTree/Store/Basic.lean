import PageTree.Compile.Catalog
import PageTree.Sql.Name

/-!
The page store: templates, pages with their ancestors, and one table of values for each attached
field. Every change gives a new store, so a change that fails leaves the old one as it is.
-/

namespace PageTree

open Sql

structure Template where
  id : Int
  name : String
  deriving DecidableEq, Repr

structure Page where
  id : Int
  parent : Int
  template : Int
  name : String
  status : Int
  created : String
  modified : String
  deriving DecidableEq, Repr

structure Ancestry where
  page : Int
  ancestor : Int
  deriving DecidableEq, Repr

/-- A value of an attached field of a page. -/
structure FieldRow where
  key : Int
  page : Int
  data : Value
  sort : Int
  deriving DecidableEq, Repr

structure FieldTable where
  name : String
  affinity : Affinity
  rows : List FieldRow
  deriving DecidableEq, Repr

structure Store where
  templates : List Template
  /-- The last identifier given to a template, used or not. -/
  lastTemplate : Int
  /-- By ascending identifier. -/
  pages : List Page
  ancestry : List Ancestry
  tables : List FieldTable
  /-- The names of the indexes made for tables of fields. -/
  indexes : List String
  deriving DecidableEq, Repr

structure NewPage where
  parent : Int
  template : Int
  name : String
  status : Int
  /-- Any text that is a date; without one the page is created now. -/
  created : Option String
  deriving DecidableEq, Repr

namespace NewPage

def named (parent : Int) (name : String) : NewPage :=
  { parent, template := 0, name, status := 1, created := none }

end NewPage

namespace Store

def new (now : Date.Moment) : Store :=
  { templates := [], lastTemplate := 0
    pages :=
      [{ id := rootId, parent := 0, template := 0, name := "home", status := 1,
         created := now.text, modified := now.text }]
    ancestry := [⟨rootId, rootId⟩]
    tables := []
    indexes := [] }

/-! ### Looking up -/

def templateId? (store : Store) (name : String) : Option Int :=
  (store.templates.find? fun template => template.name = name).map Template.id

def templateName? (store : Store) (id : Int) : Option String :=
  (store.templates.find? fun template => template.id = id).map Template.name

def page? (store : Store) (id : Int) : Option Page :=
  store.pages.find? fun page => page.id = id

def child? (store : Store) (parent : Int) (name : String) : Option Page :=
  store.pages.find? fun page => page.parent = parent && page.name = name

/-- The page at the end of a chain of names. -/
def descend? (store : Store) : Int → List String → Option Int
  | id, [] => some id
  | id, name :: names => (store.child? id name).bind fun page => store.descend? page.id names

/-- The names of a path; empty ones are none. -/
def pathNames (path : String) : List String :=
  ((Text.splitAt '/' path.toList).filter fun piece => !piece.isEmpty).map String.ofList

/-- The page that a path leads to from the root. -/
def pageId? (store : Store) (path : String) : Option Int :=
  store.descend? rootId (pathNames path)

/-- Where the way from a page upwards ends. -/
inductive Climb where
  /-- At the root, along these names from the top. -/
  | root (names : List String)
  /-- At a page that does not exist. -/
  | lost
  /-- Nowhere: the way leads round in a circle. -/
  | endless
  deriving DecidableEq, Repr

/-- Climbs at most `fuel` pages, with the names on the way so far. -/
def climbFrom (store : Store) : Nat → Int → List String → Climb
  | 0, id, names => if id = rootId then .root names else .endless
  | fuel + 1, id, names =>
    if id = rootId then
      .root names
    else
      match store.page? id with
      | some page => climbFrom store fuel page.parent (page.name :: names)
      | none => .lost

/-- The way upwards from a page. A way longer than there are pages meets one of them twice. -/
def climb (store : Store) (id : Int) : Climb :=
  store.climbFrom (store.pages.length + 1) id []

/-- A path from the root, with a slash before and after every name. -/
def pathText (names : List String) : String :=
  "/" ++ String.join (names.map fun name => name ++ "/")

def pagePath? (store : Store) (id : Int) : Option String :=
  match store.climb id with
  | .root names => some (pathText names)
  | _ => none

def table? (store : Store) (name : String) : Option FieldTable :=
  store.tables.find? fun table => sameName table.name name

/-! ### Templates and pages -/

/-- The template with this name, added when missing. An identifier is used up either way. -/
def addTemplate (store : Store) (name : String) : Int × Store :=
  let next := store.lastTemplate + 1
  match store.templateId? name with
  | some id => (id, { store with lastTemplate := next })
  | none =>
    (next,
      { store with templates := store.templates ++ [⟨next, name⟩], lastTemplate := next })

def nextPageId (store : Store) : Int :=
  store.pages.length + 1

/-- The pages that are listed above a page, in the order of their addition. -/
def ancestors (ancestry : List Ancestry) (page : Int) : List Int :=
  (ancestry.filter fun entry => entry.page = page).map Ancestry.ancestor

def addAncestors (ancestry : List Ancestry) (page : Int) (above : List Int) : List Ancestry :=
  let known := ancestors ancestry page
  ancestry
    ++ ((above.filter fun id => !known.contains id).eraseDups.map fun id => ⟨page, id⟩)

/-- The ancestry with a new page and its parent added. The parent's own ancestors are read after
the parent was added, as a page may name itself as its parent. -/
def extendAncestry (store : Store) (id parent : Int) : List Ancestry :=
  if parent = 0 then
    store.ancestry
  else
    let withParent := addAncestors store.ancestry id [parent]
    addAncestors withParent id (ancestors withParent parent)

def createdText (now : Date.Moment) (page : NewPage) : Except Error String :=
  match page.created with
  | none => .ok now.text
  | some value =>
    match Date.normalize? now value with
    | some date => .ok date
    | none => .error (.database (.invalidCreated page.name value))

/-- Adds a page. Two pages of one parent cannot have one name. -/
def insertPage (store : Store) (now : Date.Moment) (page : NewPage) :
    Except Error (Int × Store) := do
  let created ← createdText now page
  if (store.child? page.parent page.name).isSome then
    .error (.database .duplicatePage)
  else
    let id := store.nextPageId
    let row : Page :=
      { id, parent := page.parent, template := page.template, name := page.name,
        status := page.status, created, modified := created }
    .ok
      (id,
        { store with
          pages := store.pages ++ [row]
          ancestry := store.extendAncestry id page.parent })

/-! ### Attached fields -/

/-- The number of the next row: one more than the greatest in use. -/
def FieldTable.nextKey (rows : List FieldRow) : Int :=
  (rows.map FieldRow.key).foldl max 0 + 1

/-- Replaces the rows of a page in a table by one with this value. -/
def FieldTable.set (table : FieldTable) (page : Int) (value : String) : FieldTable :=
  let kept := table.rows.filter fun row => row.page ≠ page
  { table with
    rows :=
      kept
        ++ [{ key := FieldTable.nextKey kept, page
              data := Value.store table.affinity (.text value), sort := 0 }] }

/-- The text that is stored for a value of a field. -/
def storedText (now : Date.Moment) (field : Field) (value : String) : Except Error String :=
  if field.kind = FieldKind.datetime.name then
    match Date.normalize? now value with
    | some date => .ok date
    | none => .error (.database (.invalidDate field.name value))
  else
    .ok value

/-- The greatest number of bytes that the engine allows a text. -/
def textLimit : Nat :=
  1000000000

/-- Gives a field of a page its only value, and marks the page as modified. -/
def setField (store : Store) (schema : Schema) (now : Date.Moment) (name : String) (page : Int)
    (value : String) : Except Error Store :=
  match schema.field? name with
  | none => .error (.unknownField name)
  | some field => do
    let text ← storedText now field value
    match store.table? field.table with
    | none => .error (.database .rejectedStatement)
    | some _ =>
      if textLimit < text.utf8ByteSize then
        .error (.database .rejectedStatement)
      else
        .ok
          { store with
            tables := store.tables.map fun table =>
              if sameName table.name field.table then FieldTable.set table page text else table
            pages := store.pages.map fun row =>
              if row.id = page then { row with modified := now.text } else row }

/-! ### Counts -/

structure Statistics where
  pages : Nat
  templates : Nat
  hidden : Nat
  values : List (String × Nat)
  deriving DecidableEq, Repr

/-- The number of values in the table spelled exactly so. -/
def valueCount (store : Store) (table : String) : Nat :=
  match store.tables.find? fun other => other.name = table with
  | some found => found.rows.length
  | none => 0

def statistics (store : Store) (schema : Schema) : Statistics :=
  { pages := store.pages.length
    templates := store.templates.length
    hidden := (store.pages.filter fun page => 1024 ≤ page.status).length
    values := schema.fields.map fun field => (field.name, store.valueCount field.table) }

end Store

end PageTree
