import PageTree.Data.Datum
import PageTree.Selector.Status
import PageTree.Store.Basic

/-!
Seeds: lists of templates and pages to import. Pages are added in the order listed, so a page comes
after its parent. What was added before a fault stays.
-/

namespace PageTree

inductive SeedStatus where
  | bits (bits : Int)
  | labels (labels : String)
  deriving DecidableEq, Repr

def SeedStatus.value : SeedStatus → Int
  | .bits n => n
  | .labels text => Status.ofLabels text

structure SeedPage where
  path : String
  template : Option String
  status : Option SeedStatus
  created : Option String
  fields : Dictionary Datum

structure Seed where
  templates : List String
  pages : List SeedPage

structure SeedReport where
  templates : Nat
  pages : Nat
  values : Nat
  deriving DecidableEq, Repr

inductive SeedFault where
  | rootPage (path : String)
  | missingParent (path parent : String)
  | pageRefused (path : String) (error : Error)
  | noScalar (field path : String) (value : Datum)
  | valueRefused (field path : String) (error : Error)

/-- What went wrong, from the import as a whole down to the cause. -/
def SeedFault.messages : SeedFault → List String
  | .rootPage path => ["Seed page needs a name below the root: '" ++ path ++ "'"]
  | .missingParent path parent =>
    ["Parent of '" ++ path ++ "' does not exist: " ++ parent]
  | .pageRefused path error => ["Failed to insert page: " ++ path, error.message]
  | .noScalar field path value =>
    ["Invalid value for '" ++ field ++ "' on " ++ path,
      "expected a scalar, got " ++ value.describe]
  | .valueRefused field path error =>
    ["Failed to set '" ++ field ++ "' on " ++ path, error.message]

namespace SeedPage

/-- The path of the parent and the name below it. -/
def split (path : String) : String × String :=
  let trimmed := Text.trimWhere (fun c => c = '/') path.toList
  match Text.splitLast? '/' trimmed with
  | some (parent, name) => (String.ofList ('/' :: parent ++ ['/']), String.ofList name)
  | none => ("/", String.ofList trimmed)

end SeedPage

namespace Store

/-- Is the text written like a path that leads to a page of the store? Then it stands for the number
of that page. -/
def referenceId? (store : Store) (s : String) : Option Int :=
  if s.toList.head? = some '/' ∧ s.toList.getLast? = some '/' then
    (store.pageId? s).filter fun id => id ≠ rootId || s = "/"
  else
    none

def seedText? (store : Store) : Datum → Option String
  | .text s => some (((store.referenceId? s).map toString).getD s)
  | .integer n => some (toString n)
  | .real x => some x.compact
  | .bool b => some (if b then "1" else "0")
  | _ => none

/-- A step of an import: the store it leaves, how much it added, and a fault if it stopped. -/
structure Imported where
  store : Store
  report : SeedReport
  fault : Option SeedFault

def importTemplates (store : Store) (report : SeedReport) : List String → Store × SeedReport
  | [] => (store, report)
  | name :: names =>
    importTemplates (store.addTemplate name).2
      { report with templates := report.templates + 1 } names

def importFields (schema : Schema) (now : Date.Moment) (path : String) (page : Int) (store : Store)
    (report : SeedReport) : List (String × Datum) → Imported
  | [] => { store, report, fault := none }
  | (field, value) :: rest =>
    match store.seedText? value with
    | none => { store, report, fault := some (.noScalar field path value) }
    | some text =>
      match store.setField schema now field page text with
      | .error error => { store, report, fault := some (.valueRefused field path error) }
      | .ok next =>
        importFields schema now path page next { report with values := report.values + 1 } rest

/-- The template of a page, added when missing; a page may have none. -/
def importTemplate (store : Store) : Option String → Int × Store
  | some name => store.addTemplate name
  | none => (0, store)

def importPage (schema : Schema) (now : Date.Moment) (store : Store) (report : SeedReport)
    (page : SeedPage) : Imported :=
  let (parentPath, name) := SeedPage.split page.path
  if name = "" then
    { store, report, fault := some (.rootPage page.path) }
  else
    match store.pageId? parentPath with
    | none => { store, report, fault := some (.missingParent page.path parentPath) }
    | some parent =>
      let (template, store) := store.importTemplate page.template
      let status := (page.status.map SeedStatus.value).getD Status.on
      match store.insertPage now { parent, template, name, status, created := page.created } with
      | .error error => { store, report, fault := some (.pageRefused page.path error) }
      | .ok (id, store) =>
        importFields schema now page.path id store { report with pages := report.pages + 1 }
          page.fields

def importPages (schema : Schema) (now : Date.Moment) (store : Store) (report : SeedReport) :
    List SeedPage → Imported
  | [] => { store, report, fault := none }
  | page :: pages =>
    let imported := importPage schema now store report page
    match imported.fault with
    | some _ => imported
    | none => importPages schema now imported.store imported.report pages

/-- Adds the templates and then the pages of a seed. -/
def importSeed (store : Store) (schema : Schema) (now : Date.Moment) (seed : Seed) : Imported :=
  let (store, report) :=
    store.importTemplates { templates := 0, pages := 0, values := 0 } seed.templates
  importPages schema now store report seed.pages

end Store

end PageTree
