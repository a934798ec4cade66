import PageTree.Error
import PageTree.Toml.Document

/-!
Settings of a user: where the store and the schema lie, and what a find does when the selector does
not say. An option on the command line goes before a setting.
-/

namespace PageTree

structure Settings where
  database : Option String
  schema : Option String
  debug : Bool
  logLevel : Option String
  pageSize : Option Int
  deriving DecidableEq, Repr

namespace Settings

def standard : Settings :=
  { database := none, schema := none, debug := false, logLevel := none, pageSize := none }

def text? (table : Toml.Table) (name : String) : Option (Option String) :=
  match table.find? name with
  | none => some none
  | some (.scalar (.text s)) => some (some s)
  | some _ => none

def integer? (table : Toml.Table) (name : String) : Option (Option Int) :=
  match table.find? name with
  | none => some none
  | some (.scalar (.integer n)) => some (some n)
  | some _ => none

def flag? (table : Toml.Table) (name : String) : Option Bool :=
  match table.find? name with
  | none => some false
  | some (.scalar (.boolean b)) => some b
  | some _ => none

/-- The settings of a table, which may hold more than settings. -/
def ofTable? (table : Toml.Table) : Option Settings := do
  let database ← text? table "database"
  let schema ← text? table "schema"
  let debug ← flag? table "debug"
  let logLevel ← text? table "log_level"
  let pageSize ← integer? table "page_size"
  some { database, schema, debug, logLevel, pageSize }

def ofText? (s : String) : Option Settings :=
  (Toml.Table.ofText? s).bind ofTable?

/-- The settings that a new user begins with; all of them are comments. -/
def starterText : String :=
  "\n".intercalate
    ["# pagefinder configuration",
      "",
      "# Database file (defaults to ./pages.db)",
      "# database = \"/path/to/pages.db\"",
      "",
      "# Field schema (defaults to ./schema.yaml)",
      "# schema = \"/path/to/schema.yaml\"",
      "",
      "# Add the selector to each query as an SQL comment",
      "# debug = false",
      "",
      "# Log filter when RUST_LOG is unset",
      "# log_level = \"warn\"",
      "",
      "# Default page size for \x60pf find\x60",
      "# page_size = 25",
      ""]

def databasePath (settings : Settings) (option : Option String) : String :=
  (option <|> settings.database).getD "pages.db"

def schemaPath (settings : Settings) (option : Option String) : String :=
  (option <|> settings.schema).getD "schema.yaml"

/-- The selector with the page size as its limit, unless it names one. -/
def withPageSize (settings : Settings) (selector : Selector) : Selector :=
  match settings.pageSize with
  | some size =>
    if 0 < size && !selector.any fun term => term.field = "limit" then
      selector ++ [Term.single "limit" .equal (toString size)]
    else
      selector
  | none => selector

end Settings

end PageTree
