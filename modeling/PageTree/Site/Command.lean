import PageTree.Schema.Document
import PageTree.Schema.Validation
import PageTree.Site.Files
import PageTree.Site.Listing
import PageTree.Site.Settings
import PageTree.Site.StoreFile
import PageTree.Store.Definition
import PageTree.Store.Rows
import PageTree.Store.SeedDocument

/-!
Commands on the files of a site. A command opens the site, which is its schema and its store, does
its work and prints. What was printed and changed before a failure stays.
-/

namespace PageTree

inductive Failure where
  | unreadableSettings (path : String)
  | malformedSettings (path : String)
  | unreadableSchema (path : String)
  | malformedSchema (path : String)
  | invalidSchema (path : String) (violations : List Schema.Violation)
  | unopenedStore (path : String)
  | unmadeTables (error : Error)
  | unmadeSite (path : String) (fault : FolderFault)
  | unmadeFolder (fault : FolderFault)
  | unreadableSeed (path : String)
  | malformedSeed (path : String)
  | seed (fault : SeedFault)
  | finder (error : Error)

/-- What went wrong, from the command as a whole down to the cause. -/
def Failure.messages : Failure → List String
  | .unreadableSettings path => ["Failed to read config: " ++ path]
  | .malformedSettings path => ["Failed to parse config: " ++ path]
  | .unreadableSchema path => ["Failed to read schema file: " ++ path]
  | .malformedSchema path => ["Failed to parse schema file: " ++ path]
  | .invalidSchema path violations =>
    ["Invalid schema " ++ path ++ ":\n  "
      ++ "\n  ".intercalate (violations.map Schema.Violation.text)]
  | .unopenedStore path => ["Failed to open database: " ++ path]
  | .unmadeTables error => ["Failed to create field tables", error.message]
  | .unmadeSite path fault => ["Failed to create directory: " ++ path, fault.message]
  | .unmadeFolder fault => [fault.message]
  | .unreadableSeed path => ["Failed to read seed file: " ++ path]
  | .malformedSeed path => ["Failed to parse seed file: " ++ path]
  | .seed fault => fault.messages
  | .finder error => [error.message]

/-- What a command leaves: the files, what it printed, and a failure if it stopped. -/
structure Outcome where
  files : Files
  output : String
  failure : Option Failure

namespace Outcome

def failed (files : Files) (failure : Failure) : Outcome :=
  { files, output := "", failure := some failure }

def done (files : Files) (output : String) : Outcome :=
  { files, output, failure := none }

def after (output : String) (outcome : Outcome) : Outcome :=
  { outcome with output := output ++ outcome.output }

end Outcome

/-! ### Sites -/

/-- The schema at a path. Without a file there are no attached fields. -/
def Schema.load (files : Files) (path : String) : Except Failure Schema :=
  if files.contains path then
    match files.text? path with
    | none => .error (.unreadableSchema path)
    | some content =>
      match Schema.ofText? content with
      | none => .error (.malformedSchema path)
      | some schema =>
        if schema.Valid then .ok schema else .error (.invalidSchema path schema.violations)
  else
    .ok []

structure Site where
  schema : Schema
  store : Store
  home : Option StoreHome

structure SitePaths where
  database : String
  schema : String
  deriving DecidableEq, Repr

namespace Site

/-- Opens a site and makes the tables of its fields. The store is kept even when that fails. -/
def open? (files : Files) (now : Date.Moment) (paths : SitePaths) :
    Files × Except Failure Site :=
  match Schema.load files paths.schema with
  | .error failure => (files, .error failure)
  | .ok schema =>
    match files.openStore now paths.database with
    | (files, none) => (files, .error (.unopenedStore paths.database))
    | (files, some { store, home }) =>
      match store.ensureTables schema.fields with
      | (store, .error error) => (files.keep home store, .error (.unmadeTables error))
      | (store, .ok ()) => (files.keep home store, .ok { schema, store, home })

def withOpen (files : Files) (now : Date.Moment) (paths : SitePaths)
    (work : Files → Site → Outcome) : Outcome :=
  match open? files now paths with
  | (files, .error failure) => .failed files failure
  | (files, .ok site) => work files site

def catalog (site : Site) (now : Date.Moment) (pageNumber : Option Int) : Catalog :=
  site.store.catalog site.schema now pageNumber

end Site

/-! ### Commands -/

structure FindOptions where
  single : Bool
  allStatus : Bool
  pageNumber : Option Int
  json : Bool
  deriving DecidableEq, Repr

inductive Command where
  | create (path : String)
  | seed (file : String)
  | find (selector : String) (options : FindOptions)
  | explain (selector : String) (single : Bool)
  | statistics
  deriving DecidableEq, Repr

namespace Command

def runCreate (files : Files) (now : Date.Moment) (path : String) : Outcome :=
  let begun := lines ["Initializing site at: " ++ path]
  match files.makeFolder path with
  | (files, some fault) => (Outcome.failed files (.unmadeSite path fault)).after begun
  | (files, none) =>
    let paths : SitePaths :=
      { database := Files.join path "pages.db", schema := Files.join path "schema.yaml" }
    let kept := files.contains paths.schema
    let files := if kept then files else files.write paths.schema Schema.starterText
    let schemaLine := if kept then "• Keeping existing schema.yaml" else "✓ Created schema.yaml"
    (Site.withOpen files now paths fun files _ =>
      .done files <| lines
        ["✓ Created pages.db", "",
          "Site initialized! Import pages with \x60pf seed <file>\x60."]).after
      (begun ++ lines [schemaLine])

def runSeed (files : Files) (now : Date.Moment) (paths : SitePaths) (file : String) : Outcome :=
  Site.withOpen files now paths fun files site =>
    match files.text? file with
    | none => .failed files (.unreadableSeed file)
    | some content =>
      match Seed.ofText? content with
      | none => .failed files (.malformedSeed file)
      | some parsed =>
        let imported := site.store.importSeed site.schema now parsed
        let files := files.keep site.home imported.store
        match imported.fault with
        | some fault => .failed files (.seed fault)
        | none =>
          .done files <| lines
            ["✓ Imported " ++ file, "  " ++ toString imported.report.templates ++ " templates",
              "  " ++ toString imported.report.pages ++ " pages",
              "  " ++ toString imported.report.values ++ " field values"]

def readSelector (settings : Settings) (selector : String) : Except Error Selector :=
  (Selector.read selector).map settings.withPageSize

def runFind (files : Files) (now : Date.Moment) (paths : SitePaths) (settings : Settings)
    (selector : String) (options : FindOptions) : Outcome :=
  Site.withOpen files now paths fun files site =>
    match readSelector settings selector with
    | .error error => .failed files (.finder error)
    | .ok selector =>
      let finder :=
        { Finder.new with checkStatus := !options.allStatus, debug := settings.debug }
      let found := finder.find (site.catalog now options.pageNumber) site.store.engine selector
        options.single
      match found.rows with
      | .error error => .failed files (.finder error)
      | .ok rows =>
        .done files
          (if options.json then jsonListing rows else listing site.store found.finder rows)

def runExplain (files : Files) (now : Date.Moment) (paths : SitePaths) (settings : Settings)
    (selector : String) (single : Bool) : Outcome :=
  Site.withOpen files now paths fun files site =>
    let finder := { Finder.new with debug := settings.debug }
    match readSelector settings selector with
    | .error error => .failed files (.finder error)
    | .ok selector =>
      match finder.queryFor (site.catalog now none) selector single with
      | .error error => .failed files (.finder error)
      | .ok query => .done files (lines [query.render])

def runStatistics (files : Files) (now : Date.Moment) (paths : SitePaths) : Outcome :=
  Site.withOpen files now paths fun files site =>
    .done files (site.store.statistics site.schema).listing

def run (files : Files) (now : Date.Moment) (paths : SitePaths) (settings : Settings) :
    Command → Outcome
  | .create path => runCreate files now path
  | .seed file => runSeed files now paths file
  | .find selector options => runFind files now paths settings selector options
  | .explain selector single => runExplain files now paths settings selector single
  | .statistics => runStatistics files now paths

end Command

/-! ### Settings files -/

namespace Settings

def defaultPath (home : String) : String :=
  Files.join home ".config/pagefinder/config.toml"

def loadFrom (files : Files) (path : String) : Except Failure Settings :=
  match files.text? path with
  | none => .error (.unreadableSettings path)
  | some content =>
    match ofText? content with
    | none => .error (.malformedSettings path)
    | some settings => .ok settings

/-- The settings at a path, or else at their usual place, where they may be missing. -/
def load (files : Files) (home : String) : Option String → Except Failure Settings
  | some path => loadFrom files path
  | none =>
    if files.contains (defaultPath home) then loadFrom files (defaultPath home) else .ok standard

/-- Writes the settings that a new user begins with, unless there are some. -/
def create (files : Files) (home : String) : Files × Except Failure String :=
  let path := defaultPath home
  if files.contains path then
    (files, .ok path)
  else
    match files.makeFolder (Files.join home ".config/pagefinder") with
    | (files, some fault) => (files, .error (.unmadeFolder fault))
    | (files, none) => (files.write path starterText, .ok path)

def sitePaths (settings : Settings) (database schema : Option String) : SitePaths :=
  { database := settings.databasePath database, schema := settings.schemaPath schema }

end Settings

end PageTree
