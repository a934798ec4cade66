import PageTree.Site.Command

/-!
Invocations: the arguments of a command line and what they ask for. Options may stand anywhere; the
first other argument names the command.
-/

namespace PageTree

structure Arguments where
  values : List (String × String)
  flags : List String
  operands : List String
  deriving DecidableEq, Repr

namespace Arguments

def empty : Arguments :=
  { values := [], flags := [], operands := [] }

def valueNames : List String :=
  ["--db", "--schema", "--config", "--page"]

def flagNames : List String :=
  ["--one", "--all-status", "--json"]

/-- An option that carries its value after an equals sign. -/
def splitOption? (argument : String) : Option (String × String) :=
  (Text.splitFirst? '=' argument.toList).bind fun (name, value) =>
    if valueNames.contains (String.ofList name) then
      some (String.ofList name, String.ofList value)
    else
      none

def withValue (arguments : Arguments) (name value : String) : Arguments :=
  { arguments with values := arguments.values ++ [(name, value)] }

def withOperands (arguments : Arguments) (operands : List String) : Arguments :=
  { arguments with operands := arguments.operands ++ operands }

/-- Adds arguments one by one. After two dashes alone all are operands. -/
def read? (arguments : Arguments) : List String → Option Arguments
  | [] => some arguments
  | "--" :: rest => some (arguments.withOperands rest)
  | [argument] =>
    if flagNames.contains argument then
      some { arguments with flags := arguments.flags ++ [argument] }
    else
      match splitOption? argument with
      | some (name, value) => some (arguments.withValue name value)
      | none =>
        if argument.startsWith "-" && 1 < argument.length then none
        else some (arguments.withOperands [argument])
  | argument :: value :: rest =>
    if valueNames.contains argument then
      read? (arguments.withValue argument value) rest
    else if flagNames.contains argument then
      read? { arguments with flags := arguments.flags ++ [argument] } (value :: rest)
    else
      match splitOption? argument with
      | some (name, given) => read? (arguments.withValue name given) (value :: rest)
      | none =>
        if argument.startsWith "-" && 1 < argument.length then none
        else read? (arguments.withOperands [argument]) (value :: rest)

def value? (arguments : Arguments) (name : String) : Option String :=
  arguments.values.lookup name

def hasFlag (arguments : Arguments) (name : String) : Bool :=
  arguments.flags.contains name

end Arguments

inductive Action where
  | command (command : Command)
  | createSettings
  deriving DecidableEq, Repr

structure Invocation where
  settings : Option String
  database : Option String
  schema : Option String
  action : Action
  deriving DecidableEq, Repr

namespace Invocation

/-- The options of a find; a page number must be a whole number. -/
def findOptions? (arguments : Arguments) : Option FindOptions := do
  let pageNumber ← match arguments.value? "--page" with
    | some text => (Number.readInt64? text.toList).map some
    | none => some none
  some
    { single := arguments.hasFlag "--one", allStatus := arguments.hasFlag "--all-status"
      pageNumber, json := arguments.hasFlag "--json" }

def action? (arguments : Arguments) : Option Action :=
  match arguments.operands with
  | ["init", path] => some (.command (.create path))
  | ["seed", file] => some (.command (.seed file))
  | ["find", selector] =>
    (findOptions? arguments).map fun options => .command (.find selector options)
  | ["explain", selector] => some (.command (.explain selector (arguments.hasFlag "--one")))
  | ["stats"] => some (.command .statistics)
  | ["config"] => some .createSettings
  | _ => none

def ofArguments? (given : List String) : Option Invocation := do
  let arguments ← Arguments.empty.read? given
  let action ← action? arguments
  some
    { settings := arguments.value? "--config", database := arguments.value? "--db"
      schema := arguments.value? "--schema", action }

/-- What is printed when the arguments ask for nothing. -/
def usage : String :=
  lines
    ["Usage: pf [--db FILE] [--schema FILE] [--config FILE] COMMAND", "", "Commands:",
      "  init PATH          Initialize a new site (schema.yaml and pages.db)",
      "  seed FILE          Import templates and pages from a YAML file",
      "  find SELECTOR      Find pages matching a selector",
      "                     [--one] [--all-status] [--page N] [--json]",
      "  explain SELECTOR   Print the SQL a selector compiles to [--one]",
      "  stats              Show database statistics",
      "  config             Create the default config file and print its path"]

def run (files : Files) (now : Date.Moment) (home : String) (invocation : Invocation) : Outcome :=
  match Settings.load files home invocation.settings with
  | .error failure => .failed files failure
  | .ok settings =>
    match invocation.action with
    | .command command =>
      command.run files now (settings.sitePaths invocation.database invocation.schema) settings
    | .createSettings =>
      match Settings.create files home with
      | (files, .error failure) => .failed files failure
      | (files, .ok path) => .done files (lines ["Config: " ++ path])

/-- Every path that an invocation may look at, given its settings. -/
def paths (files : Files) (home : String) (settings : Settings) (invocation : Invocation) :
    List String :=
  let site := settings.sitePaths invocation.database invocation.schema
  match invocation.action with
  | .createSettings => [Settings.defaultPath home]
  | .command (.create path) =>
    Files.join path "schema.yaml" :: files.storePaths (Files.join path "pages.db")
  | .command (.seed file) => [site.schema, file] ++ files.storePaths site.database
  | .command _ => site.schema :: files.storePaths site.database

end Invocation

/-- A failure as it is reported: the first message, and the causes below it. -/
def Failure.report (failure : Failure) : String :=
  match failure.messages with
  | [] => ""
  | [message] => lines ["Error: " ++ message]
  | [message, cause] => lines ["Error: " ++ message, "", "Caused by:", "    " ++ cause]
  | message :: causes =>
    lines <|
      ["Error: " ++ message, "", "Caused by:"]
        ++ causes.mapIdx fun i cause => padStart 5 (toString i) ++ ": " ++ cause

end PageTree
