import PageTree.Site.Invocation
import PageTree.Store.Archive
import Std.Time.DateTime.Timestamp

/-!
The program: it reads the files that its arguments may look at, runs the invocation on them and
writes what has changed.
-/

namespace PageTree.Program

/-- A file with a store in it, or a text. -/
def itemOf (content : String) : FileItem :=
  match Store.ofArchive? content with
  | some store => .store store true
  | none => .text content

def readItem? (place : Place) : IO (Option FileItem) := do
  try
    let content ← IO.FS.readFile (Files.pathOf place)
    return some (itemOf content)
  catch
    | .noFileOrDirectory .. => return none
    | _ => return some .folder

/-- The files with what lies on the way from a place along steps. -/
def loadFrom (files : Files) (place : Place) : List String → IO Files
  | [] => return files
  | step :: steps => do
    let next := Files.stepFrom place step
    match ← readItem? next with
    | some item => loadFrom (files.put next item) next steps
    | none => return files

def load (files : Files) (path : String) : IO Files :=
  loadFrom files (files.start path) (Files.steps path)

def writeItem (place : Place) : FileItem → IO Unit
  | .folder => IO.FS.createDirAll (Files.pathOf place)
  | .text content => IO.FS.writeFile (Files.pathOf place) content
  | .store store _ => IO.FS.writeFile (Files.pathOf place) store.archive

/-- Writes what differs from before, folders before what lies in them, and removes what is gone. -/
def save (before after : Files) : IO Unit := do
  after.items.reverse.forM fun (place, item) => do
    unless (before.itemAt? place).any fun old => old = item do
      writeItem place item
  before.items.forM fun (place, _) => do
    unless (after.itemAt? place).isSome do
      IO.FS.removeFile (Files.pathOf place)

def now : IO Date.Moment := do
  let time ← Std.Time.Timestamp.now
  return .ofSeconds time.toSecondsSinceUnixEpoch.val

/-- Settings that are missing or at fault are reported by the run itself. -/
def settingsFor (files : Files) (home : String) (invocation : Invocation) : Settings :=
  match Settings.load files home invocation.settings with
  | .ok settings => settings
  | .error _ => .standard

def run (invocation : Invocation) : IO UInt32 := do
  let home := (← IO.getEnv "HOME").getD ""
  let here ← IO.currentDir
  let start : Files :=
    { here := (Files.steps here.toString).filter fun step => step ≠ "", items := [] }
  let start ← load start here.toString
  let start ← load start (invocation.settings.getD (Settings.defaultPath home))
  let start ← (invocation.paths start home (settingsFor start home invocation)).foldlM load start
  let outcome := invocation.run start (← now) home
  save start outcome.files
  IO.print outcome.output
  match outcome.failure with
  | none => return 0
  | some failure =>
    IO.eprint failure.report
    return 1

end PageTree.Program

def main (arguments : List String) : IO UInt32 := do
  match PageTree.Invocation.ofArguments? arguments with
  | some invocation => PageTree.Program.run invocation
  | none =>
    IO.eprint PageTree.Invocation.usage
    return 2
