import PageTree.Store.Basic

/-!
Files by place: texts, page stores and folders. A path begins in the working folder, unless it
begins with a slash, and passes through existing folders only, also where it goes back up.
-/

namespace PageTree

inductive FileItem where
  | folder
  | text (content : String)
  /-- A store, and whether its changes go through a log beside it. -/
  | store (store : Store) (isLogged : Bool)
  deriving DecidableEq

/-- The names that lead to a file from the topmost folder. -/
abbrev Place := List String

structure Files where
  here : Place
  items : List (Place × FileItem)

/-- Why a path leads nowhere, or a folder cannot be made. -/
inductive FolderFault where
  /-- A folder on the way is missing. -/
  | missing
  /-- Something has the name. -/
  | occupied
  /-- The path passes through a file. -/
  | blocked
  | tooLong
  /-- A zero character ends every path that is told to the system. -/
  | zeroCharacter
  deriving DecidableEq, Repr

def FolderFault.message : FolderFault → String
  | .missing => "No such file or directory (os error 2)"
  | .occupied => "File exists (os error 17)"
  | .blocked => "Not a directory (os error 20)"
  | .tooLong => "File name too long (os error 36)"
  | .zeroCharacter => "file name contained an unexpected NUL byte"

namespace Files

/-- The folders on the way to a place, and the place. -/
def beginnings : Place → List Place
  | [] => []
  | name :: names => [name] :: (beginnings names).map (name :: ·)

def emptyAt (here : Place) : Files :=
  { here, items := (beginnings here).map fun place => (place, .folder) }

/-! ### Places -/

/-- What lies at a place. The topmost folder is always there. -/
def itemAt? (files : Files) (place : Place) : Option FileItem :=
  if place.isEmpty then some .folder else files.items.lookup place

def isFolderAt (files : Files) (place : Place) : Bool :=
  match files.itemAt? place with
  | some .folder => true
  | _ => false

def put (files : Files) (place : Place) (item : FileItem) : Files :=
  { files with items := (place, item) :: files.items.filter fun entry => entry.1 ≠ place }

def erase (files : Files) (place : Place) : Files :=
  { files with items := files.items.filter fun entry => entry.1 ≠ place }

def steps (path : String) : List String :=
  (Text.splitAt '/' path.toList).map String.ofList

def isAbsolute (path : String) : Bool :=
  path.toList.head? = some '/'

def start (files : Files) (path : String) : Place :=
  if isAbsolute path then [] else files.here

def isStill (step : String) : Bool :=
  step = "" || step = "."

def stepFrom (place : Place) (step : String) : Place :=
  if isStill step then place
  else if step = ".." then place.dropLast
  else place ++ [step]

/-- The bytes in the longest name. -/
def nameLimit : Nat := 255

/-- The bytes in the longest path. -/
def pathLimit : Nat := 4095

/-- The place that steps lead to; all but the last step end in folders. -/
def walk (files : Files) (place : Place) : List String → Except FolderFault Place
  | [] => .ok place
  | step :: steps =>
    match files.itemAt? place with
    | none => .error .missing
    | some .folder =>
      if nameLimit < step.utf8ByteSize then .error .tooLong
      else walk files (stepFrom place step) steps
    | some _ => .error .blocked

def pathFault? (path : String) : Option FolderFault :=
  if path.toList.contains '\x00' then some .zeroCharacter
  else if path = "" then some .missing
  else if pathLimit < path.utf8ByteSize then some .tooLong
  else none

/-- The place of a path, where something may or may not lie. -/
def place? (files : Files) (path : String) : Option Place :=
  match pathFault? path with
  | some _ => none
  | none => (files.walk (files.start path) (steps path)).toOption

/-- The path of a place from the topmost folder. -/
def pathOf (place : Place) : String :=
  "/" ++ "/".intercalate place

def join (path name : String) : String :=
  if path = "" ∨ path.toList.getLast? = some '/' then path ++ name else path ++ "/" ++ name

/-! ### Texts and folders -/

def item? (files : Files) (path : String) : Option FileItem :=
  (files.place? path).bind files.itemAt?

def contains (files : Files) (path : String) : Bool :=
  (files.item? path).isSome

/-- The text at a path. A store is no text. -/
def text? (files : Files) (path : String) : Option String :=
  match files.item? path with
  | some (.text content) => some content
  | _ => none

/-- Sets the text at a path whose folders are there. -/
def write (files : Files) (path : String) (content : String) : Files :=
  match files.place? path with
  | some place => files.put place (.text content)
  | none => files

def makeLast (files : Files) (start : Place) (steps : List String) : Except FolderFault Files := do
  let place ← files.walk start steps
  match files.itemAt? place with
  | some _ => .error .occupied
  | none => .ok (files.put place .folder)

/-- The files that making a folder leaves, and what kept it from being made. -/
abbrev Making := Files × Option FolderFault

/-- A folder that cannot be made is as good as made when it is there. -/
def orThere (files : Files) (start : Place) (steps : List String) :
    Except FolderFault Files → Making
  | .ok made => (made, none)
  | .error fault =>
    match files.walk start steps with
    | .ok place => (files, if files.isFolderAt place then none else some fault)
    | .error _ => (files, some fault)

/-- Makes the folder that steps lead to, after those before it when they are missing. The steps
are given backwards. -/
def makeBackwards (files : Files) (start : Place) : List String → Making
  | [] => (files, none)
  | step :: before =>
    let steps := (step :: before).reverse
    match files.makeLast start steps with
    | .error .missing =>
      match makeBackwards files start before with
      | (files, some fault) => (files, some fault)
      | (files, none) => files.orThere start steps (files.makeLast start steps)
    | result => files.orThere start steps result

/-- Makes a folder and the folders on the way to it, where they are missing. A path that ends in a
dot names no new folder. -/
def makeFolder (files : Files) (path : String) : Making :=
  if path = "" then
    (files, none)
  else
    match pathFault? path with
    | some fault => (files, some fault)
    | none =>
      let start := files.start path
      let names := (steps path).filter fun step => !isStill step
      if ((steps path).filter fun step => step ≠ "").getLast? = some "." then
        match files.walk start (names ++ ["."]) with
        | .ok _ => (files, none)
        | .error .missing =>
          let (files, fault) := files.makeBackwards start names.dropLast.reverse
          (files, some (fault.getD .missing))
        | .error fault => (files, some fault)
      else
        files.makeBackwards start names.reverse

end Files

end PageTree
