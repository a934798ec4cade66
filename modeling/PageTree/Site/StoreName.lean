import PageTree.Text.Percent

/-!
Names of stores. A name is a path, unless it begins with `file:`; then it is a path with percent
escapes, after which options may follow that say how the store is opened.
-/

namespace PageTree

structure StoreAccess where
  /-- Is the file made when it is missing? -/
  creates : Bool
  writes : Bool
  /-- Is the file taken for one that never changes? -/
  isFixed : Bool
  /-- Does nobody else open the file at the same time? Then changes need a journal and no log. -/
  isAlone : Bool
  /-- A path where something has to lie. -/
  needed : Option String
  deriving DecidableEq, Repr

inductive StoreName where
  /-- A store that is kept only while it is open. -/
  | fleeting (writes : Bool)
  | file (path : String) (access : StoreAccess)
  deriving DecidableEq, Repr

namespace StoreName

/-! ### Modes -/

inductive Mode where
  | readOnly
  | existing
  | create
  | memory
  deriving DecidableEq, Repr

namespace Mode

def all : List Mode :=
  [.readOnly, .existing, .create, .memory]

def name : Mode → String
  | .readOnly => "ro"
  | .existing => "rw"
  | .create => "rwc"
  | .memory => "memory"

def ofName? (name : String) : Option Mode :=
  all.find? fun mode => mode.name = name

/-- What a mode permits beyond others. -/
def rank : Mode → Nat
  | .readOnly => 0
  | .existing => 1
  | .create => 2
  | .memory => 3

/-- The mode after one more is asked for. It permits no more than the one before, but a store in
memory may always be asked for. -/
def next? (mode next : Mode) : Option Mode :=
  if next = .memory || next.rank ≤ mode.rank then some next else none

end Mode

/-! ### Options -/

abbrev Options := List (String × String)

/-- Cuts a text at the first occurrence of a character, which belongs to neither part. -/
def cut (sep : Char) (cs : List Char) : List Char × List Char :=
  (cs.takeWhile (· ≠ sep), (cs.dropWhile (· ≠ sep)).drop 1)

/-- The options of a text. One without a name is none. -/
def readOptions (cs : List Char) : Options :=
  ((Text.splitAt '&' cs).map fun part =>
    let (name, value) := cut '=' part
    (Text.percentDecode name, Text.percentDecode value)).filter fun option => option.1 ≠ ""

def modeOf? (options : Options) : Option Mode :=
  options.foldl
    (fun mode option =>
      if option.1 = "mode" then
        mode.bind fun mode => (Mode.ofName? option.2).bind mode.next?
      else
        mode)
    (some .create)

/-- The number at the start of a text, zero when there is none or one beyond 32 bits. -/
def leadingNumber (cs : List Char) : Nat :=
  let number :=
    match cs with
    | '0' :: x :: rest =>
      if x = 'x' ∨ x = 'X' then
        (Text.hexValue? (rest.takeWhile fun c => (Text.hexValue? [c]).isSome)).getD 0
      else
        (Text.baseValue? 10 (cs.takeWhile Char.isDigit)).getD 0
    | _ => (Text.baseValue? 10 (cs.takeWhile Char.isDigit)).getD 0
  if number < Nat.pow 2 31 then number else 0

/-- Does a value say yes? A number does by its last byte. -/
def saysYes (value : String) : Bool :=
  if value.toList.head?.any Char.isDigit then
    leadingNumber value.toList % 256 != 0
  else
    ["on", "yes", "true"].contains value.toLower

/-- Does the first option of a name say yes? -/
def isSet (options : Options) (name : String) : Bool :=
  (options.lookup name).any saysYes

/-- The last value of an option, if there is one. -/
def last? (options : Options) (name : String) : Option String :=
  options.reverse.lookup name

inductive Layer where
  /-- With a log beside the file. -/
  | shared
  /-- With a journal beside the file. -/
  | alone
  | memory
  deriving DecidableEq, Repr

def Layer.ofName? : String → Option Layer
  | "unix" | "unix-excl" => some .shared
  | "unix-none" | "unix-dotfile" => some .alone
  | "memdb" => some .memory
  | _ => none

def layerOf? (options : Options) : Option Layer :=
  match last? options "vfs" with
  | none => some .shared
  | some name => Layer.ofName? name

def isCache (value : String) : Bool :=
  value = "shared" || value = "private"

/-! ### Names -/

/-- The names of stores that no file keeps. -/
def isFleetingPath (path : String) : Bool :=
  path = "" || path = ":memory:"

def withOptions? (path : String) (options : Options) : Option StoreName := do
  guard <| options.all fun option => option.1 ≠ "cache" || isCache option.2
  let mode ← modeOf? options
  let layer ← layerOf? options
  let isFixed := isSet options "immutable"
  some <|
    if isFleetingPath path || mode = .memory then
      .fleeting (mode ≠ .readOnly)
    else if layer = .memory then
      .fleeting (mode ≠ .readOnly && !isFixed)
    else
      .file path
        { creates := mode = .create
          writes := mode ≠ .readOnly
          isFixed
          isAlone := layer = .alone || isSet options "nolock"
          needed := options.lookup "modeof" }

/-- The path after the name of the own machine, which is the only one that may be named. -/
def afterHost? : List Char → Option (List Char)
  | '/' :: '/' :: cs =>
    let host := cs.takeWhile (· ≠ '/')
    if host.isEmpty || String.ofList host = "localhost" then some (cs.drop host.length) else none
  | cs => some cs

/-- A path with escapes, whose steps are decoded one by one. -/
def decodePath (cs : List Char) : String :=
  "/".intercalate <| (splitBytes (Text.percentBytes cs)).map Text.ofBytes
where
  splitBytes : List UInt8 → List (List UInt8)
    | [] => [[]]
    | byte :: bytes =>
      if byte = '/'.toUInt8 then
        [] :: splitBytes bytes
      else
        match splitBytes bytes with
        | [] => [[byte]]
        | step :: steps => (byte :: step) :: steps

def standardAccess : StoreAccess :=
  { creates := true, writes := true, isFixed := false, isAlone := false, needed := none }

def ofPath (path : String) : StoreName :=
  if isFleetingPath path then .fleeting true else .file path standardAccess

/-- The store of a name. A zero character is in no name. -/
def ofText? (name : String) : Option StoreName :=
  if name.toList.contains '\x00' then
    none
  else
    match name.toList with
    | 'f' :: 'i' :: 'l' :: 'e' :: ':' :: cs => do
      let (path, options) := cut '?' ((← afterHost? cs).takeWhile (· ≠ '#'))
      withOptions? (decodePath path) (readOptions options)
    | _ => some (ofPath name)

end StoreName

end PageTree
