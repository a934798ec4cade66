import PageTree.Site.Files
import PageTree.Site.StoreName

/-!
Stores in files. Beside the file of a store lie its journal and, while it is open, a log and an
index of the log; opening a store takes them in or clears them away.
-/

namespace PageTree

namespace Files

/-- The bytes in the longest path of a store from the topmost folder. -/
def storePathLimit : Nat := 504

/-- The bytes in a path from the topmost folder. -/
def pathSize (place : Place) : Nat :=
  place.foldl (fun size name => size + name.utf8ByteSize + 1) 0

/-- The place that steps lead to, whatever lies on the way. -/
def storePlaceFrom? (place : Place) : List String → Option Place
  | [] => if place ≠ [] ∧ pathSize place ≤ storePathLimit then some place else none
  | step :: steps =>
    let next := stepFrom place step
    if pathSize next < storePathLimit + 8 then storePlaceFrom? next steps else none

def storePlace? (files : Files) (path : String) : Option Place :=
  storePlaceFrom? (files.start path) (steps path)

/-! ### Companions -/

/-- The file of the same name with an ending. -/
def beside (place : Place) (ending : String) : Place :=
  place.dropLast ++ [(place.getLast?.getD "") ++ ending]

def journalPlace (place : Place) : Place :=
  beside place "-journal"

def logPlace (place : Place) : Place :=
  beside place "-wal"

def indexPlace (place : Place) : Place :=
  beside place "-shm"

def isFilled (files : Files) (place : Place) : Bool :=
  match files.itemAt? place with
  | some (.text content) => content ≠ ""
  | some (.store ..) => true
  | _ => false

/-- Does a journal hold changes to take back? One that is empty or begins with a zero character
does not. -/
def isHot (files : Files) (place : Place) : Bool :=
  match files.itemAt? place with
  | some (.text content) => content.toList.head?.any (· ≠ '\x00')
  | some (.store ..) => true
  | _ => false

def clearJournal (files : Files) (place : Place) : Files :=
  if files.isHot (journalPlace place) then files.erase (journalPlace place) else files

def clearLog (files : Files) (place : Place) : Files :=
  (files.erase (logPlace place)).erase (indexPlace place)

/-- Does a folder keep a companion from being used? -/
def isObstructed (files : Files) (place : Place) : Bool :=
  files.isFolderAt (journalPlace place) || files.isFolderAt (logPlace place) ||
    files.isFolderAt (indexPlace place)

/-- Is a text taken for the file of a store that holds nothing yet? -/
def isBlankStore (content : String) : Bool :=
  content.utf8ByteSize ≤ 1

/-- Is there room in the name for the endings of companions? -/
def hasRoom (place : Place) : Bool :=
  (place.getLast?.getD "").utf8ByteSize + "-journal".utf8ByteSize ≤ nameLimit

end Files

/-! ### Opening -/

structure StoreHome where
  place : Place
  isLogged : Bool
  deriving DecidableEq, Repr

structure OpenStore where
  store : Store
  /-- None for a store that is kept only while it is open. -/
  home : Option StoreHome

namespace Files

/-- Sets the store of a home. -/
def keep (files : Files) (home : Option StoreHome) (store : Store) : Files :=
  match home with
  | some home => files.put home.place (.store store home.isLogged)
  | none => files

/-- Opens a store that others may open at the same time. -/
def openShared (files : Files) (now : Date.Moment) (place : Place) : FileItem →
    Files × Option OpenStore
  | .folder => (files, none)
  | .text content =>
    if isBlankStore content then
      if files.isObstructed place then
        (files, none)
      else
        ((files.erase (journalPlace place)).clearLog place,
          some { store := .new now, home := some { place, isLogged := true } })
    else
      let files := files.clearJournal place
      (if files.isFilled (logPlace place) then files.clearLog place else files, none)
  | .store store _ =>
    if files.isObstructed place then
      (files, none)
    else
      ((files.clearJournal place).clearLog place,
        some { store, home := some { place, isLogged := true } })

/-- Opens a store that nobody else opens at the same time. It has no log. -/
def openAlone (files : Files) (now : Date.Moment) (place : Place) : FileItem →
    Files × Option OpenStore
  | .folder => (files, none)
  | .text content =>
    if isBlankStore content then
      if files.isFolderAt (journalPlace place) || files.isFolderAt (logPlace place) then
        (files, none)
      else
        let files := files.erase (journalPlace place)
        (if files.isFilled (logPlace place) then files.erase (logPlace place) else files,
          some { store := .new now, home := some { place, isLogged := false } })
    else
      (files.clearJournal place, none)
  | .store store isLogged =>
    let files := files.clearJournal place
    (files,
      if isLogged || files.isFolderAt (journalPlace place) || files.isFilled (logPlace place) then
        none
      else
        some { store, home := some { place, isLogged := false } })

/-- Adds the companions of an open store that are missing. -/
def addOpenLog (files : Files) (place : Place) : Files :=
  [logPlace place, indexPlace place].foldl
    (fun files companion =>
      if (files.itemAt? companion).isSome then files else files.put companion (.text ""))
    files

/-- What an attempt to open a store without changing it leaves: a log that is opened stays open,
and the log of a blank file goes. -/
def openUnchanged (files : Files) (place : Place) (access : StoreAccess) (item : FileItem) :
    Files :=
  let hasLog := files.isFilled (logPlace place)
  if access.isFixed || access.isAlone then
    files
  else
    match item with
    | .folder => files
    | .store _ isLogged =>
      if (isLogged || hasLog) && !files.isHot (journalPlace place) then files.addOpenLog place
      else files
    | .text content =>
      if !hasLog then files
      else if isBlankStore content then files.erase (logPlace place)
      else if files.isHot (journalPlace place) then files
      else files.addOpenLog place

/-- Opens what lies at a place. A store cannot be opened without changing it. -/
def openItem (files : Files) (now : Date.Moment) (place : Place) (access : StoreAccess)
    (item : FileItem) : Files × Option OpenStore :=
  if !access.writes || access.isFixed then (files.openUnchanged place access item, none)
  else if !hasRoom place then (files, none)
  else if access.isAlone then files.openAlone now place item
  else files.openShared now place item

/-- Opens the store in a file, which begins empty when it is missing and may be made. -/
def openFile (files : Files) (now : Date.Moment) (path : String) (access : StoreAccess) :
    Files × Option OpenStore :=
  match files.storePlace? path with
  | none => (files, none)
  | some place =>
    if !files.isFolderAt place.dropLast || nameLimit < (place.getLast?.getD "").utf8ByteSize ||
        access.needed.any fun needed => !files.contains needed then
      (files, none)
    else
      match files.itemAt? place with
      | some item => files.openItem now place access item
      | none =>
        if access.creates then
          (files.put place (.text "")).openItem now place access (.text "")
        else
          (files, none)

def openStore (files : Files) (now : Date.Moment) (name : String) : Files × Option OpenStore :=
  match StoreName.ofText? name with
  | none => (files, none)
  | some (.fleeting writes) =>
    (files, if writes then some { store := .new now, home := none } else none)
  | some (.file path access) => files.openFile now path access

/-- The paths that opening the store of a name may look at. -/
def storePaths (files : Files) (name : String) : List String :=
  match StoreName.ofText? name with
  | some (.file path access) =>
    match files.storePlace? path with
    | some place =>
      [place, journalPlace place, logPlace place, indexPlace place].map pathOf
        ++ access.needed.toList
    | none => []
  | _ => []

end Files

end PageTree
