import PageTree.Toml.Scalar

/-!
Settings files: lines that give keys values, under headers that name tables. A key has one value,
and a table is begun once.
-/

namespace PageTree.Toml

inductive TableOrigin where
  /-- A header names it. -/
  | header
  /-- A longer header passes through it. -/
  | passed
  /-- A key with dots passes through it. -/
  | dotted
  /-- It is written between braces and complete. -/
  | braces
  deriving DecidableEq, Repr

inductive Value where
  | scalar (scalar : Scalar)
  | array (items : List Value)
  | table (origin : TableOrigin) (entries : List (String × Value))
  /-- The tables of a header in double brackets, the last one first. -/
  | tables (elements : List (List (String × Value)))
  deriving Repr, Inhabited

abbrev Table := List (String × Value)

namespace Table

def find? (table : Table) (name : String) : Option Value :=
  (table : List (String × Value)).lookup name

/-- The table with another value for a name that it has, or with the name after all others. -/
def set (name : String) (value : Value) : Table → Table
  | [] => [(name, value)]
  | (other, old) :: rest =>
    if other = name then (name, value) :: rest else (other, old) :: set name value rest

/-- Gives a key its value. Its dots pass through tables that headers passed through or keys began,
and it ends in a table that keys began, unless it has no dots. -/
def addKey? (value : Value) : List String → Table → Option Table
  | [], _ => none
  | [name], table =>
    match table.find? name with
    | none => some (table.set name value)
    | some _ => none
  | name :: names, table =>
    match table.find? name with
    | none => (addKey? value names []).map fun inner => table.set name (.table .dotted inner)
    | some (.table .dotted inner) =>
      (addKey? value names inner).map fun inner => table.set name (.table .dotted inner)
    | some (.table .passed inner) =>
      if names.length = 1 then none
      else (addKey? value names inner).map fun inner => table.set name (.table .passed inner)
    | some (.tables (last :: before)) =>
      if names.length = 1 then none
      else (addKey? value names last).map fun last => table.set name (.tables (last :: before))
    | some _ => none

/-- Changes the table that a header names. `finish` changes the table around it, which has or has
not its last name. -/
def alter? (finish : String → Table → Option Table) : List String → Table → Option Table
  | [], _ => none
  | [name], table => finish name table
  | name :: names, table =>
    match table.find? name with
    | none => (alter? finish names []).map fun inner => table.set name (.table .passed inner)
    | some (.table .braces _) => none
    | some (.table origin inner) =>
      (alter? finish names inner).map fun inner => table.set name (.table origin inner)
    | some (.tables (last :: before)) =>
      (alter? finish names last).map fun last => table.set name (.tables (last :: before))
    | some _ => none

def beginTable? (name : String) (table : Table) : Option Table :=
  match table.find? name with
  | none => some (table.set name (.table .header []))
  | some (.table .passed inner) => some (table.set name (.table .header inner))
  | some _ => none

/-- Begins one more table of a header in double brackets. -/
def beginElement? (name : String) (table : Table) : Option Table :=
  match table.find? name with
  | none => some (table.set name (.tables [[]]))
  | some (.tables elements) => some (table.set name (.tables ([] :: elements)))
  | some _ => none

/-- Gives a key its value in the table of the last header. -/
def addUnder? (header : List String) (keys : List String) (value : Value) (table : Table) :
    Option Table :=
  if header.isEmpty then
    addKey? value keys table
  else
    table.alter? (fun name around =>
      match around.find? name with
      | some (.table origin inner) =>
        (addKey? value keys inner).map fun inner => around.set name (.table origin inner)
      | some (.tables (last :: before)) =>
        (addKey? value keys last).map fun last => around.set name (.tables (last :: before))
      | _ => none) header

end Table

/-! ### Reading -/

def skipSpaces (cs : List Char) : List Char :=
  cs.dropWhile fun c => c = ' ' || c = '\t'

def isKeyChar (c : Char) : Bool :=
  c.isAlphanum || c = '_' || c = '-'

def readName? (cs : List Char) : Option (String × List Char) :=
  match cs with
  | '"' :: rest => (readLine? '"' 0 rest).map fun r => (String.ofList r.1, r.2)
  | '\'' :: rest => (readLine? '\'' 0 rest).map fun r => (String.ofList r.1, r.2)
  | _ =>
    let name := cs.takeWhile isKeyChar
    if name.isEmpty then none else some (String.ofList name, cs.drop name.length)

/-- One name or several with dots between them, and the text after their blanks. -/
def readNames? : Nat → List Char → Option (List String × List Char)
  | 0, _ => none
  | fuel + 1, cs => do
    let (name, rest) ← readName? (skipSpaces cs)
    match skipSpaces rest with
    | '.' :: rest => do
      let (names, rest) ← readNames? fuel rest
      some (name :: names, rest)
    | rest => some ([name], rest)

/-- What may stand inside one another: so many brackets and braces in a value, and so many names in
a key. -/
def depthLimit : Nat := 79

def readKey? (cs : List Char) : Option (List String × List Char) :=
  (readNames? (cs.length + 1) cs).filter fun r => r.1.length ≤ depthLimit

/-- A comment holds no control characters. -/
def skipComment? (cs : List Char) : Option (List Char) :=
  match cs with
  | '#' :: rest =>
    let after := rest.dropWhile isTextChar
    match after with
    | [] => some []
    | '\n' :: _ => some after
    | _ => none
  | _ => some cs

def skipLines? : Nat → List Char → Option (List Char)
  | 0, _ => none
  | fuel + 1, cs =>
    match skipSpaces cs with
    | '\n' :: rest => skipLines? fuel rest
    | '#' :: rest => (skipComment? ('#' :: rest)).bind (skipLines? fuel)
    | rest => some rest

mutual

/-- A value inside of which so many brackets and braces may still stand. -/
def readValue? : Nat → Nat → List Char → Option (Value × List Char)
  | 0, _, _ => none
  | fuel + 1, room, cs =>
    match cs, room with
    | '[' :: rest, room + 1 => (readItems? fuel room rest).map fun r => (.array r.1, r.2)
    | '\x7b' :: rest, room + 1 =>
      match skipSpaces rest with
      | '\x7d' :: rest => some (.table .braces [], rest)
      | rest => (readPairs? fuel room [] rest).map fun r => (.table .braces r.1, r.2)
    | _, _ => (readScalar? cs).map fun r => (.scalar r.1, r.2)

/-- The items up to a closing bracket, over any number of lines. -/
def readItems? : Nat → Nat → List Char → Option (List Value × List Char)
  | 0, _, _ => none
  | fuel + 1, room, cs => do
    let start ← skipLines? (cs.length + 1) cs
    match start with
    | ']' :: rest => some ([], rest)
    | _ => do
      let (item, rest) ← readValue? fuel room start
      let rest ← skipLines? (rest.length + 1) rest
      match rest with
      | ',' :: rest => do
        let (items, rest) ← readItems? fuel room rest
        some (item :: items, rest)
      | ']' :: rest => some ([item], rest)
      | _ => none

/-- The pairs up to a closing brace, on one line. -/
def readPairs? : Nat → Nat → Table → List Char → Option (Table × List Char)
  | 0, _, _, _ => none
  | fuel + 1, room, table, cs => do
    let (keys, rest) ← readKey? cs
    match rest with
    | '=' :: rest => do
      let (value, rest) ← readValue? fuel room (skipSpaces rest)
      let table ← table.addKey? value keys
      match skipSpaces rest with
      | ',' :: rest => readPairs? fuel room table rest
      | '\x7d' :: rest => some (table, rest)
      | _ => none
    | _ => none

end

inductive Statement where
  | pair (keys : List String) (value : Value)
  | header (keys : List String)
  | element (keys : List String)
  deriving Repr

def readStatement? (cs : List Char) : Option (Statement × List Char) := do
  match cs with
  | '[' :: '[' :: rest => do
    let (keys, rest) ← readKey? rest
    match rest with
    | ']' :: ']' :: rest => some (.element keys, rest)
    | _ => none
  | '[' :: rest => do
    let (keys, rest) ← readKey? rest
    match rest with
    | ']' :: rest => some (.header keys, rest)
    | _ => none
  | _ => do
    let (keys, rest) ← readKey? cs
    match rest with
    | '=' :: rest => do
      let (value, rest) ← readValue? (2 * (cs.length + 1)) depthLimit (skipSpaces rest)
      some (.pair keys value, rest)
    | _ => none

/-- A statement ends its line, but for a comment. -/
def endStatement? (cs : List Char) : Option (List Char) := do
  let rest ← skipComment? (skipSpaces cs)
  match rest with
  | [] => some []
  | '\n' :: rest => some rest
  | _ => none

def readStatements? : Nat → List Char → Option (List Statement)
  | 0, _ => none
  | fuel + 1, cs => do
    let start ← skipLines? (cs.length + 1) cs
    match start with
    | [] => some []
    | _ => do
      let (statement, rest) ← readStatement? start
      let rest ← endStatement? rest
      let statements ← readStatements? fuel rest
      some (statement :: statements)

namespace Table

def runUnder? (header : List String) (table : Table) : List Statement → Option Table
  | [] => some table
  | .pair keys value :: statements =>
    (table.addUnder? header keys value).bind fun table => runUnder? header table statements
  | .header keys :: statements =>
    (table.alter? beginTable? keys).bind fun table => runUnder? keys table statements
  | .element keys :: statements =>
    (table.alter? beginElement? keys).bind fun table => runUnder? keys table statements

/-- Line ends with a carriage return as plain ones. -/
def plainLineEnds : List Char → List Char
  | '\r' :: '\n' :: cs => '\n' :: plainLineEnds cs
  | c :: cs => c :: plainLineEnds cs
  | [] => []

def ofText? (s : String) : Option Table :=
  let cs := match s.toList with
    | '\ufeff' :: cs => cs
    | cs => cs
  (readStatements? (cs.length + 1) (plainLineEnds cs)).bind fun statements =>
    runUnder? [] [] statements

end Table

end PageTree.Toml
