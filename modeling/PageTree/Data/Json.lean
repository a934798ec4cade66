import PageTree.Data.Datum

/-!
Values as JSON text, one item or entry to a line and two blanks for each level.
-/

namespace PageTree.Datum

open Number

def hexDigit (n : Nat) : Char :=
  (Nat.toDigits 16 (n % 16)).headD '0'

/-- A character between double quotes. Controls are written by letter or by code. -/
def jsonChar (c : Char) : List Char :=
  match c with
  | '"' => ['\\', '"']
  | '\\' => ['\\', '\\']
  | '\x08' => ['\\', 'b']
  | '\t' => ['\\', 't']
  | '\n' => ['\\', 'n']
  | '\x0c' => ['\\', 'f']
  | '\r' => ['\\', 'r']
  | c =>
    if c.toNat < 0x20 then
      ['\\', 'u', '0', '0', hexDigit (c.toNat / 16), hexDigit c.toNat]
    else
      [c]

def jsonText (s : String) : String :=
  "\"" ++ String.ofList (s.toList.flatMap jsonChar) ++ "\""

/-- The name of an entry; a key that is no text goes by its description. -/
def jsonKey : Datum → String
  | .text s => s
  | key => key.describe

def indentation (level : Nat) : String :=
  String.ofList (List.replicate (2 * level) ' ')

/-- Parts on lines of their own between brackets. Without parts the brackets meet. -/
def bracketed (opening closing : String) (level : Nat) (parts : List String) : String :=
  if parts.isEmpty then
    opening ++ closing
  else
    opening ++ "\n"
      ++ ",\n".intercalate (parts.map fun part => indentation (level + 1) ++ part)
      ++ "\n" ++ indentation level ++ closing

mutual

/-- The JSON text of a value at a level. Numbers that are not finite are null. -/
def jsonAt (level : Nat) : Datum → String
  | .null => "null"
  | .bool b => if b then "true" else "false"
  | .integer n => toString n
  | .real x => if x.isFinite then x.compact else "null"
  | .text s => jsonText s
  | .list items => bracketed "[" "]" level (jsonItems (level + 1) items)
  | .mapping entries => bracketed "\x7b" "\x7d" level (jsonEntries (level + 1) entries)

def jsonItems (level : Nat) : List Datum → List String
  | [] => []
  | item :: items => jsonAt level item :: jsonItems level items

def jsonEntries (level : Nat) : List (Datum × Datum) → List String
  | [] => []
  | (key, value) :: entries =>
    (jsonText (jsonKey key) ++ ": " ++ jsonAt level value) :: jsonEntries level entries

end

def json (value : Datum) : String :=
  jsonAt 0 value

end PageTree.Datum
