import PageTree.Number.Shortest
import PageTree.Text.Combining
import PageTree.Text.Printable

/-!
Values of data formats: scalars, lists and mappings of any values.
-/

namespace PageTree

open Number Text

inductive Datum where
  | null
  | bool (b : Bool)
  | integer (n : Int)
  | real (x : Binary64)
  | text (s : String)
  | list (items : List Datum)
  | mapping (entries : List (Datum × Datum))
  deriving Repr, Inhabited

namespace Datum

/-- A character between double quotes. One that leaves no mark of its own is written as the number
of its code point. -/
def quoteChar (c : Char) : List Char :=
  match c with
  | '"' => ['\\', '"']
  | '\\' => ['\\', '\\']
  | '\n' => ['\\', 'n']
  | '\r' => ['\\', 'r']
  | '\t' => ['\\', 't']
  | '\x00' => ['\\', '0']
  | c =>
    if isPrintable c && !isCombining c then [c]
    else "\\u\x7b".toList ++ Nat.toDigits 16 c.toNat ++ ['\x7d']

/-- A text between double quotes, with marks for what cannot be seen. -/
def quote (s : String) : String :=
  "\"" ++ String.ofList (s.toList.flatMap quoteChar) ++ "\""

mutual

/-- The value with the names of its shape, for messages. -/
def describe : Datum → String
  | .null => "Null"
  | .bool b => if b then "Bool(true)" else "Bool(false)"
  | .integer n => "Number(" ++ toString n ++ ")"
  | .real x => "Number(" ++ x.compact ++ ")"
  | .text s => "String(" ++ quote s ++ ")"
  | .list items => "Sequence [" ++ ", ".intercalate (describeEach items) ++ "]"
  | .mapping entries => "Mapping \x7b" ++ ", ".intercalate (describeEntries entries) ++ "\x7d"

def describeEach : List Datum → List String
  | [] => []
  | item :: items => describe item :: describeEach items

/-- The key of an entry; a scalar stands without the name of its shape. -/
def describeKey : Datum → String
  | .text s => quote s
  | .bool b => if b then "true" else "false"
  | .integer n => toString n
  | .real x => x.compact
  | .null => "Null"
  | .list items => "Sequence [" ++ ", ".intercalate (describeEach items) ++ "]"
  | .mapping entries => "Mapping \x7b" ++ ", ".intercalate (describeEntries entries) ++ "\x7d"

def describeEntries : List (Datum × Datum) → List String
  | [] => []
  | (key, value) :: entries =>
    (describeKey key ++ ": " ++ describe value) :: describeEntries entries

end

mutual

/-- Are the values the same, with the same parts in the same order? -/
def same : Datum → Datum → Bool
  | .null, .null => true
  | .bool a, .bool b => a = b
  | .integer a, .integer b => a = b
  | .real a, .real b => a = b
  | .text a, .text b => a = b
  | .list a, .list b => sameEach a b
  | .mapping a, .mapping b => sameEntries a b
  | _, _ => false

def sameEach : List Datum → List Datum → Bool
  | [], [] => true
  | a :: as, b :: bs => same a b && sameEach as bs
  | _, _ => false

def sameEntries : List (Datum × Datum) → List (Datum × Datum) → Bool
  | [], [] => true
  | (k, v) :: as, (l, w) :: bs => same k l && same v w && sameEntries as bs
  | _, _ => false

end

def hasRepeat : List Datum → Bool
  | [] => false
  | value :: values => values.any (same value) || hasRepeat values

end Datum

end PageTree
