import PageTree.Number.Extended
import PageTree.Selector.Operator
import PageTree.Sql.Truth
import PageTree.Text.Blank

/-!
Stored values and how they compare. A missing value compares with nothing; numbers precede texts;
texts are ordered by their bytes. A column converts what is stored in it and what it is compared
with.
-/

namespace PageTree.Sql

open Number

inductive Value where
  | null
  | integer (n : Int)
  | real (x : Binary64)
  | text (s : String)
  deriving DecidableEq, Repr

/-- How a column converts values: to text, or to numbers where they look like numbers. -/
inductive Affinity where
  | text
  | integer
  deriving DecidableEq, Repr

def Affinity.name : Affinity → String
  | .text => "TEXT"
  | .integer => "INTEGER"

/-- Blanks that may surround a number in a text. -/
def isNumberBlank (c : Char) : Bool :=
  c = ' ' || (9 ≤ c.toNat && c.toNat ≤ 13)

namespace Value

def ofDigits (run : List Char) : Value :=
  let n := digitsValue run
  if (n : Int) ≤ maxInt64 then .integer n else .real (.ofScaledText false ⟨run, [], 0⟩)

def ofNumberText? (s : String) : Option Value :=
  let cs := Text.trimWhere isNumberBlank s.toList
  match readInt64? cs with
  | some n => some (.integer n)
  | none =>
    let signed := splitSign cs
    (DecimalText.read? signed.2).map fun text => .real (.ofScaledText signed.1 text)

/-- The same number as an integer when it is a whole one in range; a zero has no sign then. -/
def toInteger? (x : Binary64) : Option Int :=
  let n := x.truncate
  if minInt64 < n ∧ n < maxInt64 ∧ (Binary64.ofInt n = x ∨ x.isZero) then some n else none

/-- The text of a value, none for a missing one. -/
def text? : Value → Option String
  | .null => none
  | .integer n => some (toString n)
  | .real x => some x.fifteenDigits
  | .text s => some s

/-- What a column keeps of a value stored in it. -/
def store (affinity : Affinity) (value : Value) : Value :=
  match affinity, value with
  | .text, .null => .null
  | .text, value => (value.text?.map .text).getD .null
  | .integer, .real x => ((toInteger? x).map .integer).getD (.real x)
  | .integer, .text s =>
    match ofNumberText? s with
    | some (.real x) => ((toInteger? x).map .integer).getD (.real x)
    | some number => number
    | none => .text s
  | .integer, value => value

/-- A value as it takes part in a comparison. -/
def convert (affinity : Affinity) (value : Value) : Value :=
  match affinity, value with
  | .text, .null => .null
  | .text, value => (value.text?.map .text).getD .null
  | .integer, .text s => (ofNumberText? s).getD (.text s)
  | .integer, value => value

/-- The digits at the start of a text as a number in range, zero without any. -/
private def leadingInteger (s : String) : Int :=
  let cs := s.toList.dropWhile isNumberBlank
  let signed := splitSign cs
  let n : Int := digitsValue (signed.2.takeWhile Char.isDigit)
  saturateInt64 (if signed.1 then -n else n)

/-- The integer whose bits a value has, none for a missing value. -/
def bits? : Value → Option Int
  | .null => none
  | .integer n => some n
  | .real x => some x.truncate
  | .text s => some (leadingInteger s)

private def compareRatio (num : Int) (den : Nat) (n : Int) : Ordering :=
  compare num (n * den)

/-- Order of two numbers that need not be integers. -/
def compareReal : Binary64 → Int → Ordering
  | .nan, _ => .lt
  | .infinite negative, _ => if negative then .lt else .gt
  | .finite negative m e, n =>
    let parts := Binary64.magnitude m e
    compareRatio (if negative then -(parts.1 : Int) else parts.1) parts.2 n

private def compareReals : Binary64 → Binary64 → Ordering
  | .finite s m e, .finite t n f =>
    let a := Binary64.magnitude m e
    let b := Binary64.magnitude n f
    let left : Int := if s then -(a.1 : Int) else a.1
    let right : Int := if t then -(b.1 : Int) else b.1
    compare (left * b.2) (right * a.2)
  | .infinite s, .infinite t => compare t.toNat s.toNat
  | .infinite s, _ => if s then .lt else .gt
  | _, .infinite t => if t then .gt else .lt
  | .nan, .nan => .eq
  | .nan, _ => .lt
  | _, .nan => .gt

def compareText (s t : String) : Ordering :=
  if s = t then .eq else if s < t then .lt else .gt

/-- The order of all values: missing ones, numbers, texts. -/
def order : Value → Value → Ordering
  | .null, .null => .eq
  | .null, _ => .lt
  | _, .null => .gt
  | .text s, .text t => compareText s t
  | .text _, _ => .gt
  | _, .text _ => .lt
  | .integer m, .integer n => compare m n
  | .real x, .integer n => compareReal x n
  | .integer n, .real x => (compareReal x n).swap
  | .real x, .real y => compareReals x y

end Value

/-- Does a relation hold between values in this order? -/
def Relation.holdsAt (relation : Relation) (ordering : Ordering) : Bool :=
  match relation with
  | .equal => ordering = .eq
  | .notEqual => ordering ≠ .eq
  | .less => ordering = .lt
  | .greater => ordering = .gt
  | .lessEqual => ordering ≠ .gt
  | .greaterEqual => ordering ≠ .lt
  | .bitAnd => false

/-- The truth of a comparison between values that need no more conversion. -/
def compareValues (relation : Relation) (left right : Value) : Truth :=
  match relation with
  | .bitAnd =>
    match left.bits?, right.bits? with
    | some m, some n => .ofBool (bitAnd m n ≠ 0)
    | _, _ => .unknown
  | relation =>
    if left = .null ∨ right = .null then .unknown
    else .ofBool (Relation.holdsAt relation (left.order right))

end PageTree.Sql
