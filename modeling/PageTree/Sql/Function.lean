import PageTree.Sql.RunningSum

/-!
The functions of the query language: those of the values of one row, and those that gather a value
from all rows of a group.
-/

namespace PageTree.Sql

open Number

namespace Value

/-- The result on the text of a value, a missing one for a missing value. -/
def onText (value : Value) (result : List Char → Value) : Value :=
  (value.text?.map fun s => result s.toList).getD .null

def ofChars (cs : List Char) : Value :=
  .text (String.ofList cs)

def onTexts (left right : Value) (result : List Char → List Char → Value) : Value :=
  left.onText fun s => right.onText fun t => result s t

/-- The text with every occurrence of a phrase replaced; `skip` characters belong to an occurrence
found before. -/
def replaceFrom (phrase replacement : List Char) : Nat → List Char → List Char
  | _, [] => []
  | skip + 1, _ :: cs => replaceFrom phrase replacement skip cs
  | 0, c :: cs =>
    if phrase.isPrefixOf (c :: cs) then
      replacement ++ replaceFrom phrase replacement (phrase.length - 1) cs
    else
      c :: replaceFrom phrase replacement 0 cs

/-- The text with another in place of a phrase; an empty phrase occurs nowhere. -/
def replace (text phrase replacement : Value) : Value :=
  text.onTexts phrase fun s p =>
    if p.isEmpty then ofChars s
    else replacement.onText fun t => ofChars (replaceFrom p t 0 s)

/-- The place at which a phrase first occurs, from one on, and zero when it does not. -/
def placeOf (phrase : List Char) : Nat → List Char → Nat
  | place, [] => if phrase.isEmpty then place else 0
  | place, c :: cs =>
    if phrase.isPrefixOf (c :: cs) then place else placeOf phrase (place + 1) cs

/-- The characters from a place on, counted from the end when it is negative; a negative count takes
those before the place. -/
def slice (cs : List Char) (place : Int) (count : Option Int) : List Char :=
  let length : Int := cs.length
  let taken : Int := (count.map fun n => (n.natAbs : Int)).getD maxInt64
  let (start, taken) :=
    if place < 0 then
      if place + length < 0 then (0, max 0 (taken + (place + length))) else (place + length, taken)
    else if 0 < place then (place - 1, taken)
    else (0, if 0 < taken then taken - 1 else taken)
  let (start, taken) :=
    if count.any (· < 0) then
      if start - taken < 0 then ((0 : Int), taken + (start - taken)) else (start - taken, taken)
    else
      (start, taken)
  (cs.drop start.toNat).take taken.toNat

/-- The integer of the lowest 32 bits, the highest of them its sign. -/
def lowBits? (value : Value) : Option Int :=
  value.bits?.map fun n => n.bmod (Nat.pow 2 32)

/-- The part of a text; a missing place or count leaves none. -/
def substring (text place : Value) (count : Option Value) : Value :=
  text.onText fun cs =>
    match place.lowBits?, count with
    | some place, none => ofChars (slice cs place none)
    | some place, some count =>
      match count.lowBits? with
      | some count => ofChars (slice cs place (some count))
      | none => .null
    | none, _ => .null

def trimmed (start finish : Bool) (text dropped : Value) : Value :=
  text.onTexts dropped fun cs dropped =>
    let cs := if start then cs.dropWhile dropped.contains else cs
    ofChars (if finish then (cs.reverse.dropWhile dropped.contains).reverse else cs)

def abs? : Value → Option Value
  | .null => some .null
  | .integer n => (checkInt64 n.natAbs).map .integer
  | value => some (.real value.toReal.abs)

def sign (value : Value) : Value :=
  let known (value : Value) : Value :=
    if value.toReal.isZero then .integer 0
    else if value.toReal.isPositive then .integer 1 else .integer (-1)
  match value with
  | .null => .null
  | .text s => if (ofNumberText? s).isSome then known value else .null
  | value => known value

def typeName : Value → String
  | .null => "null"
  | .integer _ => "integer"
  | .real _ => "real"
  | .text _ => "text"

/-- The greatest or the least of some values, the first of those alike. -/
def extreme (isGreatest : Bool) : List Value → Value
  | [] => .null
  | value :: values =>
    values.foldl (fun best value =>
      if value.order best = (if isGreatest then .gt else .lt) then value else best) value

def firstKnown (values : List Value) : Value :=
  (values.find? fun value => !value.isMissing).getD .null

end Value

open Value in
/-- The value of a function, none when there is no such function of so many arguments. -/
def scalarFunction? (function : String) (arguments : List Value) : Option Value :=
  match function, arguments with
  | "length", [x] => some (x.onText fun cs => .integer (beforeNull cs).length)
  | "lower", [x] => some (x.onText fun cs => ofChars (cs.map Char.toLower))
  | "upper", [x] => some (x.onText fun cs => ofChars (cs.map Char.toUpper))
  | "replace", [x, phrase, replacement] => some (x.replace phrase replacement)
  | "instr", [x, phrase] => some (x.onTexts phrase fun cs p => .integer (placeOf p 1 cs))
  | "substr", [x, place] => some (x.substring place none)
  | "substr", [x, place, count] => some (x.substring place (some count))
  | "substring", [x, place] => some (x.substring place none)
  | "substring", [x, place, count] => some (x.substring place (some count))
  | "trim", [x] => some (x.trimmed true true (.text " "))
  | "trim", [x, dropped] => some (x.trimmed true true dropped)
  | "ltrim", [x] => some (x.trimmed true false (.text " "))
  | "ltrim", [x, dropped] => some (x.trimmed true false dropped)
  | "rtrim", [x] => some (x.trimmed false true (.text " "))
  | "rtrim", [x, dropped] => some (x.trimmed false true dropped)
  | "unicode", [x] =>
    some (x.onText fun cs => (cs.head?.map fun c => Value.integer c.toNat).getD .null)
  | "abs", [x] => x.abs?
  | "sign", [x] => some x.sign
  | "typeof", [x] => some (.text x.typeName)
  | "ifnull", [x, y] => some (firstKnown [x, y])
  | "nullif", [x, y] => some (if x.order y = .eq then .null else x)
  | "iif", [x, y, z] => some (if x.truth.isYes then y else z)
  | "coalesce", x :: y :: rest => some (firstKnown (x :: y :: rest))
  | "max", x :: y :: rest =>
    some (if (x :: y :: rest).any isMissing then .null else extreme true (x :: y :: rest))
  | "min", x :: y :: rest =>
    some (if (x :: y :: rest).any isMissing then .null else extreme false (x :: y :: rest))
  | "rand", [] => some (.real .zero)
  | "sqlite_version", [] => some (.text "3.46.0")
  | _, _ => none

/-! ### Groups -/

/-- Does a function of so many arguments gather its value from a group? -/
def isGroupFunction (function : String) (count : Nat) : Bool :=
  (["count", "sum", "total", "avg", "min", "max"].contains function && count = 1)
    || (function = "group_concat" && (count = 1 || count = 2))
    || (function = "string_agg" && count = 2)

namespace Value

/-- Texts one after the other, each but the first after a separator. -/
def joined (separator : Value) (values : List Value) : Value :=
  .text ((separator.text?.getD "").intercalate (values.filterMap text?))

/-- The values without those that are like one before them. -/
def distinct (values : List Value) : List Value :=
  values.foldl (fun kept value =>
    if kept.any fun other => other.order value = .eq then kept else kept ++ [value]) []

end Value

/-- The value that a function gathers from its arguments in the rows of a group. Missing values
count for nothing. -/
def groupFunction? (function : String) (isDistinct : Bool) (arguments : List (List Value)) :
    Option Value :=
  let all := (arguments.filterMap List.head?).filter fun value => !value.isMissing
  let values := if isDistinct then Value.distinct all else all
  let separator := ((arguments.getLast?.bind fun row => row[1]?)).getD (.text ",")
  match function with
  | "count" => some (.integer values.length)
  | "sum" => if values.isEmpty then some .null else (RunningSum.ofValues values).value?
  | "total" => some (.ofReal (RunningSum.ofValues values).total)
  | "avg" =>
    some (if values.isEmpty then .null
      else .ofReal ((RunningSum.ofValues values).total / .ofInt values.length))
  | "min" => some (Value.extreme false values)
  | "max" => some (Value.extreme true values)
  | "group_concat" => some (if values.isEmpty then .null else Value.joined separator values)
  | "string_agg" => some (if values.isEmpty then .null else Value.joined separator values)
  | _ => none

namespace Expression

/-- Is a value gathered from a group inside the expression? -/
def gathers : Nat → Expression → Bool
  | 0, _ => false
  | fuel + 1, expression =>
    (match expression with
      | .countRows => true
      | .call function _ arguments => isGroupFunction function arguments.length
      | _ => false)
      || expression.operands.any (gathers fuel)

/-- The expressions of which a greatest or a least value is gathered, with which of the two. -/
def extremes : Nat → Expression → List (Bool × Expression)
  | 0, _ => []
  | fuel + 1, expression =>
    (match expression with
      | .call "max" _ [argument] => [(true, argument)]
      | .call "min" _ [argument] => [(false, argument)]
      | _ => [])
      ++ expression.operands.flatMap (extremes fuel)

end Expression

end PageTree.Sql
