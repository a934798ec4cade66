import PageTree.Sql.Expression
import PageTree.Sql.Like
import PageTree.Sql.Name

/-!
What operators make of values. Texts count as the numbers they begin with; a missing operand gives
a missing result, and so does a division by zero. Integers that leave their range become reals.
-/

namespace PageTree.Sql

open Number

/-! ### Numbers at the beginning of texts -/

/-- The number of an exponent at the beginning of a text, zero without one. -/
private def leadingExponent (cs : List Char) : Option Int :=
  match cs with
  | e :: rest =>
    if e = 'e' ∨ e = 'E' then
      let signed := splitSign rest
      let digits := signed.2.takeWhile Char.isDigit
      if digits.isEmpty then none
      else some (if signed.1 then -(digitsValue digits : Int) else digitsValue digits)
    else
      none
  | [] => none

/-- The number that a text begins with, zero without one. -/
def leadingNumber (s : String) : Value :=
  let signed := splitSign (s.toList.dropWhile isNumberBlank)
  let whole := signed.2.takeWhile Char.isDigit
  let rest := signed.2.drop whole.length
  let fraction :=
    match rest with
    | '.' :: rest => some (rest.takeWhile Char.isDigit)
    | _ => none
  let digits := whole ++ fraction.getD []
  let exponent := leadingExponent (rest.drop ((fraction.map fun ds => ds.length + 1).getD 0))
  let n : Int := if signed.1 then -(digitsValue whole : Int) else digitsValue whole
  if digits.isEmpty then .integer 0
  else if fraction.isNone && exponent.isNone && decide (InInt64 n) then .integer n
  else .real (.ofScaledText signed.1 ⟨whole, fraction.getD [], exponent.getD 0⟩)

namespace Value

def toNumber : Value → Value
  | .text s => leadingNumber s
  | value => value

/-- The value as a real, zero for a missing one. -/
def toReal (value : Value) : Binary64 :=
  match value.toNumber with
  | .integer n => .ofInt n
  | .real x => x
  | _ => .zero

/-- A real, unless it is no number. -/
def ofReal (x : Binary64) : Value :=
  if x = .nan then .null else .real x

def isMissing (value : Value) : Bool :=
  value = .null

/-! ### Truth -/

def truth (value : Value) : Truth :=
  if value.isMissing then .unknown else .ofBool !value.toReal.isZero

def ofTruth : Truth → Value
  | .no => .integer 0
  | .unknown => .null
  | .yes => .integer 1

/-! ### Arithmetic -/

/-- The result of an operation that is exact on integers in their range and rounded otherwise. -/
def calculate (exact : Int → Int → Option Int) (rounded : Binary64 → Binary64 → Binary64)
    (left right : Value) : Value :=
  match left.toNumber, right.toNumber with
  | .null, _ => .null
  | _, .null => .null
  | .integer m, .integer n =>
    match (exact m n).bind checkInt64 with
    | some k => .integer k
    | none => .ofReal (rounded (.ofInt m) (.ofInt n))
  | left, right => .ofReal (rounded left.toReal right.toReal)

def add : Value → Value → Value :=
  calculate (fun m n => some (m + n)) (· + ·)

def sub : Value → Value → Value :=
  calculate (fun m n => some (m - n)) (· - ·)

def mul : Value → Value → Value :=
  calculate (fun m n => some (m * n)) (· * ·)

/-- The quotient, cut off towards zero for integers. -/
def div (left right : Value) : Value :=
  if right.toReal.isZero then .null
  else calculate (fun m n => some (m.tdiv n)) (· / ·) left right

/-- The remainder of the integer parts. -/
def mod (left right : Value) : Value :=
  match left.toNumber.bits?, right.toNumber.bits? with
  | some m, some n =>
    if n = 0 then .null
    else
      match left.toNumber, right.toNumber with
      | .integer _, .integer _ => .integer (m.tmod n)
      | _, _ => .real (.ofInt (m.tmod n))
  | _, _ => .null

def neg (value : Value) : Value :=
  sub (.integer 0) value

/-! ### Bits -/

def onBits (operation : Int → Int → Int) (left right : Value) : Value :=
  match left.bits?, right.bits? with
  | some m, some n => .integer (operation m n)
  | _, _ => .null

/-- Moves bits to the left, or to the right by a negative number of places. -/
def shiftBits (n places : Int) : Int :=
  if 0 ≤ places then
    if places < 64 then (n * Nat.pow 2 places.toNat).bmod (Nat.pow 2 64) else 0
  else if -64 < places then n.fdiv (Nat.pow 2 (-places).toNat)
  else if n < 0 then -1 else 0

def complement (value : Value) : Value :=
  match value.bits? with
  | some n => .integer (-n - 1)
  | none => .null

/-! ### Texts -/

def concat (left right : Value) : Value :=
  match left.text?, right.text? with
  | some s, some t => .text (s ++ t)
  | _, _ => .null

def cast (target : CastTarget) (value : Value) : Value :=
  match target with
  | .text => (value.text?.map .text).getD .null
  | .integer => (value.bits?.map .integer).getD .null
  | .real => if value.isMissing then .null else .real value.toReal
  | .numeric =>
    match value with
    | .text s =>
      match leadingNumber s with
      | .real x => ((toInteger? x).map .integer).getD (.real x)
      | number => number
    | value => value

end Value

/-! ### Comparison -/

def Collation.key (collation : Collation) (s : String) : String :=
  match collation with
  | .binary => s
  | .noCase => foldName s
  | .trimmed => String.ofList ((s.toList.reverse.dropWhile fun c => c = ' ').reverse)

def Value.collated (collation : Collation) : Value → Value
  | .text s => .text (collation.key s)
  | value => value

/-- How the operands of a comparison are converted: numbers win over texts, and what converts
nothing follows the other operand. -/
def comparisonAffinity : Option Affinity → Option Affinity → Option Affinity
  | some a, some b => if a = .text ∧ b = .text then none else some .integer
  | a, b => a.or b

def Value.convertIf (affinity : Option Affinity) (value : Value) : Value :=
  (affinity.map fun affinity => value.convert affinity).getD value

def UnaryOperator.apply : UnaryOperator → Value → Value
  | .not, value => .ofTruth value.truth.not
  | .minus, value => value.neg
  | .plus, value => value
  | .complement, value => value.complement

/-- What an operator makes of two values that need no conversion. -/
def BinaryOperator.apply : BinaryOperator → Value → Value → Value
  | .or, l, r => .ofTruth (l.truth.or r.truth)
  | .and, l, r => .ofTruth (l.truth.and r.truth)
  | .compare relation, l, r => .ofTruth (compareValues relation l r)
  | .is, l, r => .ofTruth (.ofBool (l.order r = .eq))
  | .bitAnd, l, r => l.onBits Number.bitAnd r
  | .bitOr, l, r => l.onBits Number.bitOr r
  | .shiftLeft, l, r => l.onBits Value.shiftBits r
  | .shiftRight, l, r => l.onBits (fun m n => Value.shiftBits m (-n)) r
  | .plus, l, r => l.add r
  | .minus, l, r => l.sub r
  | .times, l, r => l.mul r
  | .over, l, r => l.div r
  | .modulo, l, r => l.mod r
  | .concat, l, r => l.concat r

/-- Are operands converted before the operator is applied? -/
def BinaryOperator.compares : BinaryOperator → Bool
  | .compare _ => true
  | .is => true
  | _ => false

end PageTree.Sql
