import PageTree.Number.Int64

/-!
Binary floating-point numbers with a 53-bit significand. A finite number is its sign, significand
and exponent of two; rounding goes to the nearest number, a tie to the even significand.
-/

namespace PageTree.Number

/-- A finite number is `± mantissa · 2 ^ exponent` with `mantissa < 2 ^ 53`; a mantissa below
`2 ^ 52` comes with the least exponent, so that every number has one form. -/
inductive Binary64 where
  | finite (negative : Bool) (mantissa : Nat) (exponent : Int)
  | infinite (negative : Bool)
  | nan
  deriving DecidableEq, Repr, Inhabited

namespace Binary64

def leastExponent : Int :=
  -1074

def greatestExponent : Int :=
  971

def zero : Binary64 :=
  .finite false 0 leastExponent

/-- The quotient rounded to a whole number, a tie to the even one. -/
def roundHalfEven (num den : Nat) : Nat :=
  let q := num / den
  let twice := 2 * (num % den)
  if den < twice ∨ (twice = den ∧ q % 2 = 1) then q + 1 else q

/-- Numerator and denominator of `num / den` in units of `2 ^ e`. -/
def inUnits (num den : Nat) (e : Int) : Nat × Nat :=
  if 0 ≤ e then (num, den * Nat.pow 2 e.toNat) else (num * Nat.pow 2 (-e).toNat, den)

/-- The number nearest to `± num / den`, for a positive `den`. -/
def ofRatio (negative : Bool) (num den : Nat) : Binary64 :=
  if num = 0 then
    .finite negative 0 leastExponent
  else
    let low : Int := (num.log2 : Int) - (den.log2 : Int) - 53
    let units := inUnits num den low
    let tight := if Nat.pow 2 53 ≤ units.1 / units.2 then low + 1 else low
    let e := max tight leastExponent
    let scaled := inUnits num den e
    let m := roundHalfEven scaled.1 scaled.2
    let carried := if m = Nat.pow 2 53 then (Nat.pow 2 52, e + 1) else (m, e)
    if greatestExponent < carried.2 then .infinite negative
    else .finite negative carried.1 carried.2

def ofInt (n : Int) : Binary64 :=
  ofRatio (n < 0) n.natAbs 1

/-- The number nearest to `± digits · 10 ^ exponent`. Magnitudes far outside the range are settled
before any power is taken. -/
def ofDecimal (negative : Bool) (digits : Nat) (exponent : Int) : Binary64 :=
  let size : Int := exponent + ((toString digits).length : Int)
  if digits = 0 ∨ size < -400 then .finite negative 0 leastExponent
  else if 400 < size then .infinite negative
  else if 0 ≤ exponent then ofRatio negative (digits * Nat.pow 10 exponent.toNat) 1
  else ofRatio negative digits (Nat.pow 10 (-exponent).toNat)

/-- The signed integer `± mantissa · 2 ^ (exponent - unit)` of a number not below the unit. -/
def signedUnits (negative : Bool) (mantissa : Nat) (exponent unit : Int) : Int :=
  let n : Int := (mantissa * Nat.pow 2 (exponent - unit).toNat : Nat)
  if negative then -n else n

def add : Binary64 → Binary64 → Binary64
  | .nan, _ => .nan
  | _, .nan => .nan
  | .infinite s, .infinite t => if s = t then .infinite s else .nan
  | .infinite s, .finite .. => .infinite s
  | .finite .., .infinite t => .infinite t
  | .finite s m e, .finite t n f =>
    let unit := min e f
    let sum := signedUnits s m e unit + signedUnits t n f unit
    if sum = 0 then
      .finite (s && t) 0 leastExponent
    else if 0 ≤ unit then
      ofRatio (sum < 0) (sum.natAbs * Nat.pow 2 unit.toNat) 1
    else
      ofRatio (sum < 0) sum.natAbs (Nat.pow 2 (-unit).toNat)

instance : Add Binary64 :=
  ⟨add⟩

def neg : Binary64 → Binary64
  | .nan => .nan
  | .infinite negative => .infinite !negative
  | .finite negative m e => .finite (!negative) m e

instance : Neg Binary64 :=
  ⟨neg⟩

instance : Sub Binary64 :=
  ⟨fun x y => x + -y⟩

def abs : Binary64 → Binary64
  | .nan => .nan
  | .infinite _ => .infinite false
  | .finite _ m e => .finite false m e

def isFinite : Binary64 → Bool
  | .finite .. => true
  | _ => false

def isZero : Binary64 → Bool
  | .finite _ m _ => m = 0
  | _ => false

/-- Magnitude of a finite number as numerator and denominator. -/
def magnitude (mantissa : Nat) (exponent : Int) : Nat × Nat :=
  if 0 ≤ exponent then (mantissa * Nat.pow 2 exponent.toNat, 1)
  else (mantissa, Nat.pow 2 (-exponent).toNat)

def mul : Binary64 → Binary64 → Binary64
  | .finite s m e, .finite t n f =>
    let x := magnitude m e
    let y := magnitude n f
    ofRatio (s != t) (x.1 * y.1) (x.2 * y.2)
  | .infinite s, .infinite t => .infinite (s != t)
  | .infinite s, .finite t n _ => if n = 0 then .nan else .infinite (s != t)
  | .finite s m _, .infinite t => if m = 0 then .nan else .infinite (s != t)
  | _, _ => .nan

instance : Mul Binary64 :=
  ⟨mul⟩

/-- The quotient; one by zero is none. -/
def div : Binary64 → Binary64 → Binary64
  | .finite s m e, .finite t n f =>
    let x := magnitude m e
    let y := magnitude n f
    if n = 0 then .nan else ofRatio (s != t) (x.1 * y.2) (x.2 * y.1)
  | .infinite s, .finite t _ _ => .infinite (s != t)
  | .finite s _ _, .infinite t => .finite (s != t) 0 leastExponent
  | _, _ => .nan

instance : Div Binary64 :=
  ⟨div⟩

/-- The integer part, kept in the 64-bit range; a number that is none counts as zero. -/
def truncate : Binary64 → Int
  | .nan => 0
  | .infinite negative => if negative then minInt64 else maxInt64
  | .finite negative m e =>
    let parts := magnitude m e
    let whole : Int := (parts.1 / parts.2 : Nat)
    saturateInt64 (if negative then -whole else whole)

def isPositive : Binary64 → Bool
  | .finite negative m _ => !negative && m != 0
  | .infinite negative => !negative
  | .nan => false

/-- The interchange encoding: sign, eleven exponent bits, fifty-two significand bits. -/
def toBits : Binary64 → Nat
  | .nan => 0x7ff8000000000000
  | .infinite negative => (if negative then Nat.pow 2 63 else 0) + 0x7ff0000000000000
  | .finite negative m e =>
    (if negative then Nat.pow 2 63 else 0) +
      (if m < Nat.pow 2 52 then m else (e + 1075).toNat * Nat.pow 2 52 + (m - Nat.pow 2 52))

end Binary64

/-- A decimal number as it is written: the digits before and after the point, and the power of
ten. -/
structure DecimalText where
  whole : List Char
  fraction : List Char
  exponent : Int
  deriving DecidableEq, Repr

namespace DecimalText

private def splitDigits (cs : List Char) : List Char × List Char :=
  (cs.takeWhile Char.isDigit, cs.dropWhile Char.isDigit)

private def readExponent? : List Char → Option Int
  | '-' :: ds => if isDigits ds then some (-(digitsValue ds : Int)) else none
  | '+' :: ds => if isDigits ds then some (digitsValue ds) else none
  | ds => if isDigits ds then some (digitsValue ds) else none

/-- Digits with an optional point and an optional exponent; at least one digit stands before the
exponent. -/
def read? (cs : List Char) : Option DecimalText :=
  let whole := splitDigits cs
  let fraction := match whole.2 with
    | '.' :: rest => splitDigits rest
    | rest => ([], rest)
  if whole.1.isEmpty && fraction.1.isEmpty then
    none
  else
    match fraction.2 with
    | [] => some ⟨whole.1, fraction.1, 0⟩
    | c :: rest =>
      if c = 'e' ∨ c = 'E' then (readExponent? rest).map fun e => ⟨whole.1, fraction.1, e⟩
      else none

end DecimalText

/-- Takes the sign off a number; a minus makes it negative. -/
def splitSign (cs : List Char) : Bool × List Char :=
  match cs with
  | '-' :: rest => (true, rest)
  | '+' :: rest => (false, rest)
  | rest => (false, rest)

namespace Binary64

def ofDecimalText (negative : Bool) (text : DecimalText) : Binary64 :=
  ofDecimal negative (digitsValue (text.whole ++ text.fraction))
    (text.exponent - text.fraction.length)

/-- Reads an optional sign and a decimal number, or one of the names of infinity and of the number
that is none, in letters of either case. -/
def read? (cs : List Char) : Option Binary64 :=
  let signed := splitSign cs
  let lower := String.ofList (signed.2.map Char.toLower)
  if lower = "inf" ∨ lower = "infinity" then some (.infinite signed.1)
  else if lower = "nan" then some .nan
  else (DecimalText.read? signed.2).map (ofDecimalText signed.1)

end Binary64

end PageTree.Number
