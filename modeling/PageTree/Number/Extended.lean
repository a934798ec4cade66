import PageTree.Number.Shortest

/-!
Numbers of sixty-four significant bits, as they serve between decimal text and binary numbers.
Scaling by powers of ten rounds at every step, so the last digit of a long decimal need not be that
of the nearest number.
-/

namespace PageTree.Number

structure Extended where
  mantissa : Nat
  exponent : Int
  deriving DecidableEq, Repr

namespace Extended

def precision : Nat :=
  64

/-- The number of this precision nearest to `n · 2 ^ e`, a tie to the even mantissa. -/
def round (n : Nat) (e : Int) : Extended :=
  let excess := n.log2 + 1 - precision
  ⟨Binary64.roundHalfEven n (Nat.pow 2 excess), e + excess⟩

/-- The number of this precision nearest to the positive quotient `num / den`. -/
def ofRatio (num den : Nat) : Extended :=
  let low : Int := (num.log2 : Int) - (den.log2 : Int) - precision
  let units := Binary64.inUnits num den low
  let e := if Nat.pow 2 precision ≤ units.1 / units.2 then low + 1 else low
  let scaled := Binary64.inUnits num den e
  ⟨Binary64.roundHalfEven scaled.1 scaled.2, e⟩

def powerOfTen (k : Int) : Extended :=
  if 0 ≤ k then ofRatio (Nat.pow 10 k.toNat) 1 else ofRatio 1 (Nat.pow 10 (-k).toNat)

def mul (x y : Extended) : Extended :=
  round (x.mantissa * y.mantissa) (x.exponent + y.exponent)

instance : Mul Extended :=
  ⟨mul⟩

def less (x y : Extended) : Bool :=
  let unit := min x.exponent y.exponent
  decide
    (x.mantissa * Nat.pow 2 (x.exponent - unit).toNat
      < y.mantissa * Nat.pow 2 (y.exponent - unit).toNat)

def floor (x : Extended) : Nat :=
  let parts := Binary64.magnitude x.mantissa x.exponent
  parts.1 / parts.2

/-- `x` times `factor` to the power `n`, rounded at every step. -/
def scale (x factor : Extended) : Nat → Extended
  | 0 => x
  | n + 1 => scale (x * factor) factor n

/-- `x · 10 ^ k`, by hundreds, tens and ones. -/
def scaleByTen (x : Extended) (k : Int) : Extended :=
  let sign : Int := if k < 0 then -1 else 1
  let n := k.natAbs
  let scaled := (x.scale (powerOfTen (100 * sign)) (n / 100)).scale
    (powerOfTen (10 * sign)) (n % 100 / 10)
  scaled.scale (powerOfTen sign) (n % 10)

/-- A number and the power of ten that it stands before. -/
structure Scaled where
  number : Extended
  power : Int

/-- Multiplies by `10 ^ step` for as long as `more` holds, at most `fuel` times. -/
def Scaled.whileTrue (more : Extended → Bool) (step : Int) : Nat → Scaled → Scaled
  | 0, x => x
  | fuel + 1, x =>
    if more x.number then
      whileTrue more step fuel ⟨x.number * powerOfTen step, x.power - step⟩
    else
      x

/-- No double precision number needs more steps of one size. -/
private def scalingFuel : Nat :=
  64

/-- The number brought between `10 ^ 17` and `10 ^ 19`, where its whole part shows all its
digits. -/
def normalize (x : Extended) : Scaled :=
  if x.less (powerOfTen 19) then
    ((Scaled.whileTrue (fun y => y.less (powerOfTen (-97))) 100 scalingFuel ⟨x, 0⟩).whileTrue
      (fun y => y.less (powerOfTen 7)) 10 scalingFuel).whileTrue
      (fun y => y.less (powerOfTen 17)) 1 scalingFuel
  else
    ((Scaled.whileTrue (fun y => !y.less (powerOfTen 119)) (-100) scalingFuel ⟨x, 0⟩).whileTrue
      (fun y => !y.less (powerOfTen 29)) (-10) scalingFuel).whileTrue
      (fun y => !y.less (powerOfTen 19)) (-1) scalingFuel

end Extended

/-- The digits of the whole part of a scaled number. -/
def Extended.Scaled.digits (x : Scaled) : Decimal :=
  ⟨x.number.floor, x.power⟩

namespace Decimal

/-- The leading `count` digits, the next one rounded and the rest cut off. -/
def take (d : Decimal) (count : Nat) : Decimal :=
  let excess := (toString d.digits).length - count
  if excess = 0 then d
  else ⟨(d.digits / Nat.pow 10 (excess - 1) + 5) / 10, d.exponent + excess⟩

end Decimal

namespace Binary64

/-- The greatest whole number of digits that are all read; what follows only moves the point. -/
def mantissaLimit : Nat :=
  1844674407370955160

/-- Digits as far as they are significant, with the number of digits left over. -/
def leadingDigits (start : Nat) : List Char → Nat × Nat
  | [] => (start, 0)
  | c :: cs =>
    if start < mantissaLimit then leadingDigits (10 * start + digitValue c) cs
    else (start, (c :: cs).length)

/-- Moves zeros from the exponent into the digits while there is room for them. -/
def fillMantissa : Nat → Nat → Int → Nat × Int
  | 0, digits, e => (digits, e)
  | fuel + 1, digits, e =>
    if 0 < e ∧ digits < 1844674407370954956 then fillMantissa fuel (10 * digits) (e - 1)
    else if e < 0 ∧ digits % 10 = 0 then fillMantissa fuel (digits / 10) (e + 1)
    else (digits, e)

/-- Exponents beyond this one are taken for it. -/
def exponentLimit : Nat :=
  10000

def greatest : Extended :=
  ⟨Nat.pow 2 53 - 1, greatestExponent⟩

/-- The number that a text writes, scaled with sixty-four bits. -/
def ofScaledText (negative : Bool) (text : DecimalText) : Binary64 :=
  let head := leadingDigits 0 text.whole
  let all := leadingDigits head.1 text.fraction
  if all.1 = 0 then
    .finite negative 0 leastExponent
  else
    let bounded := max (-(exponentLimit : Int)) (min exponentLimit text.exponent)
    let shift : Int := (head.2 : Int) - ((text.fraction.length - all.2 : Nat) : Int)
    let (digits, e) := fillMantissa 32 all.1 (bounded + shift)
    let x := (Extended.mk digits 0).scaleByTen e
    if greatest.less x then
      .infinite negative
    else
      let parts := magnitude x.mantissa x.exponent
      ofRatio negative parts.1 parts.2

/-- The first digits of a finite number, found by scaling with sixty-four bits. -/
def scaledDigits (mantissa : Nat) (exponent : Int) (count : Nat) : Decimal :=
  if mantissa = 0 then ⟨0, 0⟩ else (Extended.mk mantissa exponent).normalize.digits.take count

private def paddedPower (k : Int) : String :=
  let digits := toString k.natAbs
  (if k < 0 then "e-" else "e+") ++ (if digits.length < 2 then "0" else "") ++ digits

theorem length_paddedPower_le (k : Int) :
    (paddedPower k).length ≤ (toString k.natAbs).length + 3 := by
  have signed : (if k < 0 then "e-" else "e+").length = 2 := by
    split <;> rfl
  have zero : (if (toString k.natAbs).length < 2 then "0" else "").length ≤ 1 := by
    split <;> decide
  rw [paddedPower, String.length_append, String.length_append, signed]
  omega

/-- Fifteen digits, always with a point; an exponent from `1e15` and below `1e-4`. -/
def fifteenDigits : Binary64 → String
  | .nan => ""
  | .infinite negative => sign negative ++ "Inf"
  | .finite negative m e =>
    let d := (scaledDigits m e 15).stripZeros
    let point : Int := ((toString d.digits).length : Int) + d.exponent
    sign (negative && m != 0) ++
      if m = 0 ∨ (-4 < point ∧ point ≤ 15) then d.positional ".0"
      else d.scientific ".0" paddedPower

end Binary64

end PageTree.Number
