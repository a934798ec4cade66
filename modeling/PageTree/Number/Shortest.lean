import PageTree.Number.Binary64

/-!
Decimal text of floating-point numbers: the fewest digits that read back to the same number, of
those the nearest ones, written positionally or with an exponent.
-/

namespace PageTree.Number

structure Decimal where
  digits : Nat
  exponent : Int
  deriving DecidableEq, Repr

namespace Decimal

/-- Numerator and denominator of `num / den` in units of `10 ^ e`. -/
def inPowers (num den : Nat) (e : Int) : Nat × Nat :=
  if 0 ≤ e then (num, den * Nat.pow 10 e.toNat) else (num * Nat.pow 10 (-e).toNat, den)

/-- Is `10 ^ k ≤ num / den`? -/
private def reaches (num den : Nat) (k : Int) : Bool :=
  let parts := inPowers num den k
  decide (parts.2 ≤ parts.1)

/-- The number of digits before the point, for a positive `num / den`; not positive below one
tenth. -/
def wholeDigits (num den : Nat) : Int :=
  let guess := ((num.log2 : Int) - (den.log2 : Int)) * 1233 / 4096 - 1
  (([0, 1, 2, 3] : List Int).filter fun k => reaches num den (guess + k)).foldl
    (fun best k => max best (guess + k + 1)) guess

/-- Of the two `count`-digit neighbours of `num / den` those that satisfy `good`, the nearer
first. -/
def neighbours (num den : Nat) (places : Int) (count : Nat) (good : Decimal → Bool) :
    Option Decimal :=
  let e := places - count
  let parts := inPowers num den e
  let below := parts.1 / parts.2
  let rest := parts.1 % parts.2
  let near := if 2 * rest < parts.2 ∨ (2 * rest = parts.2 ∧ below % 2 = 0)
    then [below, below + 1] else [below + 1, below]
  (near.map fun d => ⟨d, e⟩).find? good

/-- The decimal of fewest digits, and among those nearest to the number, that reads back to it. -/
def shortest (mantissa : Nat) (exponent : Int) : Decimal :=
  if mantissa = 0 then
    ⟨0, 0⟩
  else
    let parts := Binary64.magnitude mantissa exponent
    let places := wholeDigits parts.1 parts.2
    let back (d : Decimal) : Bool :=
      Binary64.ofDecimal false d.digits d.exponent = .finite false mantissa exponent
    ((List.range 17).findSome? fun n => neighbours parts.1 parts.2 places (n + 1) back).getD
      ⟨0, 0⟩

private def stripZerosFuel : Nat → Nat → Int → Decimal
  | 0, digits, e => ⟨digits, e⟩
  | fuel + 1, digits, e =>
    if digits ≠ 0 ∧ digits % 10 = 0 then stripZerosFuel fuel (digits / 10) (e + 1)
    else ⟨digits, e⟩

/-- The same number with no zero at the end of its digits. -/
def stripZeros (d : Decimal) : Decimal :=
  stripZerosFuel (toString d.digits).length d.digits d.exponent

private theorem stripZerosFuel_bounds (fuel digits : Nat) (e : Int) :
    (stripZerosFuel fuel digits e).digits ≤ digits ∧
      (stripZerosFuel fuel digits e).exponent.natAbs ≤ e.natAbs + fuel := by
  induction fuel generalizing digits e with
  | zero => exact ⟨Nat.le_refl _, Nat.le_refl _⟩
  | succ fuel induction =>
      rw [stripZerosFuel]
      split
      · obtain ⟨fewer, near⟩ := induction (digits / 10) (e + 1)
        exact ⟨Nat.le_trans fewer (Nat.div_le_self ..), by omega⟩
      · exact ⟨Nat.le_refl _, Nat.le_add_right ..⟩

theorem digits_stripZeros_le (d : Decimal) : d.stripZeros.digits ≤ d.digits :=
  (stripZerosFuel_bounds _ _ _).1

theorem natAbs_exponent_stripZeros_le (d : Decimal) :
    d.stripZeros.exponent.natAbs ≤ d.exponent.natAbs + (toString d.digits).length :=
  (stripZerosFuel_bounds _ _ _).2

def zeros (n : Nat) : List Char :=
  List.replicate n '0'

/-- All digits without an exponent, and `fraction` after a whole number. -/
def positional (d : Decimal) (fraction : String) : String :=
  let digits := (toString d.digits).toList
  let point : Int := (digits.length : Int) + d.exponent
  if 0 ≤ d.exponent then
    String.ofList (digits ++ zeros d.exponent.toNat) ++ fraction
  else if 0 < point then
    String.ofList (digits.take point.toNat ++ '.' :: digits.drop point.toNat)
  else
    "0." ++ String.ofList (zeros (-point).toNat ++ digits)

/-- One digit, the others after a point, and the power of ten as `power` writes it. -/
def scientific (d : Decimal) (lone : String) (power : Int → String) : String :=
  let digits := (toString d.digits).toList
  let body := match digits with
    | [] => ""
    | [c] => String.singleton c ++ lone
    | c :: rest => String.ofList (c :: '.' :: rest)
  body ++ power ((digits.length : Int) - 1 + d.exponent)

end Decimal

namespace Binary64

def sign (negative : Bool) : String :=
  if negative then "-" else ""

/-- Digits of data formats: positional with at least one decimal for magnitudes from `1e-5` up to
`1e16`, with a plain exponent elsewhere. -/
def compact : Binary64 → String
  | .nan => ".nan"
  | .infinite negative => sign negative ++ ".inf"
  | .finite negative m e =>
    let d := (Decimal.shortest m e).stripZeros
    let point : Int := ((toString d.digits).length : Int) + d.exponent
    sign negative ++
      if m = 0 ∨ (-5 < point ∧ point ≤ 16) then d.positional ".0"
      else d.scientific "" fun k => "e" ++ toString k

/-- All digits without an exponent, whole numbers without a point. -/
def plain : Binary64 → String
  | .nan => "NaN"
  | .infinite negative => sign negative ++ "inf"
  | .finite negative m e =>
    sign negative ++ (Decimal.shortest m e).stripZeros.positional ""

end Binary64

end PageTree.Number
