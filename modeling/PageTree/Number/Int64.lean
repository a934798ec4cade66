/-!
Integers of 64 bits: their range and their decimal text. Every counter and identifier of a site
lies in this range; arithmetic that could leave it is done on unbounded integers and checked.
-/

namespace PageTree.Number

def minInt64 : Int :=
  -9223372036854775808

def maxInt64 : Int :=
  9223372036854775807

def InInt64 (n : Int) : Prop :=
  minInt64 ≤ n ∧ n ≤ maxInt64

instance (n : Int) : Decidable (InInt64 n) :=
  inferInstanceAs (Decidable (_ ∧ _))

def checkInt64 (n : Int) : Option Int :=
  if InInt64 n then some n else none

def saturateInt64 (n : Int) : Int :=
  max minInt64 (min maxInt64 n)

theorem checkInt64_eq_some_iff {n m : Int} : checkInt64 n = some m ↔ InInt64 n ∧ m = n := by
  unfold checkInt64
  split <;> simp_all [eq_comm]

theorem inInt64_saturateInt64 (n : Int) : InInt64 (saturateInt64 n) := by
  unfold InInt64 saturateInt64 minInt64 maxInt64
  omega

/-- The bits that two numbers in two's complement share. -/
def bitAnd : Int → Int → Int
  | .ofNat m, .ofNat n => .ofNat (m &&& n)
  | .ofNat m, .negSucc n => .ofNat (m - (m &&& n))
  | .negSucc m, .ofNat n => .ofNat (n - (m &&& n))
  | .negSucc m, .negSucc n => .negSucc (m ||| n)

/-- The bits of either of two numbers in two's complement. -/
def bitOr : Int → Int → Int
  | .ofNat m, .ofNat n => .ofNat (m ||| n)
  | .ofNat m, .negSucc n => .negSucc (n - (m &&& n))
  | .negSucc m, .ofNat n => .negSucc (m - (m &&& n))
  | .negSucc m, .negSucc n => .negSucc (m &&& n)

/-- Is the text a non-empty run of the digits 0 to 9? -/
def isDigits (cs : List Char) : Bool :=
  !cs.isEmpty && cs.all Char.isDigit

def digitValue (c : Char) : Nat :=
  c.toNat - 48

def digitsValue (cs : List Char) : Nat :=
  cs.foldl (fun n c => 10 * n + digitValue c) 0

/-- Reads an optional sign and a run of digits, and no blanks; out of range is no number. -/
def readInt64? (cs : List Char) : Option Int :=
  match cs with
  | '-' :: ds => if isDigits ds then checkInt64 (-(digitsValue ds : Int)) else none
  | '+' :: ds => if isDigits ds then checkInt64 (digitsValue ds) else none
  | ds => if isDigits ds then checkInt64 (digitsValue ds) else none

theorem inInt64_of_readInt64? {cs : List Char} {n : Int} (h : readInt64? cs = some n) :
    InInt64 n := by
  unfold readInt64? at h
  split at h <;> split at h <;>
    first
      | (obtain ⟨hin, rfl⟩ := checkInt64_eq_some_iff.1 h; exact hin)
      | simp at h

end PageTree.Number
