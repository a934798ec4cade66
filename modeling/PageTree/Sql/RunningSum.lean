import PageTree.Sql.Arithmetic

/-!
Sums of the values of a group. As long as all of them are integers the sum is exact; from the first
other number on it is a real, and what rounding takes from it is summed beside it.
-/

namespace PageTree.Sql

open Number

/-- A real sum and what rounding has taken from it. -/
structure CompensatedSum where
  sum : Binary64
  lost : Binary64

namespace CompensatedSum

/-- Adds a number; the lesser of the two addends is the one that loses digits. -/
def add (total : CompensatedSum) (x : Binary64) : CompensatedSum :=
  let sum := total.sum + x
  let lost :=
    if (Value.real total.sum.abs).order (.real x.abs) = .gt then (total.sum - sum) + x
    else (x - sum) + total.sum
  { sum, lost := total.lost + lost }

/-- An integer as addends that are reals without loss: one when its magnitude is below 2 ^ 52, else
a multiple of 2 ^ 14 and the rest. -/
def addends (n : Int) : List Binary64 :=
  if n.natAbs < Nat.pow 2 52 then [.ofInt n]
  else
    let rest := n.tmod (Nat.pow 2 14)
    [.ofInt (n - rest), .ofInt rest]

def ofInt (n : Int) : CompensatedSum :=
  match addends n with
  | sum :: rest => { sum, lost := rest.headD .zero }
  | [] => { sum := .zero, lost := .zero }

def addInt (total : CompensatedSum) (n : Int) : CompensatedSum :=
  (addends n).foldl add total

def value (total : CompensatedSum) : Binary64 :=
  if total.lost.isFinite then total.sum + total.lost else total.sum

end CompensatedSum

inductive RunningSum where
  /-- So far all were integers, and their sum is in range. -/
  | exact (n : Int)
  /-- Since integers have left their range, `hasLeft`, no real has come. -/
  | real (total : CompensatedSum) (hasLeft : Bool)

namespace RunningSum

def add : RunningSum → Value → RunningSum
  | .exact m, .integer n =>
    match checkInt64 (m + n) with
    | some sum => .exact sum
    | none => .real ((CompensatedSum.ofInt m).addInt n) true
  | .exact m, value => .real ((CompensatedSum.ofInt m).add value.toReal) false
  | .real total hasLeft, .integer n => .real (total.addInt n) hasLeft
  | .real total _, value => .real (total.add value.toReal) false

/-- The sum of values. A text is a number as a whole, or else the real that it begins with. -/
def ofValues (values : List Value) : RunningSum :=
  values.foldl (fun sum value =>
    match value with
    | .text s => sum.add ((Value.ofNumberText? s).getD value)
    | value => sum.add value) (.exact 0)

def total : RunningSum → Binary64
  | .exact n => .ofInt n
  | .real total _ => total.value

/-- The sum as a value, none where integers have left their range. -/
def value? : RunningSum → Option Value
  | .exact n => some (.integer n)
  | .real total hasLeft => if hasLeft then none else some (.ofReal total.value)

end RunningSum

end PageTree.Sql
