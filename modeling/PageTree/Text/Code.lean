import PageTree.Text.Blank

/-!
Characters given by the hexadecimal digits of their codes.
-/

namespace PageTree.Text

/-- The number written by hexadecimal digits, none for other characters. -/
def hexValue? (cs : List Char) : Option Nat :=
  cs.foldl
    (fun n c => n.bind fun n =>
      if c.isDigit then some (16 * n + (c.toNat - 48))
      else if 'a' ≤ c ∧ c ≤ 'f' then some (16 * n + (c.toNat - 87))
      else if 'A' ≤ c ∧ c ≤ 'F' then some (16 * n + (c.toNat - 55))
      else none)
    (some 0)

/-- The number written by digits below a base of at most ten. -/
def baseValue? (base : Nat) (cs : List Char) : Option Nat :=
  if !cs.isEmpty && cs.all fun c => c.isDigit && c.toNat - 48 < base then
    some (cs.foldl (fun n c => base * n + (c.toNat - 48)) 0)
  else
    none

def charOfCode? (n : Nat) : Option Char :=
  if n.isValidChar then some (Char.ofNat n) else none

/-- The character whose code is written by the first `length` digits. -/
def codedChar? (length : Nat) (cs : List Char) : Option Char :=
  let digits := cs.take length
  if digits.length < length then none else (hexValue? digits).bind charOfCode?

/-- The number of digits after the letter that announces a code. -/
def codeLength? (c : Char) : Option Nat :=
  match c with
  | 'x' => some 2
  | 'u' => some 4
  | 'U' => some 8
  | _ => none

end PageTree.Text
