import PageTree.Text.Code

/-!
Percent escapes: a percent sign and two hexadecimal digits stand for a byte, every other character
for its own bytes. The byte zero ends the text.
-/

namespace PageTree.Text

def percentBytes : List Char → List UInt8
  | [] => []
  | '%' :: high :: low :: cs =>
    match hexValue? [high, low] with
    | some 0 => []
    | some byte => byte.toUInt8 :: percentBytes cs
    | none => '%'.toUInt8 :: percentBytes (high :: low :: cs)
  | c :: cs => String.utf8EncodeChar c ++ percentBytes cs

/-- The text of some bytes. Bytes that are no text become one that no text is equal to: it begins
with a zero character. -/
def ofBytes (bytes : List UInt8) : String :=
  match String.fromUTF8? ⟨bytes.toArray⟩ with
  | some s => s
  | none => String.ofList ('\x00' :: bytes.map fun byte => Char.ofNat byte.toNat)

def percentDecode (cs : List Char) : String :=
  ofBytes (percentBytes cs)

end PageTree.Text
