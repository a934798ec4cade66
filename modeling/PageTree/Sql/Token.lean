import PageTree.Sql.Name
import PageTree.Sql.Value

/-!
Tokens of a statement. Blanks and comments stand between them, and a null character ends the text.
-/

namespace PageTree.Sql

open Number

inductive Token where
  | word (text : String)
  | name (text : String)
  /-- What stands between double quotes: a name, or a text where nothing has the name. -/
  | loose (text : String)
  | text (value : String)
  | digits (run : List Char)
  | number (value : Value)
  | mark (text : String)
  /-- What no statement holds. -/
  | illegal
  deriving DecidableEq, Repr

namespace Token

/-- Is the token this word, in letters of either case? -/
def isWord (expected : String) : Token → Bool
  | .word found => foldName found = expected
  | _ => false

end Token

namespace Lexical

def isBlank (c : Char) : Bool :=
  c = ' ' || c = '\t' || c = '\n' || c = '\x0c' || c = '\r' || c = '\ufeff'

/-! ### Comments -/

def skipLine (cs : List Char) : List Char :=
  cs.dropWhile fun c => c ≠ '\n'

/-- The text after the end of a comment, nothing when it does not end. -/
def skipBlock : List Char → List Char
  | '*' :: '/' :: cs => cs
  | _ :: cs => skipBlock cs
  | [] => []

/-- Moves over blanks and comments. What would begin a comment at the very end is none. -/
def skipToToken : Nat → List Char → List Char
  | 0, cs => cs
  | fuel + 1, cs =>
    match cs with
    | '-' :: '-' :: rest => skipToToken fuel (skipLine rest)
    | '/' :: '*' :: c :: rest => skipToToken fuel (skipBlock (c :: rest))
    | c :: rest => if isBlank c then skipToToken fuel rest else c :: rest
    | [] => []

/-! ### Quoted text -/

/-- The text up to a quote, which stands for itself when doubled, and what follows. -/
def readQuoted? (quote : Char) : List Char → Option (List Char × List Char)
  | [] => none
  | [c] => if c = quote then some ([], []) else none
  | c :: d :: cs =>
    if c = quote then
      if d = quote then (readQuoted? quote cs).map fun r => (quote :: r.1, r.2)
      else some ([], d :: cs)
    else
      (readQuoted? quote (d :: cs)).map fun r => (c :: r.1, r.2)

def quotedToken (make : String → Token) (read : Option (List Char × List Char)) :
    Token × List Char :=
  match read with
  | some (text, rest) => (make (String.ofList text), rest)
  | none => (.illegal, [])

def bracketToken (cs : List Char) : Token × List Char :=
  let name := cs.takeWhile fun c => c ≠ ']'
  match cs.drop name.length with
  | _ :: rest => (.name (String.ofList name), rest)
  | [] => (.illegal, [])

/-! ### Numbers -/

def isHexDigit (c : Char) : Bool :=
  c.isDigit || ('a' ≤ c.toLower && c.toLower ≤ 'f')

def hexDigitValue (c : Char) : Nat :=
  if c.isDigit then digitValue c else c.toLower.toNat - 87

/-- Digits of a number, with underscores between them. -/
def takeDigits (isDigit : Char → Bool) (cs : List Char) : List Char × List Char :=
  (cs.takeWhile fun c => isDigit c || c = '_', cs.dropWhile fun c => isDigit c || c = '_')

/-- The digits without the underscores, each of which stands between two digits. -/
def joinDigits? (isDigit : Char → Bool) : List Char → Option (List Char)
  | [] => some []
  | c :: d :: cs =>
    if isDigit c then
      if d = '_' then
        match cs with
        | e :: _ => if isDigit e then (joinDigits? isDigit cs).map (c :: ·) else none
        | [] => none
      else
        (joinDigits? isDigit (d :: cs)).map (c :: ·)
    else
      none
  | [c] => if isDigit c then some [c] else none

def takeFraction : List Char → Option (List Char) × List Char
  | '.' :: cs => let fraction := takeDigits Char.isDigit cs; (some fraction.1, fraction.2)
  | cs => (none, cs)

def takeExponent (cs : List Char) : Option (Bool × List Char) × List Char :=
  match cs with
  | e :: rest =>
    if e = 'e' ∨ e = 'E' then
      let signed := splitSign rest
      if signed.2.head?.any Char.isDigit then
        let digits := takeDigits Char.isDigit signed.2
        (some (signed.1, digits.1), digits.2)
      else
        (none, cs)
    else
      (none, cs)
  | [] => (none, [])

/-- A number in base sixteen, as the bits of a 64-bit integer. -/
def hexToken (digits : List Char) : Token :=
  match joinDigits? isHexDigit digits with
  | some digits =>
    let n := digits.foldl (fun n c => 16 * n + hexDigitValue c) 0
    if n < Nat.pow 2 63 then .number (.integer n)
    else if n < Nat.pow 2 64 then .number (.integer (n - Nat.pow 2 64))
    else .illegal
  | none => .illegal

/-- A number with its parts; without a fraction and an exponent it is a run of digits. -/
def decimalToken (whole : List Char) (fraction : Option (List Char))
    (exponent : Option (Bool × List Char)) : Token :=
  let read? : Option Token := do
    let whole ← joinDigits? Char.isDigit whole
    match fraction, exponent with
    | none, none => some (.digits whole)
    | _, _ => do
      let fraction ← joinDigits? Char.isDigit (fraction.getD [])
      let power ← joinDigits? Char.isDigit ((exponent.map Prod.snd).getD [])
      let sign : Int := if (exponent.map Prod.fst).getD false then -1 else 1
      some (.number (.real (.ofScaledText false ⟨whole, fraction, sign * digitsValue power⟩)))
  read?.getD .illegal

def numberToken (cs : List Char) : Token × List Char :=
  let read :=
    match cs with
    | '0' :: x :: rest =>
      if (x = 'x' ∨ x = 'X') ∧ rest.head?.any isHexDigit then
        let digits := takeDigits isHexDigit rest
        (hexToken digits.1, digits.2)
      else
        decimal cs
    | _ => decimal cs
  if read.2.head?.any isNameChar then (.illegal, read.2.dropWhile isNameChar) else read
where
  decimal (cs : List Char) : Token × List Char :=
    let whole := takeDigits Char.isDigit cs
    let fraction := takeFraction whole.2
    let exponent := takeExponent fraction.2
    (decimalToken whole.1 fraction.1 exponent.1, exponent.2)

/-! ### Tokens -/

/-- Marks of more than one character, the longer ones first. -/
def longMarks : List String :=
  ["->>", "->", "<=", "<>", "<<", ">=", ">>", "==", "!=", "||"]

def shortMarks : List Char :=
  ['(', ')', ';', ',', '.', '+', '-', '*', '/', '%', '=', '<', '>', '|', '&', '~']

def markToken (cs : List Char) : Token × List Char :=
  match longMarks.find? fun mark => mark.toList.isPrefixOf cs with
  | some mark => (.mark mark, cs.drop mark.length)
  | none =>
    match cs with
    | c :: rest =>
      if shortMarks.contains c then (.mark (String.singleton c), rest) else (.illegal, rest)
    | [] => (.illegal, [])

/-- The token that begins with a character, and the text after it. -/
def nextToken (c : Char) (cs : List Char) : Token × List Char :=
  if c = '\'' then quotedToken .text (readQuoted? c cs)
  else if c = '"' then quotedToken .loose (readQuoted? c cs)
  else if c = '\x60' then quotedToken .name (readQuoted? c cs)
  else if c = '[' then bracketToken cs
  else if c.isDigit || (c = '.' && cs.head?.any Char.isDigit) then numberToken (c :: cs)
  else if (c = 'x' || c = 'X') && cs.head? = some '\'' then (.illegal, cs)
  else if isNameStart c then
    (.word (String.ofList (c :: cs.takeWhile isNameChar)), cs.dropWhile isNameChar)
  else markToken (c :: cs)

def readTokens : Nat → List Char → List Token
  | 0, _ => []
  | fuel + 1, cs =>
    match skipToToken (fuel + 1) cs with
    | [] => []
    | c :: rest =>
      let next := nextToken c rest
      next.1 :: readTokens fuel next.2

end Lexical

def tokens (statement : String) : List Token :=
  let cs := statement.toList.takeWhile fun c => c ≠ '\x00'
  Lexical.readTokens cs.length cs

end PageTree.Sql
