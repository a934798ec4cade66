import PageTree.Date.Calendar
import PageTree.Number.Binary64
import PageTree.Text.Code

/-!
Scalars of settings files: texts between quotes, numbers, truth values and dates. A reader takes the
text from a place on and returns what it has read with the rest of the text.
-/

namespace PageTree.Toml

open Number Text

inductive Scalar where
  | text (s : String)
  | integer (n : Int)
  | real (x : Binary64)
  | boolean (b : Bool)
  | moment (s : String)
  deriving DecidableEq, Repr

/-! ### Texts -/

/-- Characters that stand for themselves: all but the controls, and the tab. -/
def isTextChar (c : Char) : Bool :=
  c = '\t' || (0x20 ≤ c.toNat && c.toNat ≠ 0x7f)

def escapedLetter? (c : Char) : Option Char :=
  match c with
  | 'b' => some '\x08'
  | 't' => some '\t'
  | 'n' => some '\n'
  | 'f' => some '\x0c'
  | 'r' => some '\r'
  | '"' => some '"'
  | '\\' => some '\\'
  | _ => none

/-- The character of an escape, without its backslash, and the number of characters it takes. -/
def escape? : List Char → Option (Char × Nat)
  | [] => none
  | c :: cs =>
    if c = 'u' ∨ c = 'U' then do
      let length ← codeLength? c
      let char ← codedChar? length cs
      some (char, length + 1)
    else
      (escapedLetter? c).map fun char => (char, 1)

/-- The text up to a quote. `skip` is the number of characters that an escape has taken. -/
def readLine? (quote : Char) : Nat → List Char → Option (List Char × List Char)
  | _, [] => none
  | skip + 1, _ :: cs => readLine? quote skip cs
  | 0, c :: cs =>
    if c = quote then some ([], cs)
    else if c = '\\' ∧ quote = '"' then do
      let (char, length) ← escape? cs
      let (text, rest) ← readLine? quote length cs
      some (char :: text, rest)
    else if isTextChar c then
      (readLine? quote 0 cs).map fun r => (c :: r.1, r.2)
    else
      none

def endsInBlanks (cs : List Char) : Bool :=
  match cs.dropWhile fun c => c = ' ' || c = '\t' with
  | '\n' :: _ => true
  | _ => false

def isBlankOrBreak (c : Char) : Bool :=
  c = ' ' || c = '\t' || c = '\n'

/-- The text of several lines up to three quotes, of which up to two more may belong to the text. A
backslash at the end of a line takes all blanks after it away. -/
def readLines? (quote : Char) : Nat → List Char → Option (List Char × List Char)
  | _, [] => none
  | skip + 1, _ :: cs => readLines? quote skip cs
  | 0, c :: cs =>
    let run := (c :: cs).takeWhile fun d => d = quote
    if 3 ≤ run.length then
      some (List.replicate (min run.length 5 - 3) quote, (c :: cs).drop (min run.length 5))
    else if c = '\\' ∧ quote = '"' then
      if endsInBlanks cs then
        readLines? quote (cs.takeWhile isBlankOrBreak).length cs
      else do
        let (char, length) ← escape? cs
        let (text, rest) ← readLines? quote length cs
        some (char :: text, rest)
    else if isTextChar c ∨ c = '\n' then
      (readLines? quote 0 cs).map fun r => (c :: r.1, r.2)
    else
      none

/-- A text between quotes. The line end after three quotes is no part of it. -/
def readText? : List Char → Option (String × List Char)
  | [] => none
  | quote :: cs =>
    let read := match cs with
      | a :: b :: rest =>
        if a = quote ∧ b = quote then
          match rest with
          | '\n' :: rest => readLines? quote 0 rest
          | rest => readLines? quote 0 rest
        else
          readLine? quote 0 cs
      | _ => readLine? quote 0 cs
    read.map fun r => (String.ofList r.1, r.2)

/-! ### Numbers -/

/-- The digits of a number, which may have an underscore between any two of them. -/
def digits? (p : Char → Bool) (cs : List Char) : Option (List Char) :=
  let groups := splitAt '_' cs
  if groups.all fun group => !group.isEmpty && group.all p then some groups.flatten else none

/-- The digits of a decimal number. Only zero itself begins with a zero. -/
def decimalDigits? (cs : List Char) : Option (List Char) :=
  if cs.head? = some '0' ∧ cs ≠ ['0'] then none else digits? Char.isDigit cs

def isHexDigit (c : Char) : Bool :=
  c.isDigit || ('a' ≤ c && c ≤ 'f') || ('A' ≤ c && c ≤ 'F')

def splitSign : List Char → List Char × List Char
  | '-' :: cs => (['-'], cs)
  | '+' :: cs => ([], cs)
  | cs => ([], cs)

def integer? (cs : List Char) : Option Int :=
  let value : Option Int := match cs with
    | '0' :: 'x' :: body => ((digits? isHexDigit body).bind hexValue?).map Int.ofNat
    | '0' :: 'o' :: body => ((digits? Char.isDigit body).bind (baseValue? 8)).map Int.ofNat
    | '0' :: 'b' :: body => ((digits? Char.isDigit body).bind (baseValue? 2)).map Int.ofNat
    | cs =>
      let (sign, body) := splitSign cs
      (decimalDigits? body).map fun digits =>
        if sign.isEmpty then (digitsValue digits : Int) else -(digitsValue digits : Int)
  value.bind checkInt64

/-- The parts before and after the letter of the exponent. -/
def splitExponent (cs : List Char) : List Char × Option (List Char) :=
  match cs.span fun c => c ≠ 'e' && c ≠ 'E' with
  | (body, _ :: exponent) => (body, some exponent)
  | (body, []) => (body, none)

/-- The text of a number with a point or an exponent, without underscores. -/
def realText? (cs : List Char) : Option (List Char) := do
  let (sign, unsigned) := splitSign cs
  let (body, exponent) := splitExponent unsigned
  let (whole, fraction) := match splitFirst? '.' body with
    | some (whole, fraction) => (whole, some fraction)
    | none => (body, none)
  if fraction.isNone && exponent.isNone then none
  let whole ← decimalDigits? whole
  let fraction ← match fraction with
    | some fraction => (digits? Char.isDigit fraction).map fun digits => '.' :: digits
    | none => some []
  let exponent ← match exponent with
    | some exponent =>
      let (sign, body) := splitSign exponent
      (digits? Char.isDigit body).map fun digits => 'e' :: sign ++ digits
    | none => some []
  some (sign ++ whole ++ fraction ++ exponent)

def real? (cs : List Char) : Option Binary64 :=
  let (sign, body) := splitSign cs
  if body = "inf".toList then some (.infinite !sign.isEmpty)
  else if body = "nan".toList then some .nan
  else ((realText? cs).bind Binary64.read?).filter fun x => x ≠ .infinite false

/-! ### Dates -/

/-- A number of as many digits as `least` to `greatest` are written with. -/
def isField (width least greatest : Nat) (cs : List Char) : Bool :=
  cs.length = width && isDigits cs && least ≤ digitsValue cs && digitsValue cs ≤ greatest

def isDate (cs : List Char) : Bool :=
  match splitAt '-' cs with
  | [year, month, day] =>
    isField 4 0 9999 year && isField 2 1 12 month
      && isField 2 1 (Date.daysInMonth (digitsValue year) (digitsValue month)) day
  | _ => false

/-- Hours, minutes and seconds, which may have a fraction. -/
def isTime (cs : List Char) : Bool :=
  let (clock, fraction) := match splitFirst? '.' cs with
    | some (clock, fraction) => (clock, some fraction)
    | none => (cs, none)
  (match splitAt ':' clock with
    | [hour, minute, second] =>
      isField 2 0 23 hour && isField 2 0 59 minute && isField 2 0 60 second
    | _ => false)
    && (match fraction with
      | some digits => isDigits digits
      | none => true)

def isOffset (cs : List Char) : Bool :=
  match cs with
  | sign :: hour :: hour' :: ':' :: minute =>
    (sign = '+' || sign = '-') && isField 2 0 23 [hour, hour'] && isField 2 0 59 minute
  | [c] => c = 'Z' || c = 'z'
  | _ => false

/-- A time with or without its distance to universal time. -/
def isZonedTime (cs : List Char) : Bool :=
  let time := cs.takeWhile fun c => c.isDigit || c = ':' || c = '.'
  isTime time && (time.length = cs.length || isOffset (cs.drop time.length))

/-- A date, a time, or a date and a time after a letter or a blank. -/
def isMoment (cs : List Char) : Bool :=
  isDate cs || isTime cs ||
    (isDate (cs.take 10) &&
      match cs.drop 10 with
      | mark :: time => (mark = 'T' || mark = 't' || mark = ' ') && isZonedTime time
      | [] => false)

/-! ### Words -/

def isWordChar (c : Char) : Bool :=
  c.isAlphanum || c = '_' || c = '+' || c = '-' || c = '.' || c = ':'

/-- The characters of a scalar without quotes. A time may follow a date after a blank. -/
def takeWord (cs : List Char) : List Char :=
  let word := cs.takeWhile isWordChar
  match cs.drop word.length with
  | ' ' :: c :: rest =>
    if isDate word && c.isDigit then word ++ ' ' :: (c :: rest).takeWhile isWordChar else word
  | _ => word

def ofWord? (word : List Char) : Option Scalar :=
  if word = "true".toList then some (.boolean true)
  else if word = "false".toList then some (.boolean false)
  else if isMoment word then some (.moment (String.ofList word))
  else
    match integer? word with
    | some n => some (.integer n)
    | none => (real? word).map .real

def readScalar? (cs : List Char) : Option (Scalar × List Char) :=
  match cs with
  | '"' :: _ => (readText? cs).map fun r => (.text r.1, r.2)
  | '\'' :: _ => (readText? cs).map fun r => (.text r.1, r.2)
  | _ =>
    let word := takeWord cs
    (ofWord? word).map fun scalar => (scalar, cs.drop word.length)

end PageTree.Toml
