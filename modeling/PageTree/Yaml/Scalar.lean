import PageTree.Data.Datum
import PageTree.Text.Code
import PageTree.Yaml.Cursor

/-!
Scalars: quoted texts with their escapes, plain texts over one or more lines, and the values that
plain texts stand for.
-/

namespace PageTree.Yaml

open Number Text

def letterEscape? (c : Char) : Option Char :=
  match c with
  | '0' => some '\x00'
  | 'a' => some '\x07'
  | 'b' => some '\x08'
  | 't' => some '\t'
  | '\t' => some '\t'
  | 'n' => some '\n'
  | 'v' => some '\x0b'
  | 'f' => some '\x0c'
  | 'r' => some '\r'
  | 'e' => some '\x1b'
  | ' ' => some ' '
  | '"' => some '"'
  | '/' => some '/'
  | '\\' => some '\\'
  | 'N' => some '\u0085'
  | '_' => some '\u00a0'
  | 'L' => some '\u2028'
  | 'P' => some '\u2029'
  | _ => none

/-- What the line ends between two lines stand for inside a text. A line feed before other line ends
is left out, and alone it is a blank. -/
def foldedLineEnds : List Char → List Char
  | [c] => if c = '\n' then [' '] else [c]
  | c :: cs => if c = '\n' then cs else c :: cs
  | [] => []

/-- Blanks and line ends at the start of a text: the blanks of the first line, the line ends, and
the cursor after all of them. -/
def takeLineEnds (cursor : Cursor) : List Char × List Char × Cursor :=
  let first := cursor.rest.takeWhile isSeparator
  let start := cursor.advance first.length
  let (ends, next) := go false start start.rest
  (first, ends, next)
where
  go (ended : Bool) (cursor : Cursor) : List Char → List Char × Cursor
    | c :: cs =>
      if isLineEnd c then
        let (ends, next) := go true (cursor.nextLine cs) cs
        (c :: ends, next)
      else if ended ∧ isSeparator c then go ended (cursor.advance 1) cs
      else ([], cursor)
    | [] => ([], cursor)

/-- Blanks inside a quoted text: kept within a line, folded around line ends. -/
def foldBlanks (cursor : Cursor) : List Char × Cursor :=
  match takeLineEnds cursor with
  | (first, [], next) => (first, next)
  | (_, ends, next) => (foldedLineEnds ends, next)

/-- The text after an opening single quote, in which a doubled quote stands for one. -/
def readSingleQuoted : Nat → Cursor → Option (List Char × Cursor)
  | 0, _ => none
  | fuel + 1, cursor =>
    if cursor.atDocumentMark then
      none
    else
      match cursor.rest with
      | [] => none
      | '\'' :: '\'' :: _ =>
        (readSingleQuoted fuel (cursor.advance 2)).map fun r => ('\'' :: r.1, r.2)
      | '\'' :: _ => some ([], cursor.advance 1)
      | c :: _ =>
        if isSeparator c ∨ isLineEnd c then
          let (blanks, next) := foldBlanks cursor
          (readSingleQuoted fuel next).map fun r => (blanks ++ r.1, r.2)
        else
          (readSingleQuoted fuel (cursor.advance 1)).map fun r => (c :: r.1, r.2)

/-- The text after an opening double quote, with escapes; an escaped line end stands for nothing. -/
def readDoubleQuoted : Nat → Cursor → Option (List Char × Cursor)
  | 0, _ => none
  | fuel + 1, cursor =>
    if cursor.atDocumentMark then
      none
    else
      match cursor.rest with
      | [] => none
      | '"' :: _ => some ([], cursor.advance 1)
      | '\\' :: c :: cs =>
        if isLineEnd c then
          let (_, ends, next) := takeLineEnds (cursor.advance 1)
          (readDoubleQuoted fuel next).map fun r => (ends.drop 1 ++ r.1, r.2)
        else
          match codeLength? c with
          | some length => do
            let code ← codedChar? length cs
            let r ← readDoubleQuoted fuel (cursor.advance (length + 2))
            some (code :: r.1, r.2)
          | none => do
            let char ← letterEscape? c
            let r ← readDoubleQuoted fuel (cursor.advance 2)
            some (char :: r.1, r.2)
      | c :: _ =>
        if isSeparator c ∨ isLineEnd c then
          let (blanks, next) := foldBlanks cursor
          (readDoubleQuoted fuel next).map fun r => (blanks ++ r.1, r.2)
        else
          (readDoubleQuoted fuel (cursor.advance 1)).map fun r => (c :: r.1, r.2)

def isFlowMark (c : Char) : Bool :=
  c = ',' || c = '[' || c = ']' || c = '\x7b' || c = '\x7d'

def isIndicator (c : Char) : Bool :=
  "-?:,[]\x7b\x7d#&*!|>'\"%@\x60".toList.contains c

def startsPlain (flow : Bool) : List Char → Bool
  | [] => false
  | c :: cs =>
    if c = '-' then !endsToken cs
    else if c = '?' ∨ c = ':' then !flow && !endsToken cs
    else !isIndicator c && !isSeparator c && !isLineEnd c

/-- Inside brackets, a colon before a mark or a question mark is a fault. -/
def isTightColon (c : Char) : List Char → Bool
  | d :: _ => c = ':' && (isFlowMark d || d = '?')
  | [] => false

/-- The characters of a plain text up to a blank or what ends the text. -/
def plainRun? (flow : Bool) : List Char → Option (List Char)
  | [] => some []
  | c :: cs =>
    if isSeparator c || isLineEnd c then some []
    else if flow && isTightColon c cs then none
    else if (c = ':' && endsToken cs) || (flow && isFlowMark c) then some []
    else (plainRun? flow cs).map (c :: ·)

/-- Do the blanks at the start of a text indent one of its further lines by a tab? -/
def indentsByTab (indent : Nat) (further : Bool) (column : Nat) : List Char → Bool
  | c :: cs =>
    if isLineEnd c then indentsByTab indent true 0 cs
    else if isSeparator c then
      (further && c = '\t' && column < indent) || indentsByTab indent further (column + 1) cs
    else false
  | [] => false

structure Plain where
  text : List Char
  /-- Was the text left on a later line than the one its last character stands on? -/
  leftLine : Bool
  cursor : Cursor

/-- A plain text from one of its runs on; `joint` are the blanks before the run, as they count in
the text. A line continues the text when it lies at `indent` or deeper and does not begin with a
comment. -/
def plainRuns? (flow : Bool) (indent : Nat) : Nat → Bool → List Char → Cursor → Option Plain
  | 0, _, _, _ => none
  | fuel + 1, leftLine, joint, cursor =>
    if cursor.atDocumentMark || cursor.rest.head? = some '#' then
      some { text := [], leftLine, cursor }
    else do
      let run ← plainRun? flow cursor.rest
      if run.isEmpty then
        some { text := [], leftLine, cursor }
      else
        let after := cursor.advance run.length
        match takeLineEnds after with
        | ([], [], next) => some { text := joint ++ run, leftLine := false, cursor := next }
        | (blanks, ends, next) =>
          if indentsByTab indent false after.column after.rest then
            none
          else if !flow && next.column < indent then
            some { text := joint ++ run, leftLine := !ends.isEmpty, cursor := next }
          else
            let joint' := if ends.isEmpty then blanks else foldedLineEnds ends
            (plainRuns? flow indent fuel (!ends.isEmpty) joint' next).map fun plain =>
              { plain with text := joint ++ run ++ plain.text }

def readPlain? (flow : Bool) (indent : Nat) (cursor : Cursor) : Option Plain :=
  plainRuns? flow indent (cursor.rest.length + 1) false [] cursor

/-! ### Values of plain texts -/

def isNullText (s : String) : Bool :=
  s = "" || s = "~" || s = "null" || s = "Null" || s = "NULL"

def boolOfText? (s : String) : Option Bool :=
  if s = "true" ∨ s = "True" ∨ s = "TRUE" then some true
  else if s = "false" ∨ s = "False" ∨ s = "FALSE" then some false
  else none

/-- Digits after a leading zero are a text and no number. -/
def isZeroPadded (cs : List Char) : Bool :=
  let body := match cs with
    | '-' :: rest => rest
    | '+' :: rest => rest
    | rest => rest
  1 < body.length && body.head? = some '0' && body.all Char.isDigit

/-- The number written by digits, in base sixteen, eight or two after a mark. -/
def naturalOfText? : List Char → Option Nat
  | '0' :: 'x' :: cs => if cs.isEmpty then none else hexValue? cs
  | '0' :: 'o' :: cs => baseValue? 8 cs
  | '0' :: 'b' :: cs => baseValue? 2 cs
  | cs => baseValue? 10 cs

def integerOfText? (cs : List Char) : Option Int :=
  if isZeroPadded cs then
    none
  else
    match cs with
    | '-' :: rest => (naturalOfText? rest).map fun n => -(n : Int)
    | '+' :: rest => (naturalOfText? rest).map fun n => (n : Int)
    | rest => (naturalOfText? rest).map fun n => (n : Int)

def realOfText? (s : String) : Option Binary64 :=
  if s = ".inf" ∨ s = ".Inf" ∨ s = ".INF" ∨ s = "+.inf" ∨ s = "+.Inf" ∨ s = "+.INF" then
    some (.infinite false)
  else if s = "-.inf" ∨ s = "-.Inf" ∨ s = "-.INF" then some (.infinite true)
  else if s = ".nan" ∨ s = ".NaN" ∨ s = ".NAN" then some .nan
  else if isZeroPadded s.toList then none
  else (Binary64.read? s.toList).filter Binary64.isFinite

/-- The greatest integer that is read. -/
def integerLimit : Int :=
  18446744073709551615

/-- The integers beyond which a run of digits is read as a real number. -/
def wideLimit : Int :=
  340282366920938463463374607431768211455

def InIntegerRange (n : Int) : Prop :=
  minInt64 ≤ n ∧ n ≤ integerLimit

instance (n : Int) : Decidable (InIntegerRange n) :=
  inferInstanceAs (Decidable (_ ∧ _))

/-- The value a plain text stands for; none for integers that no value can hold. -/
def resolve? (s : String) : Option Datum :=
  if isNullText s then
    some .null
  else
    match boolOfText? s with
    | some b => some (.bool b)
    | none =>
      match integerOfText? s.toList with
      | some n =>
        if InIntegerRange n then some (.integer n)
        else if -(wideLimit / 2) - 1 ≤ n ∧ n ≤ wideLimit then none
        else some (((realOfText? s).map .real).getD (.text s))
      | none => some (((realOfText? s).map .real).getD (.text s))

end PageTree.Yaml
