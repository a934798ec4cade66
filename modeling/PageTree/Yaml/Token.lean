import PageTree.Yaml.Scalar

/-!
Tokens of a document. Indentation becomes pairs of tokens around collections, and a key is marked
before its first token, which is known only when the colon after it is met.
-/

namespace PageTree.Yaml

inductive Token where
  | documentStart
  | documentEnd
  | itemsStart
  | entriesStart
  | blockEnd
  | openBracket
  | closeBracket
  | openBrace
  | closeBrace
  | dash
  | comma
  | key
  | value
  | scalar (text : String) (plain : Bool)
  deriving DecidableEq, Repr

structure KeyMark where
  before : Nat
  line : Nat
  column : Nat
  /-- Must a key begin here? -/
  required : Bool
  deriving DecidableEq, Repr

/-- The characters from the beginning of a key to its colon. -/
def keyLimit : Nat := 1024

/-- Can a colon at the cursor end the key that begins at the mark? -/
def KeyMark.reaches (mark : KeyMark) (cursor : Cursor) : Bool :=
  mark.line = cursor.line && cursor.column ≤ mark.column + keyLimit

structure Scanner where
  cursor : Cursor
  /-- The tokens, the last one first. -/
  tokens : List Token
  count : Nat
  /-- The columns of the collections around the cursor that are written by indentation, the
  innermost one first. -/
  columns : List Nat
  /-- Where a key may have begun that has not ended, inside the innermost brackets. -/
  mark : Option KeyMark
  /-- The same for each of the brackets around the cursor, the innermost one first. -/
  outerMarks : List (Option KeyMark)
  keyAllowed : Bool

namespace Scanner

def start (cursor : Cursor) : Scanner :=
  { cursor, tokens := [], count := 0, columns := [], mark := none, outerMarks := []
    keyAllowed := true }

def inFlow (scanner : Scanner) : Bool :=
  !scanner.outerMarks.isEmpty

/-- The least column at which the innermost collection goes on. -/
def indent (scanner : Scanner) : Nat :=
  match scanner.columns with
  | column :: _ => column + 1
  | [] => 0

/-! ### Steps -/

def push (scanner : Scanner) (token : Token) : Scanner :=
  { scanner with tokens := token :: scanner.tokens, count := scanner.count + 1 }

def insertAt (scanner : Scanner) (before : Nat) (token : Token) : Scanner :=
  let later := scanner.count - before
  { scanner with
    tokens := scanner.tokens.take later ++ token :: scanner.tokens.drop later
    count := scanner.count + 1 }

def advance (scanner : Scanner) (n : Nat) : Scanner :=
  { scanner with cursor := scanner.cursor.advance n }

def allowKey (scanner : Scanner) (allowed : Bool) : Scanner :=
  { scanner with keyAllowed := allowed }

/-- Begins a collection at a column that lies deeper than the one around it. -/
def indentTo (scanner : Scanner) (column before : Nat) (token : Token) : Scanner :=
  if !scanner.inFlow && scanner.indent ≤ column then
    { scanner.insertAt before token with columns := column :: scanner.columns }
  else
    scanner

/-- Ends the collections whose columns satisfy `p`. Inside brackets none ends. -/
def endColumns (scanner : Scanner) (p : Nat → Bool) : Scanner :=
  if scanner.inFlow then
    scanner
  else
    let ended := (scanner.columns.takeWhile p).length
    { scanner with
      tokens := List.replicate ended .blockEnd ++ scanner.tokens
      count := scanner.count + ended
      columns := scanner.columns.drop ended }

/-- Gives up the key that may have begun, unless one had to. -/
def dropMark? (scanner : Scanner) : Option Scanner :=
  if scanner.mark.any KeyMark.required then none else some { scanner with mark := none }

/-- Notes that a key may begin at the cursor. Outside brackets one must begin at the column of the
entries around it. -/
def markKey? (scanner : Scanner) : Option Scanner :=
  if scanner.keyAllowed then
    scanner.dropMark?.map fun scanner =>
      { scanner with
        mark := some
          { before := scanner.count, line := scanner.cursor.line, column := scanner.cursor.column
            required := !scanner.inFlow && scanner.columns.head? = some scanner.cursor.column } }
  else
    some scanner

/-- Moves to the next token. Outside brackets a key may begin on each line. -/
def skipToToken : Nat → Scanner → Scanner
  | 0, scanner => scanner
  | fuel + 1, scanner =>
    let next := scanner.cursor.skipBlanks (scanner.inFlow || !scanner.keyAllowed)
    match next.rest with
    | c :: cs =>
      if isLineEnd c then
        skipToToken fuel
          { scanner with
            cursor := next.nextLine cs, keyAllowed := scanner.keyAllowed || !scanner.inFlow }
      else
        { scanner with cursor := next }
    | [] => { scanner with cursor := next }

/-! ### Tokens -/

def documentMark? (scanner : Scanner) : Option Scanner := do
  let scanner ← (scanner.endColumns fun _ => true).dropMark?
  let token := if scanner.cursor.rest.head? = some '-' then Token.documentStart else .documentEnd
  some (((scanner.allowKey false).advance 3).push token)

def opening? (scanner : Scanner) (token : Token) : Option Scanner := do
  let scanner ← scanner.markKey?
  some
    (({ scanner with
        mark := none, outerMarks := scanner.mark :: scanner.outerMarks
        keyAllowed := true }.advance 1).push token)

def closing? (scanner : Scanner) (token : Token) : Option Scanner := do
  let scanner ← scanner.dropMark?
  let scanner :=
    match scanner.outerMarks with
    | mark :: outer => { scanner with mark, outerMarks := outer }
    | [] => scanner
  some (((scanner.allowKey false).advance 1).push token)

def comma? (scanner : Scanner) : Option Scanner := do
  let scanner ← scanner.dropMark?
  some (((scanner.allowKey true).advance 1).push .comma)

def dash? (scanner : Scanner) : Option Scanner := do
  guard (scanner.inFlow || scanner.keyAllowed)
  let scanner ← (scanner.indentTo scanner.cursor.column scanner.count .itemsStart).dropMark?
  some (((scanner.allowKey true).advance 1).push .dash)

/-- A question mark, which begins a key of any form. -/
def question? (scanner : Scanner) : Option Scanner := do
  guard (scanner.inFlow || scanner.keyAllowed)
  let scanner ← (scanner.indentTo scanner.cursor.column scanner.count .entriesStart).dropMark?
  some (((scanner.allowKey !scanner.inFlow).advance 1).push .key)

/-- A colon after a key that began at a mark. -/
def colonAfter (scanner : Scanner) (mark : KeyMark) : Scanner :=
  let scanner := scanner.insertAt mark.before .key
  let scanner := scanner.indentTo mark.column mark.before .entriesStart
  (({ scanner with mark := none, keyAllowed := false }).advance 1).push .value

/-- A colon that stands alone or after a key of any form. -/
def colonAlone? (scanner : Scanner) : Option Scanner := do
  guard (scanner.inFlow || scanner.keyAllowed)
  let scanner := scanner.indentTo scanner.cursor.column scanner.count .entriesStart
  some (((scanner.allowKey !scanner.inFlow).advance 1).push .value)

def colon? (scanner : Scanner) : Option Scanner :=
  match scanner.mark with
  | some mark =>
    if mark.reaches scanner.cursor then some (scanner.colonAfter mark)
    else if mark.required then none
    else colonAlone? { scanner with mark := none }
  | none => scanner.colonAlone?

/-- A quoted text, read by `read` from after its quote on. -/
def quoted? (scanner : Scanner) (read : Nat → Cursor → Option (List Char × Cursor)) :
    Option Scanner := do
  let scanner ← scanner.markKey?
  let (text, cursor) ← read scanner.cursor.rest.length (scanner.cursor.advance 1)
  some ({ scanner with cursor, keyAllowed := false }.push (.scalar (String.ofList text) false))

def plain? (scanner : Scanner) : Option Scanner := do
  let scanner ← scanner.markKey?
  let plain ← readPlain? scanner.inFlow scanner.indent scanner.cursor
  some
    ({ scanner with cursor := plain.cursor, keyAllowed := plain.leftLine }.push
      (.scalar (String.ofList plain.text) true))

def token? (scanner : Scanner) (c : Char) (cs : List Char) : Option Scanner :=
  let isAlone := endsToken cs
  if scanner.cursor.atDocumentMark then scanner.documentMark?
  else if c = '[' then scanner.opening? .openBracket
  else if c = '\x7b' then scanner.opening? .openBrace
  else if c = ']' then scanner.closing? .closeBracket
  else if c = '\x7d' then scanner.closing? .closeBrace
  else if c = ',' then scanner.comma?
  else if c = '-' ∧ isAlone then scanner.dash?
  else if c = '?' ∧ (scanner.inFlow || isAlone) then scanner.question?
  else if c = ':' ∧ (scanner.inFlow || isAlone) then scanner.colon?
  else if c = '\'' then scanner.quoted? readSingleQuoted
  else if c = '"' then scanner.quoted? readDoubleQuoted
  else if startsPlain scanner.inFlow (c :: cs) then scanner.plain?
  else none

def run? : Nat → Scanner → Option (List Token)
  | 0, _ => none
  | fuel + 1, scanner =>
    let scanner := scanner.skipToToken (scanner.cursor.rest.length + 1)
    match scanner.cursor.rest with
    | [] => do
      let scanner ← (scanner.endColumns fun _ => true).dropMark?
      some scanner.tokens.reverse
    | c :: cs =>
      let column := scanner.cursor.column
      ((scanner.endColumns fun outer => column < outer).token? c cs).bind (run? fuel)

end Scanner

def tokens? (s : String) : Option (List Token) := do
  let cursor ← Cursor.ofText? s
  (Scanner.start cursor).run? (cursor.rest.length + 1)

end PageTree.Yaml
