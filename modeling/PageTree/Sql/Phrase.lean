import PageTree.Sql.Expression
import PageTree.Sql.Like
import PageTree.Sql.Token

/-!
Phrases of a statement: runs of tokens that mean something by themselves, such as names, operators
and types. A reader gives what it has read and the tokens after it.
-/

namespace PageTree.Sql

open Number

/-! ### Names -/

/-- Words that join tables, and name neither a column nor a table without `AS`. -/
def joinWords : List String :=
  ["cross", "full", "inner", "left", "natural", "outer", "right"]

def Identifier.plain (text : String) : Identifier :=
  ⟨text, false⟩

namespace Token

def identifier? : Token → Option Identifier
  | .word found => if reservedWords.contains (foldName found) then none else some (.plain found)
  | .name found => some (.plain found)
  | .loose found => some ⟨found, true⟩
  | _ => none

def label? : Token → Option String
  | .text value => some value
  | token => token.identifier?.map Identifier.text

/-- A name that may follow without a word before it. -/
def bareLabel? : Token → Option String
  | .word found =>
    if joinWords.contains (foldName found) then none else (Token.word found).label?
  | token => token.label?

end Token

/-! ### Values and types -/

def Value.ofNegativeDigits (run : List Char) : Value :=
  let n : Int := digitsValue run
  if n ≤ maxInt64 + 1 then .integer (-n) else .real (.ofScaledText true ⟨run, [], 0⟩)

def Collation.ofName? (name : String) : Option Collation :=
  match foldName name with
  | "binary" => some .binary
  | "nocase" => some .noCase
  | "rtrim" => some .trimmed
  | _ => none

/-- What a type converts to, by the parts of its name. -/
def CastTarget.ofName? (name : String) : Option CastTarget :=
  let has (part : String) : Bool := anySuffix part.toList.isPrefixOf (foldName name).toList
  if has "int" then some .integer
  else if has "char" || has "clob" || has "text" then some .text
  else if has "blob" || name = "" then none
  else if has "real" || has "floa" || has "doub" then some .real
  else some .numeric

/-! ### Operators -/

inductive Suffix where
  | binary (operator : BinaryOperator)
  | isNot
  | missing
  | present
  | between (isNegated : Bool)
  | oneOf (isNegated : Bool)
  | like (isNegated : Bool)
  | collate
  deriving DecidableEq, Repr

/-! Operators of higher levels bind tighter, and those of one level are taken from left to right. -/

namespace Level

def disjunction : Nat := 1

def conjunction : Nat := 2

def negation : Nat := 3

def equality : Nat := 4

def comparison : Nat := 5

def bits : Nat := 6

def sum : Nat := 7

def product : Nat := 8

def concatenation : Nat := 9

def collation : Nat := 10

def sign : Nat := 11

end Level

def markSuffixes : List (String × Nat × BinaryOperator) :=
  [("=", Level.equality, .compare .equal), ("==", Level.equality, .compare .equal),
    ("!=", Level.equality, .compare .notEqual), ("<>", Level.equality, .compare .notEqual),
    ("<", Level.comparison, .compare .less), (">", Level.comparison, .compare .greater),
    ("<=", Level.comparison, .compare .lessEqual),
    (">=", Level.comparison, .compare .greaterEqual),
    ("&", Level.bits, .bitAnd), ("|", Level.bits, .bitOr),
    ("<<", Level.bits, .shiftLeft), (">>", Level.bits, .shiftRight),
    ("+", Level.sum, .plus), ("-", Level.sum, .minus),
    ("*", Level.product, .times), ("/", Level.product, .over), ("%", Level.product, .modulo),
    ("||", Level.concatenation, .concat)]

/-- Operators that are words, the longer ones first. -/
def wordSuffixes : List (List String × Nat × Suffix) :=
  [(["or"], Level.disjunction, .binary .or), (["and"], Level.conjunction, .binary .and),
    (["is", "not", "distinct", "from"], Level.equality, .binary .is),
    (["is", "distinct", "from"], Level.equality, .isNot),
    (["is", "not"], Level.equality, .isNot), (["is"], Level.equality, .binary .is),
    (["isnull"], Level.equality, .missing), (["notnull"], Level.equality, .present),
    (["not", "null"], Level.equality, .present),
    (["between"], Level.equality, .between false),
    (["not", "between"], Level.equality, .between true),
    (["in"], Level.equality, .oneOf false), (["not", "in"], Level.equality, .oneOf true),
    (["like"], Level.equality, .like false), (["not", "like"], Level.equality, .like true),
    (["collate"], Level.collation, .collate)]

/-! ### Readers -/

namespace Phrase

def afterWords? : List String → List Token → Option (List Token)
  | [], tokens => some tokens
  | expected :: words, token :: tokens =>
    if token.isWord expected then afterWords? words tokens else none
  | _ :: _, [] => none

def afterMark? (mark : String) : List Token → Option (List Token)
  | .mark found :: tokens => if found = mark then some tokens else none
  | _ => none

def startsWithWord (expected : String) (tokens : List Token) : Bool :=
  tokens.head?.any (Token.isWord expected)

def startsSelect (tokens : List Token) : Bool :=
  ["select", "values", queryWord].any fun word => startsWithWord word tokens

/-- What the first of some words that stand here means, and the tokens after them. -/
def choice? {α : Type} (choices : List (List String × α)) (tokens : List Token) :
    Option (α × List Token) :=
  choices.findSome? fun choice =>
    (afterWords? choice.1 tokens).map fun rest => (choice.2, rest)

/-- What the words that stand here mean, or else what no words mean. -/
def choiceOr {α : Type} (choices : List (List String × α)) (otherwise : α) (tokens : List Token) :
    α × List Token :=
  (choice? choices tokens).getD (otherwise, tokens)

/-- Items with commas between them, at least one. -/
def separated? {α : Type} (item : List Token → Option (α × List Token)) :
    Nat → List Token → Option (List α × List Token)
  | 0, _ => none
  | fuel + 1, tokens => do
    let (first, rest) ← item tokens
    match afterMark? "," rest with
    | some rest => do
      let (items, rest) ← separated? item fuel rest
      some (first :: items, rest)
    | none => some ([first], rest)

def closed? {α : Type} (item : List Token → Option (α × List Token)) (tokens : List Token) :
    Option (α × List Token) := do
  let (found, rest) ← item tokens
  let rest ← afterMark? ")" rest
  some (found, rest)

def optional? {α : Type} (words : List String) (item : List Token → Option (α × List Token))
    (tokens : List Token) : Option (Option α × List Token) :=
  match afterWords? words tokens with
  | some rest => (item rest).map fun r => (some r.1, r.2)
  | none => some (none, tokens)

/-- The new name of a column or of a table, when one follows. -/
def label? (tokens : List Token) : Option (Option String × List Token) :=
  match afterWords? ["as"] tokens with
  | some (token :: rest) => token.label?.map fun label => (some label, rest)
  | some [] => none
  | none =>
    match tokens with
    | token :: rest =>
      match token.bareLabel? with
      | some label => some (some label, rest)
      | none => some (none, tokens)
    | [] => some (none, [])

/-- The parts of a name after its first part: at most two more, with points between them. -/
def nameParts? (first : Identifier) (tokens : List Token) :
    Option (List Identifier × List Token) :=
  match tokens with
  | .mark "." :: second :: rest =>
    second.label?.bind fun name =>
      match rest with
      | .mark "." :: third :: rest =>
        third.label?.map fun last => ([first, .plain name, .plain last], rest)
      | _ => some ([first, .plain name], rest)
  | _ => some ([first], tokens)

/-- The name of a table, which may follow the name of the one database. -/
def tableName? (tokens : List Token) : Option (String × List Token) :=
  match tokens with
  | first :: .mark "." :: second :: rest => do
    let database ← first.label?
    guard (sameName database "main")
    second.label?.map fun name => (name, rest)
  | first :: rest => first.label?.map fun name => (name, rest)
  | [] => none

/-- The operator that follows an operand, with its level. -/
def suffix? (tokens : List Token) : Option ((Nat × Suffix) × List Token) :=
  match tokens with
  | .mark mark :: rest =>
    (markSuffixes.lookup mark).map fun found => ((found.1, .binary found.2), rest)
  | _ => choice? wordSuffixes tokens

/-- The name of a type, which may be several words. -/
def typeName : List Token → List String × List Token
  | .word text :: rest => let more := typeName rest; (text :: more.1, more.2)
  | .loose text :: rest => let more := typeName rest; (text :: more.1, more.2)
  | .name text :: rest => let more := typeName rest; (text :: more.1, more.2)
  | tokens => ([], tokens)

/-- The size of a type, which counts for nothing. -/
def skipTypeSize? : List Token → Option (List Token)
  | .mark "(" :: .digits _ :: .mark ")" :: rest => some rest
  | .mark "(" :: .digits _ :: .mark "," :: .digits _ :: .mark ")" :: rest => some rest
  | .mark "(" :: _ => none
  | tokens => some tokens

/-- Does the join before a table keep rows without a match? None when no table follows. -/
def isLeftJoin? (tokens : List Token) : Option (Bool × List Token) :=
  match afterMark? "," tokens with
  | some rest => some (false, rest)
  | none =>
    choice?
      [(["join"], false), (["inner", "join"], false), (["cross", "join"], false),
        (["left", "join"], true), (["left", "outer", "join"], true)] tokens

def setOperator? : List Token → Option (SetOperator × List Token) :=
  choice?
    [(["union", "all"], .unionAll), (["union"], .union), (["intersect"], .intersect),
      (["except"], .except)]

def isDescending : List Token → Bool × List Token :=
  choiceOr [(["asc"], false), (["desc"], true)] false

/-- Do rows without a value come first? They are the least ones, unless it is said. -/
def missingFirst (isDescending : Bool) : List Token → Bool × List Token :=
  choiceOr [(["nulls", "first"], true), (["nulls", "last"], false)] !isDescending

/-- Are only different rows or values wanted? -/
def isDistinct : List Token → Bool × List Token :=
  choiceOr [(["distinct"], true), (["all"], false)] false

end Phrase

end PageTree.Sql
