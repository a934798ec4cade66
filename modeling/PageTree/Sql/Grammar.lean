import PageTree.Sql.Phrase

/-!
The grammar of a select statement. A statement ends with its text or at a semicolon; what follows
one is another statement.
-/

namespace PageTree.Sql

/-- Is the expression false on its face? -/
def Expression.isPlainlyFalse : Expression → Bool
  | .literal (.integer n) => n = 0
  | .oneOf _ [] => true
  | _ => false

/-- Two operands with an operator between them. A conjunction that is false on the face of one
operand says nothing of the other. -/
def Expression.ofOperands (operator : BinaryOperator) (left right : Expression) : Expression :=
  if operator = .and && (left.isPlainlyFalse || right.isPlainlyFalse) then .literal (.integer 0)
  else .binary operator left right

def Expression.negateIf (expression : Expression) (isNegated : Bool) : Expression :=
  if isNegated then .unary .not expression else expression

/-- Is the core a list of rows, which is neither sorted nor limited? -/
def Core.isValues : Core → Bool
  | .values _ => true
  | _ => false

namespace Grammar

open Phrase

mutual

/-- An expression of operators of at least this level. -/
def expression? : Nat → Nat → List Token → Option (Expression × List Token)
  | 0, _, _ => none
  | fuel + 1, level, tokens => do
    let (left, rest) ← operand? fuel tokens
    continue? fuel level left rest

/-- An expression that goes on after its first operand. -/
def continue? : Nat → Nat → Expression → List Token → Option (Expression × List Token)
  | 0, _, _, _ => none
  | fuel + 1, level, left, tokens =>
    match suffix? tokens with
    | none => some (left, tokens)
    | some ((found, suffix), rest) =>
      if found < level then some (left, tokens)
      else do
        let (whole, rest) ← suffixed? fuel found left suffix rest
        continue? fuel level whole rest

def suffixed? :
    Nat → Nat → Expression → Suffix → List Token → Option (Expression × List Token)
  | 0, _, _, _, _ => none
  | fuel + 1, level, left, suffix, tokens =>
    match suffix with
    | .binary operator =>
      (expression? fuel (level + 1) tokens).map fun r => (.ofOperands operator left r.1, r.2)
    | .isNot =>
      (expression? fuel (level + 1) tokens).map fun r =>
        (.unary .not (.binary .is left r.1), r.2)
    | .missing => some (.binary .is left (.literal .null), tokens)
    | .present => some (.unary .not (.binary .is left (.literal .null)), tokens)
    | .between isNegated => do
      let (low, rest) ← expression? fuel Level.equality tokens
      let rest ← afterWords? ["and"] rest
      let (high, rest) ← expression? fuel Level.comparison rest
      some ((Expression.between left low high).negateIf isNegated, rest)
    | .oneOf isNegated => do
      let (whole, rest) ← choices? fuel left tokens
      some (whole.negateIf isNegated, rest)
    | .like isNegated => do
      let (pattern, rest) ← expression? fuel Level.comparison tokens
      let (mark, rest) ← optional? ["escape"] (expression? fuel Level.comparison) rest
      some ((Expression.like left pattern mark).negateIf isNegated, rest)
    | .collate =>
      match tokens with
      | token :: rest => do
        let name ← token.label?
        let collation ← Collation.ofName? name
        some (.collate left collation, rest)
      | [] => none

/-- The choices for the operand before `IN`: a list, rows or a table. No operand is one of none. -/
def choices? : Nat → Expression → List Token → Option (Expression × List Token)
  | 0, _, _ => none
  | fuel + 1, operand, tokens =>
    match tokens with
    | .mark "(" :: .mark ")" :: rest => some (.oneOf (.literal .null) [], rest)
    | .mark "(" :: rest =>
      if startsSelect rest then
        (closed? (select? fuel) rest).map fun r => (.oneOfRows operand r.1, r.2)
      else
        (closed? (separated? (expression? fuel 0) fuel) rest).map fun r =>
          (.oneOf operand r.1, r.2)
    | _ =>
      (tableName? tokens).map fun r =>
        (.oneOfRows operand
          (.mk (.select false [.all] [.mk false (.table r.1) r.1 none] none [] none) [] [] none
            none), r.2)

def operand? : Nat → List Token → Option (Expression × List Token)
  | 0, _ => none
  | fuel + 1, tokens =>
    match tokens with
    | .text value :: rest => some (.literal (.text value), rest)
    | .digits run :: rest => some (.literal (.ofDigits run), rest)
    | .number value :: rest => some (.literal value, rest)
    | .mark "-" :: .digits run :: rest => some (.literal (.ofNegativeDigits run), rest)
    | .mark "-" :: rest => signed? fuel .minus rest
    | .mark "+" :: rest => signed? fuel .plus rest
    | .mark "~" :: rest => signed? fuel .complement rest
    | .mark "(" :: rest =>
      if startsSelect rest then
        (closed? (select? fuel) rest).map fun r => (.ofRow r.1, r.2)
      else
        closed? (expression? fuel 0) rest
    | .word text :: rest => word? fuel (foldName text) text rest
    | token :: rest => do
      let first ← token.identifier?
      named? fuel first rest
    | [] => none

def signed? : Nat → UnaryOperator → List Token → Option (Expression × List Token)
  | 0, _, _ => none
  | fuel + 1, operator, tokens =>
    (expression? fuel Level.sign tokens).map fun r => (.unary operator r.1, r.2)

/-- An operand that begins with a word. -/
def word? : Nat → String → String → List Token → Option (Expression × List Token)
  | 0, _, _, _ => none
  | fuel + 1, folded, text, tokens =>
    match folded with
    | "null" => some (.literal .null, tokens)
    | "not" =>
      (expression? fuel Level.negation tokens).map fun r => (.unary .not r.1, r.2)
    | "exists" => do
      let rest ← afterMark? "(" tokens
      (closed? (select? fuel) rest).map fun r => (.anyRow r.1, r.2)
    | "case" => do
      let (subject, rest) ←
        if startsWithWord "when" tokens then some (none, tokens)
        else (expression? fuel 0 tokens).map fun r => (some r.1, r.2)
      let (cases, rest) ← cases? fuel rest
      let (otherwise, rest) ← optional? ["else"] (expression? fuel 0) rest
      let rest ← afterWords? ["end"] rest
      some (.choice subject cases otherwise, rest)
    | "cast" => do
      let rest ← afterMark? "(" tokens
      let (operand, rest) ← expression? fuel 0 rest
      let rest ← afterWords? ["as"] rest
      let (words, rest) := typeName rest
      let target ← CastTarget.ofName? (String.join words)
      let rest ← skipTypeSize? rest
      let rest ← afterMark? ")" rest
      some (.cast operand target, rest)
    | _ =>
      if valueWords.contains folded then none
      else do
        let first ← (Token.word text).identifier?
        named? fuel first tokens

def cases? : Nat → List Token → Option (List (Expression × Expression) × List Token)
  | 0, _ => none
  | fuel + 1, tokens => do
    let rest ← afterWords? ["when"] tokens
    let (condition, rest) ← expression? fuel 0 rest
    let rest ← afterWords? ["then"] rest
    let (result, rest) ← expression? fuel 0 rest
    if startsWithWord "when" rest then do
      let (cases, rest) ← cases? fuel rest
      some ((condition, result) :: cases, rest)
    else
      some ([(condition, result)], rest)

def named? : Nat → Identifier → List Token → Option (Expression × List Token)
  | 0, _, _ => none
  | fuel + 1, first, tokens =>
    match tokens with
    | .mark "(" :: rest => do
      let (call, rest) ← call? fuel (foldName first.text) rest
      if startsWithWord "over" rest || (afterWords? ["filter"] rest).isSome then none
      else some (call, rest)
    | _ => (nameParts? first tokens).map fun r => (.name r.1, r.2)

def call? : Nat → String → List Token → Option (Expression × List Token)
  | 0, _, _ => none
  | fuel + 1, function, tokens =>
    match tokens with
    | .mark ")" :: rest => some (.call function false [], rest)
    | .mark "*" :: .mark ")" :: rest =>
      if function = "count" then some (.countRows, rest) else none
    | _ =>
      let (isDistinct, tokens) := isDistinct tokens
      (closed? (separated? (expression? fuel 0) fuel) tokens).map fun r =>
        (.call function isDistinct r.1, r.2)

def select? : Nat → List Token → Option (Select × List Token)
  | 0, _ => none
  | fuel + 1, tokens => do
    let (first, rest) ← core? fuel tokens
    let (others, rest) ← others? fuel rest
    if ((others.map Prod.snd).getLastD first).isValues then
      some (.mk first others [] none none, rest)
    else
    let (order, rest) ← optional? ["order", "by"] (separated? (sortKey? fuel) fuel) rest
    let (limit, rest) ← optional? ["limit"] (expression? fuel 0) rest
    match limit with
    | none => some (.mk first others (order.getD []) none none, rest)
    | some limit =>
      match afterMark? "," rest with
      | some rest =>
        (expression? fuel 0 rest).map fun r =>
          (.mk first others (order.getD []) (some r.1) (some limit), r.2)
      | none => do
        let (offset, rest) ← optional? ["offset"] (expression? fuel 0) rest
        some (.mk first others (order.getD []) (some limit) offset, rest)

def others? : Nat → List Token → Option (List (SetOperator × Core) × List Token)
  | 0, _ => none
  | fuel + 1, tokens =>
    match setOperator? tokens with
    | none => some ([], tokens)
    | some (operator, rest) => do
      let (core, rest) ← core? fuel rest
      let (others, rest) ← others? fuel rest
      some ((operator, core) :: others, rest)

def core? : Nat → List Token → Option (Core × List Token)
  | 0, _ => none
  | fuel + 1, tokens =>
    match afterWords? ["values"] tokens with
    | some rest => (separated? (row? fuel) fuel rest).map fun r => (.values r.1, r.2)
    | none => do
      let rest ← afterWords? ["select"] tokens
      let (isDistinct, rest) := isDistinct rest
      let (columns, rest) ← separated? (listed? fuel) fuel rest
      let (joins, rest) ← optional? ["from"] (joins? fuel) rest
      let (condition, rest) ← optional? ["where"] (expression? fuel 0) rest
      let (groups, rest) ← optional? ["group", "by"] (separated? (expression? fuel 0) fuel) rest
      let (having, rest) ← optional? ["having"] (expression? fuel 0) rest
      some (.select isDistinct columns (joins.getD []) condition (groups.getD []) having, rest)

def row? : Nat → List Token → Option (List Expression × List Token)
  | 0, _ => none
  | fuel + 1, tokens => do
    let rest ← afterMark? "(" tokens
    closed? (separated? (expression? fuel 0) fuel) rest

def listed? : Nat → List Token → Option (Listed × List Token)
  | 0, _ => none
  | fuel + 1, tokens =>
    match tokens with
    | .mark "*" :: rest => some (.all, rest)
    | token :: .mark "." :: .mark "*" :: rest =>
      token.label?.map fun table => (.allOf table, rest)
    | _ => do
      let (expression, rest) ← expression? fuel 0 tokens
      let (label, rest) ← label? rest
      some (.expression expression label, rest)

def joins? : Nat → List Token → Option (List Joined × List Token)
  | 0, _ => none
  | fuel + 1, tokens => do
    let (origin, name, rest) ← origin? fuel tokens
    let (others, rest) ← moreJoins? fuel rest
    some (.mk false origin name none :: others, rest)

def moreJoins? : Nat → List Token → Option (List Joined × List Token)
  | 0, _ => none
  | fuel + 1, tokens =>
    match isLeftJoin? tokens with
    | none => some ([], tokens)
    | some (isLeft, rest) => do
      let (origin, name, rest) ← origin? fuel rest
      let (on, rest) ← optional? ["on"] (expression? fuel 0) rest
      let (others, rest) ← moreJoins? fuel rest
      some (.mk isLeft origin name on :: others, rest)

def origin? : Nat → List Token → Option (Origin × String × List Token)
  | 0, _ => none
  | fuel + 1, tokens =>
    match tokens with
    | .mark "(" :: rest => do
      let (select, rest) ← closed? (select? fuel) rest
      let (label, rest) ← label? rest
      some (.select select, label.getD "", rest)
    | _ => do
      let (name, rest) ← tableName? tokens
      let (label, rest) ← label? rest
      some (.table name, label.getD name, rest)

def sortKey? : Nat → List Token → Option (SortKey × List Token)
  | 0, _ => none
  | fuel + 1, tokens => do
    let (expression, rest) ← expression? fuel 0 tokens
    let (isDescending, rest) := isDescending rest
    let (missingFirst, rest) := missingFirst isDescending rest
    some (.mk expression isDescending missingFirst, rest)

end

end Grammar

def Select.read? (statement : String) : Option Select := do
  let tokens := tokens statement
  let (select, rest) ← Grammar.select? (8 * tokens.length + 8) tokens
  match rest with
  | [] => some select
  | .mark ";" :: _ => some select
  | _ => none

end PageTree.Sql
