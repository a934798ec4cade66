import PageTree.Yaml.Token

/-!
Nodes of a document. Collections are written by indentation or between brackets; scalars keep their
text and whether it is plain, so that a reader of a record decides whether it wants the text or the
value.
-/

namespace PageTree.Yaml

inductive Node where
  | scalar (text : String) (plain : Bool)
  | sequence (items : List Node)
  | mapping (entries : List (Node × Node))
  deriving Repr, Inhabited

namespace Node

def empty : Node :=
  .scalar "" true

mutual

def depth : Node → Nat
  | .scalar .. => 0
  | .sequence items => depthOfItems items + 1
  | .mapping entries => depthOfEntries entries + 1

def depthOfItems : List Node → Nat
  | [] => 0
  | item :: items => max (depth item) (depthOfItems items)

def depthOfEntries : List (Node × Node) → Nat
  | [] => 0
  | (key, value) :: entries => max (max (depth key) (depth value)) (depthOfEntries entries)

end

def isFlowGap : List Token → Bool
  | .comma :: _ => true
  | .closeBracket :: _ => true
  | .closeBrace :: _ => true
  | _ => false

/-- Is no key or value of an entry written before these tokens? -/
def isEntryGap : List Token → Bool
  | .key :: _ => true
  | .value :: _ => true
  | .blockEnd :: _ => true
  | _ => false

def isItemGap : List Token → Bool
  | .dash :: _ => true
  | .blockEnd :: _ => true
  | _ => false

inductive Position where
  | inFlow
  | item
  /-- Items may stand at the column of the entries around them. -/
  | entry
  deriving DecidableEq, Repr

def afterComma? (isFirst : Bool) (tokens : List Token) : Option (List Token) :=
  if isFirst then
    some tokens
  else
    match tokens with
    | .comma :: rest => some rest
    | _ => none

mutual

/-- The node that tokens begin with, and the tokens after it. -/
def ofTokens? : Nat → Position → List Token → Option (Node × List Token)
  | 0, _, _ => none
  | fuel + 1, position, tokens =>
    match tokens with
    | .scalar text plain :: rest => some (.scalar text plain, rest)
    | .openBracket :: rest => (flowItems? fuel true rest).map fun r => (.sequence r.1, r.2)
    | .openBrace :: rest => (flowEntries? fuel true rest).map fun r => (.mapping r.1, r.2)
    | .itemsStart :: rest =>
      if position = .inFlow then none
      else (blockItems? fuel rest).map fun r => (.sequence r.1, r.2)
    | .entriesStart :: rest =>
      if position = .inFlow then none
      else (blockEntries? fuel rest).map fun r => (.mapping r.1, r.2)
    | .dash :: _ =>
      if position = .entry then
        (plainItems? fuel tokens).map fun r => (.sequence r.1, r.2)
      else
        none
    | _ => none

def blockItems? : Nat → List Token → Option (List Node × List Token)
  | 0, _ => none
  | fuel + 1, tokens =>
    match tokens with
    | .blockEnd :: rest => some ([], rest)
    | .dash :: rest => do
      let (item, rest) ← nodeUnless? fuel .item (isItemGap rest) rest
      let (items, rest) ← blockItems? fuel rest
      some (item :: items, rest)
    | _ => none

/-- Items at the column of the entries around them. -/
def plainItems? : Nat → List Token → Option (List Node × List Token)
  | 0, _ => none
  | fuel + 1, tokens =>
    match tokens with
    | .dash :: rest => do
      let (item, rest) ← nodeUnless? fuel .item (isItemGap rest || isEntryGap rest) rest
      let (items, rest) ← plainItems? fuel rest
      some (item :: items, rest)
    | _ => some ([], tokens)

/-- Entries up to the end of their indentation. A key without a colon has no value. -/
def blockEntries? : Nat → List Token → Option (List (Node × Node) × List Token)
  | 0, _ => none
  | fuel + 1, tokens =>
    match tokens with
    | .blockEnd :: rest => some ([], rest)
    | .key :: rest => do
      let (key, rest) ← nodeUnless? fuel .entry (isEntryGap rest) rest
      let (value, rest) ←
        match rest with
        | .value :: rest => nodeUnless? fuel .entry (isEntryGap rest) rest
        | _ => some (Node.empty, rest)
      let (entries, rest) ← blockEntries? fuel rest
      some ((key, value) :: entries, rest)
    | _ => none

/-- Items up to a closing bracket. An item with a colon is a mapping of one entry; an item that is
a question mark alone takes the token after it along. -/
def flowItems? : Nat → Bool → List Token → Option (List Node × List Token)
  | 0, _, _ => none
  | fuel + 1, isFirst, tokens =>
    match tokens with
    | .closeBracket :: rest => some ([], rest)
    | _ => do
      let tokens ← afterComma? isFirst tokens
      match tokens with
      | .closeBracket :: rest => some ([], rest)
      | .key :: rest => do
        let (key, rest) ←
          match rest with
          | .value :: rest => some (Node.empty, rest)
          | .comma :: rest => some (Node.empty, rest)
          | .closeBracket :: rest => some (Node.empty, rest)
          | _ => ofTokens? fuel .inFlow rest
        let (value, rest) ← flowValue? fuel rest
        let (items, rest) ← flowItems? fuel false rest
        some (.mapping [(key, value)] :: items, rest)
      | _ => do
        let (item, rest) ← ofTokens? fuel .inFlow tokens
        let (items, rest) ← flowItems? fuel false rest
        some (item :: items, rest)

/-- Entries up to a closing brace. A key without a colon has no value. -/
def flowEntries? : Nat → Bool → List Token → Option (List (Node × Node) × List Token)
  | 0, _, _ => none
  | fuel + 1, isFirst, tokens =>
    match tokens with
    | .closeBrace :: rest => some ([], rest)
    | _ => do
      let tokens ← afterComma? isFirst tokens
      match tokens with
      | .closeBrace :: rest => some ([], rest)
      | .key :: rest => do
        let (key, rest) ←
          match rest with
          | .value :: _ => some (Node.empty, rest)
          | _ => nodeUnless? fuel .inFlow (isFlowGap rest) rest
        let (value, rest) ← flowValue? fuel rest
        let (entries, rest) ← flowEntries? fuel false rest
        some ((key, value) :: entries, rest)
      | _ => do
        let (key, rest) ← ofTokens? fuel .inFlow tokens
        let (entries, rest) ← flowEntries? fuel false rest
        some ((key, .empty) :: entries, rest)

def flowValue? : Nat → List Token → Option (Node × List Token)
  | 0, _ => none
  | fuel + 1, tokens =>
    match tokens with
    | .value :: rest => nodeUnless? fuel .inFlow (isFlowGap rest) rest
    | _ => some (.empty, tokens)

/-- A node, or nothing where there is a gap. -/
def nodeUnless? : Nat → Position → Bool → List Token → Option (Node × List Token)
  | 0, _, _, _ => none
  | fuel + 1, position, isGap, tokens =>
    if isGap then some (.empty, tokens) else ofTokens? fuel position tokens

end

/-- The node of a document and the tokens after it. No document is ended before it begins. -/
def document? (fuel : Nat) : List Token → Option (Node × List Token)
  | [] => some (.empty, [])
  | .documentStart :: rest =>
    match rest with
    | [] => some (.empty, [])
    | .documentStart :: _ => some (.empty, rest)
    | .documentEnd :: _ => some (.empty, rest)
    | _ => ofTokens? fuel .item rest
  | tokens => ofTokens? fuel .item tokens

/-- The one document of a text; nothing at all is an empty text. -/
def read? (s : String) : Option Node := do
  let tokens ← tokens? s
  let (node, rest) ← document? (3 * tokens.length + 3) tokens
  if rest.all fun token => token = .documentEnd then some node else none

end Node

end PageTree.Yaml
