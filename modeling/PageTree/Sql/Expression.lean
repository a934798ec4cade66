import PageTree.Sql.Value

/-!
Expressions of a statement and the selects around them. A select joins tables, keeps the rows that
satisfy its condition, gathers them in groups and lists columns; compound selects put the rows of
several together.
-/

namespace PageTree.Sql

structure Identifier where
  text : String
  /-- Is it a text where nothing has the name? -/
  isLoose : Bool
  deriving DecidableEq, Repr

/-- How texts are compared: by their characters, without regard to the case of plain letters, or
without the spaces at their ends. -/
inductive Collation where
  | binary
  | noCase
  | trimmed
  deriving DecidableEq, Repr

inductive CastTarget where
  | text
  | integer
  | real
  | numeric
  deriving DecidableEq, Repr

inductive UnaryOperator where
  | not
  | minus
  | plus
  | complement
  deriving DecidableEq, Repr

inductive BinaryOperator where
  | or
  | and
  | compare (relation : Relation)
  /-- Equality that also compares missing values. -/
  | is
  | bitAnd
  | bitOr
  | shiftLeft
  | shiftRight
  | plus
  | minus
  | times
  | over
  | modulo
  | concat
  deriving DecidableEq, Repr

/-- How the rows of two selects are put together. -/
inductive SetOperator where
  | unionAll
  | union
  | intersect
  | except
  deriving DecidableEq, Repr

mutual

inductive Expression where
  | literal (value : Value)
  /-- A column, after the name of its table and of the database where they are given. -/
  | name (parts : List Identifier)
  /-- A column of the joined tables, by its place. -/
  | field (index : Nat)
  | unary (operator : UnaryOperator) (operand : Expression)
  | binary (operator : BinaryOperator) (left right : Expression)
  | collate (operand : Expression) (collation : Collation)
  | cast (operand : Expression) (target : CastTarget)
  | between (operand low high : Expression)
  | oneOf (operand : Expression) (choices : List Expression)
  | oneOfRows (operand : Expression) (select : Select)
  | like (operand pattern : Expression) (mark : Option Expression)
  | choice (subject : Option Expression) (cases : List (Expression × Expression))
      (otherwise : Option Expression)
  | call (function : String) (isDistinct : Bool) (arguments : List Expression)
  | countRows
  | ofRow (select : Select)
  | anyRow (select : Select)

inductive Listed where
  | all
  | allOf (table : String)
  | expression (expression : Expression) (label : Option String)

/-- Where the rows of a joined table come from. -/
inductive Origin where
  | table (name : String)
  | select (select : Select)

/-- A table under its name, and the condition under which its rows are joined. -/
inductive Joined where
  | mk (isLeft : Bool) (origin : Origin) (name : String) (on : Option Expression)

inductive Core where
  | select (isDistinct : Bool) (columns : List Listed) (joins : List Joined)
      (condition : Option Expression) (groups : List Expression) (having : Option Expression)
  | values (rows : List (List Expression))

inductive SortKey where
  | mk (expression : Expression) (isDescending missingFirst : Bool)

inductive Select where
  | mk (first : Core) (others : List (SetOperator × Core)) (order : List SortKey)
      (limit offset : Option Expression)

end

namespace Expression

def collation? : Expression → Option Collation
  | .collate _ collation => some collation
  | _ => none

def withoutCollation : Expression → Expression
  | .collate operand _ => operand
  | expression => expression

def operands : Expression → List Expression
  | .unary _ operand => [operand]
  | .binary _ left right => [left, right]
  | .collate operand _ => [operand]
  | .cast operand _ => [operand]
  | .between operand low high => [operand, low, high]
  | .oneOf operand choices => operand :: choices
  | .oneOfRows operand _ => [operand]
  | .like operand pattern mark => operand :: pattern :: mark.toList
  | .choice subject cases otherwise =>
    subject.toList ++ (cases.flatMap fun entry => [entry.1, entry.2]) ++ otherwise.toList
  | .call _ _ arguments => arguments
  | _ => []

end Expression

end PageTree.Sql
