import PageTree.Query.Basic

/-!
Limits of the database engine on a statement: the number of joined tables, of columns and of sort
keys, the depth of its conditions, and the length of a pattern.
-/

namespace PageTree

open Sql

namespace Sql

/-- The depth of a test as an expression: an operator over two qualified columns. -/
def Test.depth : Test → Nat
  | .never => 2
  | _ => 3

namespace Condition

universe u

variable {α : Type u}

/-- The depth of operands joined one after the other, each with all before it. -/
def chainDepth : List Nat → Nat
  | [] => 2
  | depth :: depths => depths.foldl (fun total depth => max total depth + 1) depth

mutual

/-- The depth of a condition as an expression, given the depth of its tests. -/
def depth (ofTest : α → Nat) : Condition α → Nat
  | .test a => ofTest a
  | .fragment a => ofTest a
  | .never => 2
  | .all cs => chainDepth (depthEach ofTest cs)
  | .any cs => chainDepth (depthEach ofTest cs)
  | .not c => depth ofTest c + 1

def depthEach (ofTest : α → Nat) : List (Condition α) → List Nat
  | [] => []
  | c :: cs => depth ofTest c :: depthEach ofTest cs

end

end Condition

def patternLimit : Nat :=
  50000

/-- Is the test a match with a pattern beyond the limit? -/
def Test.isTooLong : Test → Bool
  | .like _ pattern _ => patternLimit < pattern.utf8ByteSize
  | _ => false

end Sql

namespace Query

/-- The greatest number of tables that can be joined, the page table among them. -/
def tableLimit : Nat :=
  64

/-- The greatest number of selected columns, and of sort keys. -/
def columnLimit : Nat :=
  2000

def depthLimit : Nat :=
  1000

/-- The depths of the filter on rows, if there is one, and of the conditions of all joins. -/
def conditionDepths (query : Query) : List Nat :=
  (if query.conjuncts.isEmpty then []
    else
      [Condition.chainDepth (query.conjuncts.map fun conjunct => conjunct.filter.depth Test.depth)])
    ++ query.orderedJoins.map fun join => join.on.depth Test.depth

def hasLongPattern (query : Query) : Bool :=
  (query.joins.flatMap fun join => join.on.tests).any Test.isTooLong
    || ((query.conjuncts.map Conjunct.filter).flatMap Condition.tests).any Test.isTooLong

/-- Does the engine take the statement, as far as its size goes? All conditions become one. -/
def isWithinLimits (query : Query) : Bool :=
  query.joins.length < tableLimit && query.columnNames.length ≤ columnLimit
    && query.orders.length ≤ columnLimit
    && Condition.chainDepth query.conditionDepths ≤ depthLimit

end Query

end PageTree
