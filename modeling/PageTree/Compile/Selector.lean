import PageTree.Compile.Attached
import PageTree.Compile.Path
import PageTree.Compile.Sort
import PageTree.Compile.Window

/-!
Compilation of a selector into one query over the page table. The first field name of a term
decides what the term means; terms are compiled in order, and the first that fails is the error.
-/

namespace PageTree

open Sql

inductive TermKind where
  | sort
  | window
  | path
  | ancestors
  | native
  | attached
  deriving DecidableEq, Repr

def Term.kind (term : Term) : TermKind :=
  match term.field with
  | "sort" => .sort
  | "limit" => .window
  | "start" => .window
  | "path" => .path
  | "url" => .path
  | "has_parent" => .ancestors
  | field => if isNativeName field then .native else .attached

structure Part where
  /-- The tables whose next alias the term has used. -/
  used : List String
  joins : List Join
  conjuncts : List Conjunct
  members : List (String × Member)
  scores : List Score
  deriving Repr

namespace Part

def nothing : Part :=
  { used := [], joins := [], conjuncts := [], members := [], scores := [] }

def ofContributions (text : String) (contributions : List Member.Contribution) : Part :=
  { nothing with
    used := contributions.map Member.Contribution.table
    members := (contributions.filterMap Member.Contribution.member).map fun member => (text, member)
    scores := contributions.flatMap Member.Contribution.scores }

/-- The part of one term, after the uses of the tables in `used`. -/
def ofTerm (catalog : Catalog) (used : List String) (term : Term) : Except Error Part :=
  match term.kind with
  | .sort => .ok nothing
  | .window => .ok nothing
  | .path =>
    .ok { nothing with joins := Path.joins term.value, conjuncts := Path.conjuncts term.value }
  | .ancestors => do
    let ids ← term.values.mapM (Term.ancestorId catalog)
    .ok
      { nothing with
        used := ["pages_parents"]
        joins := [Term.ancestorJoin (nextAlias used "pages_parents") ids] }
  | .native => do
    let filter ← Term.nativeFilter catalog term
    .ok { nothing with conjuncts := [.enclosed filter] }
  | .attached => do
    let contributions ← Member.contributions catalog term used term.fields
    .ok (ofContributions term.text contributions)

/-- The parts of all terms, each after those before it. -/
def ofTerms (catalog : Catalog) : List String → Selector → Except Error (List Part)
  | _, [] => .ok []
  | used, term :: terms => do
    let first ← ofTerm catalog used term
    let rest ← ofTerms catalog (used ++ first.used) terms
    .ok (first :: rest)

end Part

namespace Selector

/-- Puts the parts of a query together. Keys of sort terms precede the order by relevance, and the
last of them is the first to decide. -/
def assemble (catalog : Catalog) (selector : Selector) (parts : List Part) : Query :=
  let groups := MemberGroup.ofRuns (parts.flatMap Part.members)
  let keys := selector.sortKeys catalog.schema
  let scores := parts.flatMap Part.scores
  { joins :=
      Join.merge
        (parts.flatMap Part.joins ++ keys.flatMap Prod.snd ++ groups.flatMap MemberGroup.joins)
    conjuncts := parts.flatMap Part.conjuncts ++ MemberGroup.conjuncts groups
    scores
    orders := (keys.map Prod.fst).reverse ++ scores.map Order.ofScore
    window := selector.window? catalog.pageNumber
    comment := "" }

def compile (catalog : Catalog) (selector : Selector) : Except Error Query :=
  (Part.ofTerms catalog [] selector).map (selector.assemble catalog)

end Selector

end PageTree
