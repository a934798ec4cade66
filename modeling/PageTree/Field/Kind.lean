import PageTree.Date.Reading
import PageTree.Error
import PageTree.Number.Binary64
import PageTree.Sql.Test
import PageTree.Sql.Value

/-!
Kinds of fields, and how a kind turns an operator and a value into tests on the column that stores
the field. Texts that contain a phrase are ranked by how often it occurs.
-/

namespace PageTree

open Sql

inductive FieldKind where
  | text
  | textarea
  | integer
  | datetime
  | page
  deriving DecidableEq, Repr

/-- The tests of one value, all of which must hold, and the relevance they give. -/
structure Matching where
  tests : List Test
  scores : List Score
  deriving DecidableEq, Repr

def Matching.orders (matching : Matching) : List String :=
  matching.scores.map fun score => score.label ++ " DESC"

/-- A value as an integer: decimals lose their fraction, anything else counts as zero. -/
def toInteger (value : String) : Int :=
  let cs := Text.trim value.toList
  match Number.readInt64? cs with
  | some n => n
  | none => ((Number.Binary64.read? cs).map Number.Binary64.truncate).getD 0

namespace FieldKind

def all : List FieldKind :=
  [.text, .textarea, .integer, .datetime, .page]

def name : FieldKind → String
  | .text => "text"
  | .textarea => "textarea"
  | .integer => "integer"
  | .datetime => "datetime"
  | .page => "page"

def ofName? (name : String) : Option FieldKind :=
  all.find? fun kind => kind.name = name

theorem ofName?_name (kind : FieldKind) : ofName? kind.name = some kind := by
  cases kind <;> decide

def affinity : FieldKind → Affinity
  | .integer => .integer
  | .page => .integer
  | _ => .text

/-- The relation of a kind that does not test bits. -/
def ordering? (operator : Operator) : Option Relation :=
  if operator = .bitAnd then none else operator.relation?

def single (test : Test) : Matching :=
  { tests := [test], scores := [] }

def compareWith (target : Column) (relation : Option Relation) (right : Operand) :
    Option Matching :=
  relation.map fun relation => single (.compare target relation right)

def matchText (target : Column) (operator : Operator) (value : String) : Option Matching :=
  match operator with
  | .containsPhrase =>
    some
      { tests := [.contains target value]
        scores := if value = "" then [] else [{ subject := target, phrase := dropNulls value }] }
  | .containsWords =>
    some
      { tests := (Text.words value.toList).map fun word => .contains target (String.ofList word)
        scores := [] }
  | .like => some (single (.like target (dropNulls value) false))
  | .startsWith => some (single (.startsWith target value))
  | .endsWith => some (single (.endsWith target value))
  | _ => compareWith target (ordering? operator) (.ofText value)

/-- The tests of `target operator value`, or none when the kind lacks the operator. -/
def matching? (kind : FieldKind) (now : Date.Moment) (target : Column) (operator : Operator)
    (value : String) : Option Matching :=
  match kind with
  | .text => matchText target operator value
  | .textarea => matchText target operator value
  | .integer => compareWith target operator.relation? (.integer (toInteger value))
  | .page => compareWith target (ordering? operator) (.integer (toInteger value))
  | .datetime =>
    match Date.normalize? now value with
    | some date => compareWith target (ordering? operator) (.ofText date)
    | none => (ordering? operator).map fun _ => single .never

def matching (kind : FieldKind) (now : Date.Moment) (target : Column) (operator : Operator)
    (value : String) : Except Error Matching :=
  match kind.matching? now target operator value with
  | some result => .ok result
  | none => .error (.unsupportedOperator operator target.text)

end FieldKind

end PageTree
