/-!
Operators between the field and the value of a term, and the relations among them that a database
evaluates between a column and a literal.
-/

namespace PageTree

inductive Relation where
  | equal
  | notEqual
  | less
  | greater
  | lessEqual
  | greaterEqual
  | bitAnd
  deriving DecidableEq, Repr

def Relation.text : Relation → String
  | .equal => "="
  | .notEqual => "!="
  | .less => "<"
  | .greater => ">"
  | .lessEqual => "<="
  | .greaterEqual => ">="
  | .bitAnd => "&"

inductive Operator where
  | equal
  | notEqual
  | less
  | greater
  | lessEqual
  | greaterEqual
  | containsPhrase
  | containsWords
  | like
  | startsWith
  | endsWith
  | bitAnd
  deriving DecidableEq, Repr

namespace Operator

def all : List Operator :=
  [.equal, .notEqual, .less, .greater, .lessEqual, .greaterEqual, .containsPhrase, .containsWords,
    .like, .startsWith, .endsWith, .bitAnd]

/-- The canonical spelling in a selector. -/
def token : Operator → String
  | .equal => "="
  | .notEqual => "!="
  | .less => "<"
  | .greater => ">"
  | .lessEqual => "<="
  | .greaterEqual => ">="
  | .containsPhrase => "*="
  | .containsWords => "~="
  | .like => "%="
  | .startsWith => "^="
  | .endsWith => "$="
  | .bitAnd => "&"

/-- The operator with a spelling; inequality has a second one. -/
def ofToken? (s : String) : Option Operator :=
  if s = "<>" then some .notEqual else all.find? fun operator => operator.token = s

/-- The database relation of an operator that has one. -/
def relation? : Operator → Option Relation
  | .equal => some .equal
  | .notEqual => some .notEqual
  | .less => some .less
  | .greater => some .greater
  | .lessEqual => some .lessEqual
  | .greaterEqual => some .greaterEqual
  | .bitAnd => some .bitAnd
  | _ => none

/-- For these an empty value asks whether a page has the field at all. -/
def isEquality : Operator → Bool
  | .equal => true
  | .notEqual => true
  | _ => false

theorem mem_all (operator : Operator) : operator ∈ all := by
  cases operator <;> decide

theorem ofToken?_token (operator : Operator) : ofToken? operator.token = some operator := by
  cases operator <;> decide

theorem relation?_token {operator : Operator} {relation : Relation}
    (h : operator.relation? = some relation) : relation.text = operator.token := by
  cases operator <;> simp_all [relation?] <;> subst h <;> rfl

end Operator

end PageTree
