import PageTree.Selector.Operator
import PageTree.Text.Alphanumeric
import PageTree.Text.Quotes

/-!
Terms of a selector: one or more field names, an operator, one or more values, and a mark that
negates the term. A selector is a list of terms, written with commas between them.
-/

namespace PageTree

open Text

structure Term where
  fields : List String
  values : List String
  operator : Operator
  negated : Bool
  /-- The term as written. Neighbouring terms with one text are alternatives. -/
  text : String
  deriving DecidableEq, Repr

abbrev Selector := List Term

inductive TermFault where
  | missingField
  | missingOperator
  | unknownOperator (run : String)
  | emptyField
  deriving DecidableEq, Repr

namespace Term

/-- A term of one field and one value that is not written by a user. -/
def single (field : String) (operator : Operator) (value : String) : Term :=
  { fields := [field], values := [value], operator, negated := false,
    text := field ++ operator.token ++ value }

def field (term : Term) : String :=
  term.fields.headD ""

def value (term : Term) : String :=
  term.values.headD ""

@[simp] theorem field_single (field : String) (operator : Operator) (value : String) :
    (single field operator value).field = field := rfl

@[simp] theorem value_single (field : String) (operator : Operator) (value : String) :
    (single field operator value).value = value := rfl

/-- Characters of field names and of the bars between them. -/
def isFieldChar (c : Char) : Bool :=
  isAlphanumeric c || c = '_' || c = '.' || c = '|'

def operatorChars : List Char :=
  ['=', '<', '>', '!', '*', '~', '%', '^', '$', '&']

def isOperatorChar (c : Char) : Bool :=
  operatorChars.contains c

/-- The prefix of a run up to and with its first equals sign, and what follows. -/
def splitAfterEquals? (run : List Char) : Option (List Char × List Char) :=
  (splitFirst? '=' run).map fun parts => (parts.1 ++ ['='], parts.2)

/-- The operator at the start of a run of operator characters, and its length. What follows the
first equals sign belongs to the value unless it begins another comparison. -/
def operatorOfRun? (run : List Char) : Option (Operator × Nat) :=
  match Operator.ofToken? (String.ofList run) with
  | some operator => some (operator, run.length)
  | none =>
    match splitAfterEquals? run with
    | none => none
    | some (start, rest) =>
      if rest.head?.any fun c => c = '=' || c = '<' || c = '>' then
        none
      else
        (Operator.ofToken? (String.ofList start)).map fun operator => (operator, start.length)

/-- The values of the text after the operator: its pieces at unquoted bars. -/
def readValues (cs : List Char) : List String :=
  (splitUnquoted '|' (trim cs)).map fun piece => String.ofList (unquote (trim piece))

def readMark (cs : List Char) : Bool × List Char :=
  match cs with
  | '!' :: rest => (true, trimStart rest)
  | rest => (false, rest)

/-- Reads one term from a text without blanks at its ends. -/
def read (cs : List Char) : Except TermFault Term :=
  let marked := readMark cs
  let names := marked.2.takeWhile isFieldChar
  let afterNames := trimStart (marked.2.dropWhile isFieldChar)
  let run := afterNames.takeWhile isOperatorChar
  if names.isEmpty then
    .error .missingField
  else if run.isEmpty then
    .error .missingOperator
  else
    match operatorOfRun? run with
    | none => .error (.unknownOperator (String.ofList run))
    | some (operator, length) =>
      let fields := splitAt '|' names
      if fields.any List.isEmpty then
        .error .emptyField
      else
        .ok
          { fields := fields.map String.ofList
            values := readValues (afterNames.drop length)
            operator
            negated := marked.1
            text := String.ofList cs }

end Term

namespace Selector

/-- The texts of the terms of a selector; empty ones are no terms. -/
def pieces (cs : List Char) : List (List Char) :=
  ((splitUnquoted ',' cs).map trim).filter fun piece => !piece.isEmpty

/-- The terms as written, with a comma and a blank between them. -/
def text (selector : Selector) : String :=
  ", ".intercalate (selector.map Term.text)

end Selector

end PageTree
