import PageTree.Selector.Term

/-!
What can go wrong while a selector is read, compiled or run, or while a page tree is written.
-/

namespace PageTree

inductive DatabaseFault where
  /-- Two pages of one parent would have one name. -/
  | duplicatePage
  | invalidCreated (page value : String)
  | invalidDate (field value : String)
  /-- The statement names what does not exist or breaks a limit of the engine. -/
  | rejectedStatement
  | reported (text : String)
  deriving DecidableEq, Repr

inductive Error where
  /-- The name is neither a page column nor in the schema. -/
  | unknownField (name : String)
  | unsupportedOperator (operator : Operator) (field : String)
  | invalidTerm (term : String) (fault : TermFault)
  | unknownKind (kind field : String)
  | database (fault : DatabaseFault)
  deriving DecidableEq, Repr

def TermFault.message : TermFault → String
  | .missingField => "missing field name"
  | .missingOperator => "missing operator"
  | .unknownOperator run => "unknown operator '" ++ run ++ "'"
  | .emptyField => "empty field name"

def DatabaseFault.message : DatabaseFault → String
  | .duplicatePage => "UNIQUE constraint failed: pages.parent_id, pages.name"
  | .invalidCreated page value => "Invalid created date for '" ++ page ++ "': " ++ value
  | .invalidDate field value => "Invalid date for field '" ++ field ++ "': " ++ value
  | .rejectedStatement => "statement rejected"
  | .reported text => text

def Error.message : Error → String
  | .unknownField name => "Field does not exist: " ++ name
  | .unsupportedOperator operator field =>
    "Operator '" ++ operator.token ++ "' is not supported for field '" ++ field ++ "'"
  | .invalidTerm term fault => "Invalid selector '" ++ term ++ "': " ++ fault.message
  | .unknownKind kind field => "Unknown fieldtype '" ++ kind ++ "' for field '" ++ field ++ "'"
  | .database fault => "Database error: " ++ fault.message

namespace Selector

/-- Reads every term; the first text that is none is the error. -/
def read (s : String) : Except Error Selector :=
  (pieces s.toList).mapM fun piece =>
    match Term.read piece with
    | .ok term => .ok term
    | .error fault => .error (.invalidTerm (String.ofList piece) fault)

end Selector

end PageTree
