import PageTree.Field.Kind

/-!
Status bits of pages, and the terms that a find adds so that unpublished and hidden pages stay out
of sight unless the selector asks for them.
-/

namespace PageTree

namespace Status

def on : Int := 1
def locked : Int := 4
def system : Int := 16
def hidden : Int := 1024
def unpublished : Int := 2048
def trash : Int := 8192

/-- The bit of a label; an unknown label means an ordinary page. -/
def ofLabel (label : String) : Int :=
  match label with
  | "hidden" => hidden
  | "unpublished" => unpublished
  | "locked" => locked
  | "system" => system
  | "trash" => trash
  | _ => on

/-- The status of a page with the labels of a text. -/
def ofLabels (labels : String) : Int :=
  (Text.words labels.toList).foldl
    (fun status word => Number.bitOr status (ofLabel (String.ofList word)))
    on

end Status

namespace Term

def isStatus (term : Term) : Bool :=
  term.fields = ["status"]

def statusDigits (value : String) : String :=
  if Sql.isDigits value then value else toString (Status.ofLabel value)

/-- A status value as a number; one out of range counts as an ordinary page. -/
def statusNumber (value : String) : Int :=
  (Number.readInt64? (statusDigits value).toList).getD Status.on

/-- The term with labels replaced by their bits. Equality with a label tests the bit. -/
def resolveStatus (term : Term) : Term :=
  if term.isStatus then
    let labelled := term.values.any fun value => !Sql.isDigits value
    { term with
      values := term.values.map statusDigits
      operator := if labelled && term.operator = .equal then .bitAnd else term.operator }
  else
    term

end Term

namespace Selector

/-- Every status number that the terms on the status alone mention. -/
def statusNumbers (selector : Selector) : List Int :=
  (selector.filter Term.isStatus).flatMap fun term => term.values.map Term.statusNumber

/-- The bound that the added term puts on the status. Without a term on the status a lookup of one
page still sees hidden pages. -/
def statusBound? (selector : Selector) (single : Bool) : Option Int :=
  match (selector.statusNumbers).max? with
  | some greatest => if greatest < Status.unpublished then some Status.unpublished else none
  | none => some (if single then Status.unpublished else Status.hidden)

/-- The selector with labels resolved and the bound on the status added. -/
def withStatusBound (selector : Selector) (single : Bool) : Selector :=
  selector.map Term.resolveStatus
    ++ (selector.statusBound? single).toList.map fun bound =>
      Term.single "status" .less (toString bound)

/-- The selector with the window of a lookup of one page. -/
def withSingleWindow (selector : Selector) : Selector :=
  selector ++ [Term.single "start" .equal "0", Term.single "limit" .equal "1"]

end Selector

end PageTree
