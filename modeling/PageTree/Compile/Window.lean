import PageTree.Compile.Catalog

/-!
The window of a selector, from its `limit` and `start` terms wherever they stand. The last term of
each counts.
-/

namespace PageTree.Selector

def lastValue? (selector : Selector) (field : String) : Option String :=
  ((selector.filter fun term => term.field = field).map Term.value).getLast?

/-- The number of rows before a page of `count` rows, when it is in range. -/
def pageOffset? (pageNumber count : Int) : Option Int :=
  Number.checkInt64 ((max pageNumber 1 - 1) * count)

/-- The window, when there is a positive limit. Without a start the page number decides it. -/
def window? (selector : Selector) (pageNumber : Option Int) : Option Window :=
  match (selector.lastValue? "limit").map toInteger with
  | none => none
  | some count =>
    if 0 < count then
      let skip := match selector.lastValue? "start" with
        | some value => some (max (toInteger value) 0)
        | none => pageNumber.bind fun page => pageOffset? page count
      some { skip, count }
    else
      none

end PageTree.Selector
