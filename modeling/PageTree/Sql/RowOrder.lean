import PageTree.Sql.Arithmetic

/-!
Rows in order: sorted by keys, put together from several selects, limited to a window, and one row
that stands for a group.
-/

namespace PageTree.Sql

structure KeyOrder where
  collation : Collation
  isDescending : Bool
  missingFirst : Bool

namespace KeyOrder

/-- By their order, missing values first. -/
def plain (collation : Collation) : KeyOrder :=
  { collation, isDescending := false, missingFirst := true }

def compare (order : KeyOrder) (left right : Value) : Ordering :=
  match left.isMissing, right.isMissing with
  | true, true => .eq
  | true, false => if order.missingFirst then .lt else .gt
  | false, true => if order.missingFirst then .gt else .lt
  | false, false =>
    let ordering := (left.collated order.collation).order (right.collated order.collation)
    if order.isDescending then ordering.swap else ordering

def compareKeys : List KeyOrder → List Value → List Value → Ordering
  | order :: orders, left :: lefts, right :: rights =>
    (order.compare left right).then (compareKeys orders lefts rights)
  | _, _, _ => .eq

/-- Items in the order of their keys; those with equal keys stay as they are. -/
def sorted {α : Type} (orders : List KeyOrder) (key : α → List Value) (items : List α) : List α :=
  items.mergeSort fun a b => compareKeys orders (key a) (key b) ≠ .gt

end KeyOrder

def compareRows : List Value → List Value → Ordering
  | left :: lefts, right :: rights => (left.order right).then (compareRows lefts rights)
  | _, _ => .eq

def isRowOf (rows : List (List Value)) (row : List Value) : Bool :=
  rows.any fun other => compareRows other row = .eq

/-- The items whose rows are like no row before them. -/
def distinctBy {α : Type} (row : α → List Value) (items : List α) : List α :=
  (items.foldl (fun (kept : List α) item =>
    if kept.any fun other => compareRows (row other) (row item) = .eq then kept
    else item :: kept) []).reverse

/-- The rows of two selects put together; unless all of both are kept, they come in order, and of
rows that are alike the last is left. -/
def SetOperator.combine (operator : SetOperator) (left right : List (List Value)) :
    List (List Value) :=
  let ordered (rows : List (List Value)) : List (List Value) :=
    (distinctBy id rows.reverse).mergeSort fun a b => compareRows a b ≠ .gt
  match operator with
  | .unionAll => left ++ right
  | .union => ordered (left ++ right)
  | .intersect => ordered (left.filter (isRowOf right))
  | .except => ordered (left.filter fun row => !isRowOf right row)

/-- The rows that a limit and an offset leave; a negative limit is none. -/
def limited {α : Type} (limit offset : Int) (rows : List α) : List α :=
  let rest := rows.drop offset.toNat
  if limit < 0 then rest else rest.take limit.toNat

/-- The row that stands for a group: the one with the value that is gathered as the greatest or the
least, if one is. -/
def extremeRow (isGreatest : Bool) (entries : List (Value × List Value)) : Option (List Value) :=
  let best := entries.foldl (fun (best : Option (Value × List Value)) entry =>
    match best with
    | none => some entry
    | some found =>
      if found.1.isMissing then some entry
      else if entry.1.isMissing then best
      else if entry.1.order found.1 = (if isGreatest then .gt else .lt) then some entry
      else best) none
  best.map Prod.snd

end PageTree.Sql
