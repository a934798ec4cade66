import PageTree.Compile.Native

/-!
Orders from `sort` terms. A key names a native field, an attached field, the parent or chance; a
minus sign at either end reverses it. Keys that name nothing are left out.
-/

namespace PageTree

open Sql Text

/-- Letters, digits and underscores, and at least one of them. -/
def isPlainName (cs : List Char) : Bool :=
  !cs.isEmpty && cs.all fun c => c.isAlphanum || c = '_'

structure SortValue where
  name : String
  column : Option String
  descending : Bool
  deriving DecidableEq, Repr

namespace SortValue

/-- Takes a sort value apart, unless the column after its point is no plain name. -/
def read? (value : String) : Option SortValue :=
  let cs := value.toList
  let descending := cs.head? = some '-' || cs.getLast? = some '-'
  let body := trimWhere (fun c => c = '-' || c = '+') cs
  match splitFirst? '.' body with
  | none => some { name := String.ofList body, column := none, descending }
  | some (name, column) =>
    if isPlainName column then
      some { name := String.ofList name, column := some (String.ofList column), descending }
    else
      none

/-- The end of the aliases that the key joins. -/
def suffix (value : SortValue) : String :=
  match value.column with
  | some column => "_" ++ column
  | none => ""

/-- A left join of `table` for the order alone. -/
def sortJoin (table aliasName : String) (on : Filter) : Join :=
  { kind := .left, table, aliasName, on }

def referenceJoin (aliasName : String) (reference : Column) : Join :=
  sortJoin "pages" aliasName (.test (.compare ⟨aliasName, "id"⟩ .equal (.column reference)))

/-- The order of a key on an attached field. References are ordered by the page they lead to. -/
def fieldKey (value : SortValue) (field : Field) : Column × List Join :=
  let aliasName := "_sort_" ++ field.name ++ value.suffix
  let valueJoin := sortJoin field.table aliasName (pageLink aliasName)
  if field.kind = FieldKind.page.name then
    let pageAlias := "_sort_page_" ++ field.name ++ value.suffix
    (⟨pageAlias, value.column.getD "name"⟩,
      [valueJoin, referenceJoin pageAlias ⟨aliasName, "data"⟩])
  else
    (⟨aliasName, value.column.getD "data"⟩, [valueJoin])

/-- The order of a key and the joins it needs. -/
def key? (schema : Schema) (value : SortValue) : Option (OrderExpression × List Join) :=
  if value.name = "random" then
    some (.random, [])
  else if value.name = "parent" then
    let aliasName := "_sort_parent" ++ value.suffix
    some (.column ⟨aliasName, value.column.getD "name"⟩,
      [referenceJoin aliasName ⟨"pages", "parent_id"⟩])
  else if isNativeName value.name then
    some (.column (nativeColumn value.name), [])
  else
    (schema.field? value.name).map fun field =>
      let key := value.fieldKey field
      (.column key.1, key.2)

end SortValue

namespace Selector

/-- The keys of the sort terms, in the order written. -/
def sortKeys (schema : Schema) (selector : Selector) : List (Order × List Join) :=
  ((selector.filter fun term => term.field = "sort").flatMap Term.values).filterMap fun text =>
    (SortValue.read? text).bind fun value =>
      (value.key? schema).map fun key =>
        ({ expression := key.1, descending := value.descending }, key.2)

end Selector

end PageTree
