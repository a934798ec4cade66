import PageTree.Compile.Catalog

/-!
Terms on columns of the page table. A template may be given by name and a parent by path; a name or
path that leads nowhere never matches, and neither does a text that is no date.
-/

namespace PageTree

open Sql

/-- The column behind the name of a native field. -/
def nativeColumn (name : String) : Column :=
  match name with
  | "template" => ⟨"pages", "templates_id"⟩
  | "parent" => ⟨"pages", "parent_id"⟩
  | other => ⟨"pages", other⟩

namespace Term

def resolveNative (catalog : Catalog) (field value : String) : Except Error (Option String) :=
  if field = "template" ∧ isDigits value = false then
    (catalog.templateId value).map fun id => id.map toString
  else if field = "parent" ∧ isDigits value = false then
    (catalog.pageId value).map fun id => id.map toString
  else if field = "created" ∨ field = "modified" then
    .ok (Date.normalize? catalog.now value)
  else
    .ok (some value)

def nativeBranch (column : Column) (relation : Relation) : Option String → Filter
  | some value => .test (.compare column relation (.ofValue value))
  | none => .never

def nativeFilter (catalog : Catalog) (term : Term) : Except Error Filter :=
  match term.operator.relation? with
  | none => .error (.unsupportedOperator term.operator term.field)
  | some relation => do
    let values ← term.values.mapM (resolveNative catalog term.field)
    let branches := values.map (nativeBranch (nativeColumn term.field) relation)
    .ok ((Condition.disj branches).negateIf term.negated)

end Term

end PageTree
