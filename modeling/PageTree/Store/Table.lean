import PageTree.Sql.Like
import PageTree.Store.Basic

/-!
Tables as a query sees them: named columns with their conversions, and records of values. A binding
gives every column its value while rows are joined.
-/

namespace PageTree

open Sql

structure Record where
  key : Int
  values : List Value
  deriving Repr

structure Table where
  columns : List (String × Affinity)
  records : List Record
  deriving Repr

/-- The names under which every table gives the numbers of its records. -/
def keyNames : List String :=
  ["rowid", "oid", "_rowid_"]

def isKeyName (name : String) : Bool :=
  keyNames.contains (foldName name)

namespace Table

def hasColumn (table : Table) (name : String) : Bool :=
  (table.columns.any fun column => sameName column.1 name) || isKeyName name

def affinity? (table : Table) (name : String) : Option Affinity :=
  ((table.columns.find? fun column => sameName column.1 name).map Prod.snd).or
    (if isKeyName name then some .integer else none)

def cell (table : Table) (record : Record) (name : String) : Value :=
  (((table.columns.zip record.values).find? fun entry => sameName entry.1.1 name).map
    Prod.snd).getD (if isKeyName name then .integer record.key else .null)

end Table

namespace Page

def columns : List (String × Affinity) :=
  [("id", .integer), ("parent_id", .integer), ("templates_id", .integer), ("name", .text),
    ("status", .integer), ("created", .text), ("modified", .text)]

/-- The number of the record is that of the page. -/
def record (page : Page) : Record :=
  { key := page.id
    values :=
      [.integer page.id, .integer page.parent, .integer page.template, .text page.name,
        .integer page.status, .text page.created, .text page.modified] }

end Page

def Ancestry.columns : List (String × Affinity) :=
  [("pages_id", .integer), ("parents_id", .integer)]

/-- The record of an entry; entries are numbered in the order of their addition. -/
def Ancestry.record (index : Nat) (entry : Ancestry) : Record :=
  { key := index + 1, values := [.integer entry.page, .integer entry.ancestor] }

def Template.columns : List (String × Affinity) :=
  [("id", .integer), ("name", .text)]

def Template.record (template : Template) : Record :=
  { key := template.id, values := [.integer template.id, .text template.name] }

def FieldTable.columns (table : FieldTable) : List (String × Affinity) :=
  [("pages_id", .integer), ("data", table.affinity), ("sort", .integer)]

def FieldRow.record (row : FieldRow) : Record :=
  { key := row.key, values := [.integer row.page, row.data, .integer row.sort] }

namespace Store

def pageTable (store : Store) : Table :=
  { columns := Page.columns, records := store.pages.map Page.record }

def ancestryTable (store : Store) : Table :=
  { columns := Ancestry.columns, records := store.ancestry.mapIdx Ancestry.record }

def templateTable (store : Store) : Table :=
  { columns := Template.columns, records := store.templates.map Template.record }

/-- The table with a name, whatever the case of its letters. -/
def source? (store : Store) (name : String) : Option Table :=
  if sameName name "pages" then some store.pageTable
  else if sameName name "pages_parents" then some store.ancestryTable
  else if sameName name "templates" then some store.templateTable
  else
    (store.table? name).map fun table =>
      { columns := table.columns, records := table.rows.map FieldRow.record }

end Store

structure Source where
  aliasName : String
  table : Table
  deriving Repr

namespace Source

def provides (source : Source) (column : Column) : Bool :=
  sameName source.aliasName column.aliasName && source.table.hasColumn column.name

end Source

/-- The value of every column; one that no joined table provides is missing. -/
abbrev Binding := Column → Value

namespace Binding

def empty : Binding :=
  fun _ => .null

/-- The binding with the columns of one more record; without a record they are all missing. -/
def extend (binding : Binding) (source : Source) (record : Option Record) : Binding :=
  fun column =>
    if source.provides column then
      match record with
      | some values => source.table.cell values column.name
      | none => .null
    else
      binding column

end Binding

def affinityIn (sources : List Source) (column : Column) : Affinity :=
  ((sources.find? fun source => source.provides column).bind fun source =>
    source.table.affinity? column.name).getD .text

/-- The conversion for comparing two columns: numbers win. -/
def Sql.Affinity.join : Affinity → Affinity → Affinity
  | .text, .text => .text
  | _, _ => .integer

namespace Sql

def Operand.value (binding : Binding) : Operand → Value
  | .column c => binding c
  | .integer n => .integer n
  | .digits run => .ofDigits run.toList
  | .text value => .text value

/-- The conversion for comparing a column with an operand: numbers win over text among columns,
and literals follow the column. -/
def Operand.conversion (affinity : Column → Affinity) (left : Column) : Operand → Affinity
  | .column right => (affinity left).join (affinity right)
  | _ => affinity left

/-- The truth of a test for the values of a binding. -/
def Test.truth (affinity : Column → Affinity) (binding : Binding) : Test → Truth
  | .compare left relation right =>
    if relation = .bitAnd then
      compareValues relation (binding left) (right.value binding)
    else
      let conversion := right.conversion affinity left
      compareValues relation ((binding left).convert conversion)
        ((right.value binding).convert conversion)
  | .isNull column => .ofBool (binding column = .null)
  | .isNotNull column => .ofBool (binding column ≠ .null)
  | .like subject pattern marked =>
    match (binding subject).text? with
    | some text => .ofBool (matchesPattern pattern (if marked then some likeMark else none) text)
    | none => .unknown
  | .never => .no

end Sql

def Sql.Score.value (binding : Binding) (score : Score) : Value :=
  match (binding score.subject).text? with
  | some text => ((countPhrase? score.phrase text).map .integer).getD .null
  | none => .null

end PageTree
