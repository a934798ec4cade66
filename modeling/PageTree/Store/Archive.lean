import PageTree.Store.Basic

/-!
Page stores as text: a line for each record, its parts divided by tabs. Reading takes what writing
produces.
-/

namespace PageTree

open Number Sql

namespace Archive

/-- A character of a part. Tabs and line ends divide, so they are written by letter. -/
def escapeChar (c : Char) : List Char :=
  match c with
  | '\\' => ['\\', '\\']
  | '\t' => ['\\', 't']
  | '\n' => ['\\', 'n']
  | '\r' => ['\\', 'r']
  | c => [c]

def escape (cs : List Char) : List Char :=
  cs.flatMap escapeChar

def escapedChar (c : Char) : Char :=
  match c with
  | 't' => '\t'
  | 'n' => '\n'
  | 'r' => '\r'
  | c => c

def unescape : List Char → List Char
  | [] => []
  | [c] => [c]
  | c :: d :: cs =>
    if c = '\\' then escapedChar d :: unescape cs else c :: unescape (d :: cs)

theorem unescape_escapeChar_append (c : Char) (cs : List Char) :
    unescape (escapeChar c ++ cs) = c :: unescape cs := by
  unfold escapeChar
  split
  · rfl
  · rfl
  · rfl
  · rfl
  · next h _ _ _ => cases cs <;> simp [unescape, show ¬c = '\\' from h]

theorem unescape_escape (cs : List Char) : unescape (escape cs) = cs := by
  induction cs with
  | nil => rfl
  | cons c cs ih => rw [escape, List.flatMap_cons, unescape_escapeChar_append]; exact congrArg _ ih

def line (parts : List String) : String :=
  "\t".intercalate (parts.map fun part => String.ofList (escape part.toList)) ++ "\n"

def parts (cs : List Char) : List String :=
  (Text.splitAt '\t' cs).map fun part => String.ofList (unescape part)

/-! ### Values -/

def signText (negative : Bool) : String :=
  if negative then "-" else "+"

def valueParts : Value → List String
  | .null => ["null"]
  | .integer n => ["integer", toString n]
  | .text s => ["text", s]
  | .real .nan => ["real"]
  | .real (.infinite negative) => ["real", signText negative]
  | .real (.finite negative mantissa exponent) =>
    ["real", signText negative, toString mantissa, toString exponent]

def value? : List String → Option Value
  | ["null"] => some .null
  | ["integer", n] => n.toInt?.map .integer
  | ["text", s] => some (.text s)
  | ["real"] => some (.real .nan)
  | ["real", sign] => some (.real (.infinite (sign = "-")))
  | ["real", sign, mantissa, exponent] => do
    let mantissa ← mantissa.toNat?
    let exponent ← exponent.toInt?
    some (.real (.finite (sign = "-") mantissa exponent))
  | _ => none

def affinity? (name : String) : Option Affinity :=
  if name = Affinity.text.name then some .text
  else if name = Affinity.integer.name then some .integer
  else none

def heading : String :=
  "page tree 1"

end Archive

open Archive

def Template.archive (template : Template) : String :=
  line ["template", toString template.id, template.name]

def Page.archive (page : Page) : String :=
  line
    ["page", toString page.id, toString page.parent, toString page.template, page.name,
      toString page.status, page.created, page.modified]

def Ancestry.archive (entry : Ancestry) : String :=
  line ["ancestor", toString entry.page, toString entry.ancestor]

def FieldRow.archive (row : FieldRow) : String :=
  line
    (["value", toString row.key, toString row.page, toString row.sort] ++ valueParts row.data)

/-- The line of a table and those of its values. -/
def FieldTable.archive (table : FieldTable) : String :=
  line ["table", table.name, table.affinity.name] ++ String.join (table.rows.map FieldRow.archive)

namespace Store

def archive (store : Store) : String :=
  line [heading, toString store.lastTemplate]
    ++ String.join (store.templates.map Template.archive)
    ++ String.join (store.pages.map Page.archive)
    ++ String.join (store.ancestry.map Ancestry.archive)
    ++ String.join (store.tables.map FieldTable.archive)
    ++ String.join (store.indexes.map fun name => line ["index", name])

/-- The tables with a row added to the last of them. -/
def addRow? (tables : List FieldTable) (row : FieldRow) : Option (List FieldTable) :=
  match tables.getLast? with
  | some table => some (tables.dropLast ++ [{ table with rows := table.rows ++ [row] }])
  | none => none

def addRecord? (store : Store) : List String → Option Store
  | ["template", id, name] => do
    let id ← id.toInt?
    some { store with templates := store.templates ++ [{ id, name }] }
  | ["page", id, parent, template, name, status, created, modified] => do
    let id ← id.toInt?
    let parent ← parent.toInt?
    let template ← template.toInt?
    let status ← status.toInt?
    some { store with
      pages := store.pages ++ [{ id, parent, template, name, status, created, modified }] }
  | ["ancestor", page, ancestor] => do
    let page ← page.toInt?
    let ancestor ← ancestor.toInt?
    some { store with ancestry := store.ancestry ++ [{ page, ancestor }] }
  | ["table", name, affinity] => do
    let affinity ← affinity? affinity
    some { store with tables := store.tables ++ [{ name, affinity, rows := [] }] }
  | "value" :: key :: page :: sort :: data => do
    let key ← key.toInt?
    let page ← page.toInt?
    let sort ← sort.toInt?
    let data ← value? data
    let tables ← addRow? store.tables { key, page, data, sort }
    some { store with tables }
  | ["index", name] => some { store with indexes := store.indexes ++ [name] }
  | _ => none

/-- The store of an archive; none for other texts. -/
def ofArchive? (s : String) : Option Store :=
  match Text.splitAt '\n' s.toList with
  | [] => none
  | first :: rest =>
    match parts first with
    | [head, last] =>
      if head = heading then do
        let lastTemplate ← last.toInt?
        let records := (rest.filter fun cs => !cs.isEmpty).map parts
        records.foldlM addRecord?
          { templates := [], lastTemplate, pages := [], ancestry := [], tables := [],
            indexes := [] }
      else
        none
    | _ => none

end Store

end PageTree
