import PageTree.Proofs.Store.Tables
import PageTree.Proofs.Store.Transaction

/-!
Values of pages in the tables of fields. Main statements: giving a field of a page a value leaves
every other value as it is, and where the page had none of that field, one row is added and nothing
else.
-/

namespace PageTree

open Sql

namespace FieldTable

def rowsOf (table : FieldTable) (page : Int) : List FieldRow :=
  table.rows.filter fun row => row.page = page

theorem rowsOf_set (table : FieldTable) (page : Int) (value : String) :
    ∃ key, (Store.FieldTable.set table page value).rowsOf page =
      [⟨key, page, Value.store table.affinity (.text value), 0⟩] := by
  have gone : (table.rows.filter fun row => row.page ≠ page).filter
      (fun row => row.page = page) = [] := by
    rw [List.filter_eq_nil_iff]
    intro row member
    simpa using (List.mem_filter.1 member).2
  refine ⟨Store.FieldTable.nextKey (table.rows.filter fun row => row.page ≠ page), ?_⟩
  rw [rowsOf, Store.FieldTable.set, List.filter_append, gone]
  simp

theorem rowsOf_set_of_ne (table : FieldTable) {page other : Int} (differs : other ≠ page)
    (value : String) :
    (Store.FieldTable.set table page value).rowsOf other = table.rowsOf other := by
  rw [rowsOf, Store.FieldTable.set, List.filter_append, List.filter_filter]
  have kept : (table.rows.filter fun row => decide (row.page = other) && decide (row.page ≠ page)) =
      table.rowsOf other := by
    refine List.filter_congr fun row _ => ?_
    by_cases same : row.page = other
    · simp [same, differs]
    · simp [same]
  rw [kept]
  simp [Ne.symm differs]

/-- A page without a row in the table gets one behind all others. -/
theorem rows_set_of_absent {table : FieldTable} {page : Int}
    (absent : ∀ row ∈ table.rows, row.page ≠ page) (value : String) :
    ∃ row : FieldRow, row.page = page ∧
      (Store.FieldTable.set table page value).rows = table.rows ++ [row] := by
  have kept : (table.rows.filter fun row => row.page ≠ page) = table.rows :=
    List.filter_eq_self.2 fun row member => decide_eq_true (absent row member)
  refine ⟨⟨Store.FieldTable.nextKey table.rows, page,
    Value.store table.affinity (.text value), 0⟩, rfl, ?_⟩
  rw [Store.FieldTable.set, kept]

end FieldTable

namespace Store

variable {schema : Schema} {store next : Store}

/-! ### Values of a page -/

/-- What a table holds of a page. -/
def valuesOf (store : Store) (table : String) (page : Int) : List Value :=
  (store.table? table).elim [] fun found => (found.rowsOf page).map FieldRow.data

/-- All rows of all fields. -/
def fieldRows (store : Store) : List FieldRow :=
  store.tables.flatMap FieldTable.rows

section

variable (name : String) (page : Int) (text : String)

theorem valuesOf_changeTable {table : FieldTable} (found : store.table? name = some table) :
    (store.changeTable name (FieldTable.set · page text)).valuesOf name page =
      [Value.store table.affinity (.text text)] := by
  obtain ⟨key, rows⟩ := table.rowsOf_set page text
  rw [valuesOf, table?_changeTable_set, found, Option.map_some,
    if_pos (sameName_of_table? found), Option.elim_some, rows]
  rfl

theorem valuesOf_changeTable_of_ne (table : String) {other : Int} (differs : other ≠ page) :
    (store.changeTable name (FieldTable.set · page text)).valuesOf table other =
      store.valuesOf table other := by
  rw [valuesOf, table?_changeTable_set, valuesOf]
  cases store.table? table with
  | none => rfl
  | some found =>
      rw [Option.map_some, Option.elim_some, Option.elim_some]
      split
      · rw [FieldTable.rowsOf_set_of_ne found differs]
      · rfl

theorem valuesOf_changeTable_of_apart {table : String} (apart : sameName table name = false)
    (other : Int) :
    (store.changeTable name (FieldTable.set · page text)).valuesOf table other =
      store.valuesOf table other := by
  rw [valuesOf, table?_changeTable_set, valuesOf]
  cases found : store.table? table with
  | none => rfl
  | some held =>
      have differs : sameName held.name name = false := by
        rw [Bool.eq_false_iff]
        intro same
        rw [sameName_trans (sameName_symm (sameName_of_table? found)) same] at apart
        cases apart
      rw [Option.map_some, differs, if_neg Bool.false_ne_true]

end

/-! ### Rows that are added -/

end Store

/-- The table with more rows behind those it had, all of them of certain pages. -/
structure FieldTable.IsExtended (isNew : Int → Prop) (table next : FieldTable) : Prop where
  name : next.name = table.name
  affinity : next.affinity = table.affinity
  rows : ∃ added, next.rows = table.rows ++ added ∧ ∀ row ∈ added, isNew row.page

namespace FieldTable.IsExtended

variable {isNew : Int → Prop} {table next : FieldTable}

theorem refl (isNew : Int → Prop) (table : FieldTable) : table.IsExtended isNew table :=
  ⟨rfl, rfl, [], (List.append_nil _).symm, by simp⟩

theorem mono {other : Int → Prop} (extended : table.IsExtended isNew next)
    (weaker : ∀ page, isNew page → other page) : table.IsExtended other next := by
  obtain ⟨name, affinity, added, rows, fresh⟩ := extended
  exact ⟨name, affinity, added, rows, fun row member => weaker _ (fresh row member)⟩

theorem trans {last : FieldTable} (first : table.IsExtended isNew next)
    (second : next.IsExtended isNew last) : table.IsExtended isNew last := by
  obtain ⟨name, affinity, added, rows, fresh⟩ := first
  obtain ⟨name', affinity', more, rows', fresh'⟩ := second
  refine ⟨name'.trans name, affinity'.trans affinity, added ++ more, ?_, ?_⟩
  · rw [rows', rows, List.append_assoc]
  · exact List.forall_mem_append.2 ⟨fresh, fresh'⟩

theorem rowsOf_eq (extended : table.IsExtended isNew next) {page : Int} (old : ¬ isNew page) :
    next.rowsOf page = table.rowsOf page := by
  obtain ⟨-, -, added, rows, fresh⟩ := extended
  have none : added.filter (fun row => row.page = page) = [] := by
    rw [List.filter_eq_nil_iff]
    intro row member same
    exact old (of_decide_eq_true same ▸ fresh row member)
  rw [rowsOf, rows, List.filter_append, none, List.append_nil, rowsOf]

end FieldTable.IsExtended

namespace Store

variable {schema : Schema} {store next : Store}

/-- The tables of fields with more rows, all of them of certain pages. -/
abbrev HasMoreRows (isNew : Int → Prop) (store next : Store) : Prop :=
  List.Forall₂ (FieldTable.IsExtended isNew) store.tables next.tables

theorem HasMoreRows.refl (isNew : Int → Prop) (store : Store) : store.HasMoreRows isNew store :=
  List.forall₂_same.2 fun table _ => .refl isNew table

theorem HasMoreRows.trans {isNew : Int → Prop} {last : Store} (first : store.HasMoreRows isNew next)
    (second : next.HasMoreRows isNew last) : store.HasMoreRows isNew last :=
  forall₂_trans (fun _ _ _ first second => first.trans second) first second

theorem HasMoreRows.valuesOf_eq {isNew : Int → Prop} (more : store.HasMoreRows isNew next)
    (table : String) {page : Int} (old : ¬ isNew page) :
    next.valuesOf table page = store.valuesOf table page := by
  unfold valuesOf table?
  unfold HasMoreRows at more
  generalize store.tables = tables, next.tables = others at more
  induction more with
  | nil => rfl
  | @cons first second _ _ extended _ induction =>
      rw [List.find?_cons, List.find?_cons, extended.name]
      cases sameName first.name table with
      | true =>
          dsimp only
          rw [Option.elim_some, Option.elim_some, extended.rowsOf_eq old]
      | false => exact induction

/-- No row of the table belongs to the page. -/
def Lacks (store : Store) (table : String) (page : Int) : Prop :=
  ∀ held ∈ store.tables, sameName held.name table = true → ∀ row ∈ held.rows, row.page ≠ page

theorem hasMoreRows_changeTable {table : String} {page : Int} (lacks : store.Lacks table page)
    (text : String) :
    store.HasMoreRows (· = page) (store.changeTable table (FieldTable.set · page text)) := by
  rw [HasMoreRows, changeTable, List.forall₂_map_right_iff, List.forall₂_same]
  intro held isHeld
  split
  · next same =>
    obtain ⟨row, isOf, rows⟩ := FieldTable.rows_set_of_absent (lacks held isHeld same) text
    exact ⟨rfl, rfl, [row], rows, by simpa using isOf⟩
  · exact .refl _ held

theorem Lacks.changeTable {table other : String} {page : Int} (lacks : store.Lacks other page)
    (apart : sameName other table = false) (text : String) :
    (store.changeTable table (FieldTable.set · page text)).Lacks other page := by
  intro held isHeld same
  obtain ⟨old, isOld, rfl⟩ := List.mem_map.1 isHeld
  by_cases changed : sameName old.name table = true
  · rw [if_pos changed] at same
    have named : sameName old.name other = true := same
    rw [sameName_trans (sameName_symm named) changed] at apart
    cases apart
  · rw [if_neg changed] at same ⊢
    exact lacks old isOld same

/-! ### Numbers of rows -/

theorem length_fieldRows_changeTable (apart : store.HasApartTables) {name : String}
    {table : FieldTable} (found : store.table? name = some table) {page : Int}
    (lacks : store.Lacks name page) (text : String) :
    (store.changeTable name (FieldTable.set · page text)).fieldRows.length =
      store.fieldRows.length + 1 := by
  unfold HasApartTables at apart
  unfold table? at found
  unfold Lacks at lacks
  unfold fieldRows changeTable
  dsimp only
  generalize store.tables = tables at *
  induction tables with
  | nil => simp at found
  | cons held rest induction =>
      rw [List.pairwise_cons] at apart
      rw [List.forall_mem_cons] at lacks
      rw [List.map_cons, List.flatMap_cons, List.flatMap_cons, List.length_append,
        List.length_append]
      cases same : sameName held.name name with
      | true =>
          have others : (rest.map fun table => if sameName table.name name then
              FieldTable.set table page text else table) = rest := by
            refine (List.map_congr_left fun other isOther => ?_).trans (List.map_id _)
            refine if_neg fun alike => ?_
            have differs := apart.1 other isOther
            rw [sameName_trans same (sameName_symm alike)] at differs
            cases differs
          obtain ⟨row, -, rows⟩ := FieldTable.rows_set_of_absent (lacks.1 same) text
          rw [others, if_pos rfl, rows, List.length_append, List.length_singleton]
          omega
      | false =>
          rw [List.find?_cons, same] at found
          rw [if_neg Bool.false_ne_true, induction apart.2 found lacks.2]
          omega

end Store

/-! ### One value a page -/

theorem Sql.Value.store_text_ne_null (affinity : Affinity) (text : String) :
    Value.store affinity (.text text) ≠ .null := by
  have whole (x : Number.Binary64) :
      ((toInteger? x).map Value.integer).getD (.real x) ≠ .null := by
    cases toInteger? x <;> simp
  cases affinity with
  | text => simp [store, text?]
  | integer =>
      unfold store ofNumberText?
      dsimp only
      cases Number.readInt64? (Text.trimWhere isNumberBlank text.toList) with
      | some n => simp
      | none =>
          dsimp only
          cases Number.DecimalText.read?
              (Number.splitSign (Text.trimWhere isNumberBlank text.toList)).2 with
          | none => simp
          | some number => exact whole _

/-- Every page has at most one row in the table, and every row has a value. -/
structure FieldTable.HasSoleValues (table : FieldTable) : Prop where
  sole : ∀ page, (table.rowsOf page).length ≤ 1
  given : ∀ row ∈ table.rows, row.data ≠ .null

namespace FieldTable.HasSoleValues

variable {table : FieldTable}

theorem set (sole : table.HasSoleValues) (page : Int) (value : String) :
    (Store.FieldTable.set table page value).HasSoleValues := by
  constructor
  · intro other
    by_cases same : other = page
    · obtain ⟨key, rows⟩ := table.rowsOf_set page value
      rw [same, rows, List.length_singleton]
    · rw [table.rowsOf_set_of_ne same]
      exact sole.sole other
  · intro row isRow
    rcases List.mem_append.1 isRow with kept | added
    · exact sole.given row (List.mem_filter.1 kept).1
    · rw [List.mem_singleton.1 added]
      exact Value.store_text_ne_null table.affinity value

theorem eq_of_page {row other : FieldRow} (sole : table.HasSoleValues) (isRow : row ∈ table.rows)
    (isOther : other ∈ table.rows) (same : row.page = other.page) : row = other := by
  have first : row ∈ table.rowsOf other.page := List.mem_filter.2 ⟨isRow, decide_eq_true same⟩
  have second : other ∈ table.rowsOf other.page := List.mem_filter.2 ⟨isOther, decide_eq_true rfl⟩
  obtain ⟨only, rows⟩ := List.length_eq_one_iff.1
    (Nat.le_antisymm (sole.sole other.page) (List.length_pos_of_mem second))
  rw [rows] at first second
  exact (List.mem_singleton.1 first).trans (List.mem_singleton.1 second).symm

end FieldTable.HasSoleValues

namespace Store

/-- Giving a field of a page a value replaces the row that the page had. -/
theorem isKept_hasSoleValues (schema : Schema) :
    IsKept schema fun store => ∀ table ∈ store.tables, table.HasSoleValues where
  addTemplate store name holds := by
    rw [tables_addTemplate]
    exact holds
  insertPage store next now page id inserted holds := by
    rw [(insertPage_eq_ok inserted).tables]
    exact holds
  setField store next now name page value set holds := by
    obtain ⟨field, text, table, -, -, -, -, rfl⟩ := exists_of_setField set
    intro table isTable
    obtain ⟨old, isOld, rfl⟩ := List.mem_map.1 isTable
    have sole := holds old isOld
    split
    · exact sole.set page text
    · exact sole

theorem Reachable.hasSoleValues (reached : Reachable schema store) :
    ∀ table ∈ store.tables, table.HasSoleValues := by
  refine (isKept_hasSoleValues schema).of_reachable (fun now fresh made table isTable => ?_) reached
  have empty := rows_of_ensureTables_new made table isTable
  constructor
  · intro page
    simp [FieldTable.rowsOf, empty]
  · simp [empty]

end Store

end PageTree
