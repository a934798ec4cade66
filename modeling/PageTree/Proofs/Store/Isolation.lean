import PageTree.Proofs.Store.Values

/-!
What giving a field of a page a value leaves as it was. Main statement: the value is then the only
one of that page in the field's table, and nothing else changes but the day on which the page was
modified, so other fields keep their values just when no two fields have one table.
-/

namespace PageTree

open Sql

namespace Schema

variable {schema : Schema}

/-- Fields of different names have different tables. -/
def StoresApart (schema : Schema) : Prop :=
  ∀ name other field another, schema.field? name = some field →
    schema.field? other = some another → name ≠ other → sameName field.table another.table = false

/-- A valid schema that leaves the choice of tables to the program keeps its fields apart. -/
theorem Valid.storesApart (valid : schema.Valid) (default : schema.HasDefaultTables) :
    schema.StoresApart := by
  intro name other field another isField isAnother differs
  rw [Bool.eq_false_iff]
  intro same
  rw [default field (mem_fields_of_field? isField),
    default another (mem_fields_of_field? isAnother), name_eq_of_field? isField,
    name_eq_of_field? isAnother] at same
  have plain {name : String} {field : Field} (found : schema.field? name = some field) :
      foldName name = name :=
    foldName_of_letters (isNameRest_of_isFieldName
      (name_eq_of_field? found ▸ (valid.isUsable found).name))
  have spelled := congrArg String.toList (of_decide_eq_true same)
  rw [defaultTable, defaultTable, toList_foldName_append, toList_foldName_append,
    List.append_cancel_left_eq, plain isField, plain isAnother] at spelled
  exact differs (String.toList_inj.1 spelled)

end Schema

namespace Store

variable {schema : Schema} {store next : Store}

theorem valuesOf_congr {table other : String} (same : sameName table other = true) (page : Int) :
    store.valuesOf table page = store.valuesOf other page := by
  rw [valuesOf, table?_congr same, valuesOf]

/-- The store with this as the page's only value in the tables of the field's name. -/
structure IsGiven (store : Store) (now : Date.Moment) (field : Field) (page : Int) (value : Value)
    (next : Store) : Prop where
  given : ∀ table, sameName table field.table = true → next.valuesOf table page = [value]
  otherPages : ∀ table other, other ≠ page → next.valuesOf table other = store.valuesOf table other
  otherTables : ∀ table other, sameName table field.table = false →
    next.valuesOf table other = store.valuesOf table other
  pages : next.pages = store.pages.map fun row =>
    if row.id = page then { row with modified := now.text } else row
  ancestry : next.ancestry = store.ancestry
  templates : next.templates = store.templates
  lastTemplate : next.lastTemplate = store.lastTemplate

theorem isGiven_of_setField {now : Date.Moment} {name : String} {page : Int} {value : String}
    (set : store.setField schema now name page value = .ok next) :
    ∃ field text table, schema.field? name = some field ∧ storedText now field value = .ok text ∧
      store.table? field.table = some table ∧
      store.IsGiven now field page (Value.store table.affinity (.text text)) next := by
  obtain ⟨field, text, table, isField, stored, found, -, rfl⟩ := exists_of_setField set
  refine ⟨field, text, table, isField, stored, found, ?_⟩
  exact
    { given := fun other same =>
        (valuesOf_congr same page).trans (valuesOf_changeTable _ page text found)
      otherPages := fun other _ differs => valuesOf_changeTable_of_ne _ page text other differs
      otherTables := fun _ another apart => valuesOf_changeTable_of_apart _ page text apart another
      pages := rfl
      ancestry := rfl
      templates := rfl
      lastTemplate := rfl }

/-- Every kind of field takes two dates that are stored as different values. -/
theorem exists_storedText_ne (now : Date.Moment) (field : Field) :
    ∃ value other text another, storedText now field value = .ok text ∧
      storedText now field other = .ok another ∧
      text.utf8ByteSize ≤ textLimit ∧ another.utf8ByteSize ≤ textLimit ∧
      ∀ affinity, Value.store affinity (.text text) ≠ Value.store affinity (.text another) := by
  refine ⟨"2000-01-01", "2000-01-02", ?_⟩
  by_cases isDate : field.kind = FieldKind.datetime.name
  · refine ⟨"2000-01-01 00:00:00", "2000-01-02 00:00:00", ?_, ?_, by decide, by decide,
      fun affinity => ?_⟩
    · rw [storedText, if_pos isDate]
      rfl
    · rw [storedText, if_pos isDate]
      rfl
    · cases affinity <;> decide
  · refine ⟨_, _, if_neg isDate, if_neg isDate, by decide, by decide, fun affinity => ?_⟩
    cases affinity <;> decide

namespace Reachable

variable (reached : Reachable schema store)

include reached

theorem exists_setField {name : String} {field : Field} (isField : schema.field? name = some field)
    {now : Date.Moment} {value text : String} (stored : storedText now field value = .ok text)
    (short : text.utf8ByteSize ≤ textLimit) (page : Int) :
    ∃ next, store.setField schema now name page value = .ok next := by
  obtain ⟨table, found, -⟩ := reached.exists_table? (Schema.mem_fields_of_field? isField)
  rw [Store.setField, isField]
  dsimp only
  rw [stored, found]
  exact ⟨_, if_neg (Nat.not_lt.2 short)⟩

/-- Every value that is set is the only one of its page and field from then on, and leaves values in
other tables, other pages, the page tree and the templates as they are. All other fields keep all
their values whatever is set just when no two fields have one table. -/
theorem setField_leaves_fields_iff :
    (∀ now name page value next, store.setField schema now name page value = .ok next →
      ∃ field text table, schema.field? name = some field ∧
        storedText now field value = .ok text ∧ store.table? field.table = some table ∧
        store.IsGiven now field page (Value.store table.affinity (.text text)) next) ∧
    ((∀ now name page value next, store.setField schema now name page value = .ok next →
        ∀ other field, other ≠ name → schema.field? other = some field →
          ∀ any, next.valuesOf field.table any = store.valuesOf field.table any) ↔
      schema.StoresApart) := by
  refine ⟨fun now name page value next set => isGiven_of_setField set, ?_, ?_⟩
  · intro leaves name other field another isField isAnother differs
    rw [Bool.eq_false_iff]
    intro same
    let now : Date.Moment := ⟨0, false⟩
    obtain ⟨first, second, text, later, isFirst, isSecond, isShort, isShortToo, unlike⟩ :=
      exists_storedText_ne now field
    -- what the other field holds would be both values at once
    have kept {value text : String} (stored : storedText now field value = .ok text)
        (short : text.utf8ByteSize ≤ textLimit) :
        ∃ table, store.table? field.table = some table ∧
          store.valuesOf another.table rootId = [Value.store table.affinity (.text text)] := by
      obtain ⟨next, set⟩ := reached.exists_setField isField stored short rootId
      obtain ⟨given, isText, table, isGiven, storedGiven, found, effect⟩ := isGiven_of_setField set
      cases isField.symm.trans isGiven
      cases stored.symm.trans storedGiven
      refine ⟨table, found, ?_⟩
      rw [← leaves now name rootId value next set other another differs.symm isAnother rootId]
      exact effect.given another.table (sameName_symm same)
    obtain ⟨table, found, holds⟩ := kept isFirst isShort
    obtain ⟨again, foundAgain, holdsLater⟩ := kept isSecond isShortToo
    cases found.symm.trans foundAgain
    exact unlike table.affinity (List.singleton_inj.1 (holds.symm.trans holdsLater))
  · intro apart now name page value next set other field differs isField any
    obtain ⟨given, text, table, isGiven, -, -, effect⟩ := isGiven_of_setField set
    exact effect.otherTables field.table any (apart other name field given isField isGiven differs)

end Reachable

end Store

/-- A valid schema with two fields in one table. -/
def sharedSchema : Schema :=
  [("author", { kind := "text", table := none, label := none }),
    ("editor", { kind := "text", table := some "field_author", label := none })]

theorem sharedSchema_loses_values :
    let store := ((Store.new ⟨0, false⟩).ensureTables sharedSchema.fields).1
    sharedSchema.Valid ∧ Store.Reachable sharedSchema store ∧
      ¬∀ now name page value next, store.setField sharedSchema now name page value = .ok next →
        ∀ other field, other ≠ name → sharedSchema.field? other = some field →
          ∀ any, next.valuesOf field.table any = store.valuesOf field.table any := by
  intro store
  have made : (Store.new ⟨0, false⟩).ensureTables sharedSchema.fields = (store, .ok ()) := rfl
  have reached : Store.Reachable sharedSchema store := .fresh made
  have shared : ¬sharedSchema.StoresApart := fun apart =>
    absurd (apart "author" "editor" _ _ rfl rfl (by decide)) (by decide)
  exact ⟨by decide, reached, reached.setField_leaves_fields_iff.2.not.2 shared⟩

end PageTree
