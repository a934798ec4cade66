import PageTree.Proofs.Store.Reachable

/-!
Tables that are made for fields. Main statement: where no two fields have one table, a store with
tables for all fields holds for each field a table of its own kind. No field is given a table of the
page tree, as none of those has the column that the last index of a field needs.
-/

namespace PageTree

open Sql

theorem Sql.sameName_symm {a b : String} (same : sameName a b = true) : sameName b a = true :=
  decide_eq_true (of_decide_eq_true same).symm

theorem Sql.sameName_trans {a b c : String} (first : sameName a b = true)
    (second : sameName b c = true) : sameName a c = true :=
  decide_eq_true ((of_decide_eq_true first).trans (of_decide_eq_true second))

theorem Sql.sameName_eq_false_iff {a b : String} :
    sameName a b = false ↔ foldName a ≠ foldName b :=
  decide_eq_false_iff_not

theorem Sql.sameName_comm (a b : String) : sameName a b = sameName b a :=
  decide_eq_decide.2 eq_comm

theorem Sql.sameName_congr {a b : String} (same : sameName a b = true) (other : String) :
    sameName other a = sameName other b := by
  rw [sameName, of_decide_eq_true same, ← sameName]

/-- No two fields have one table. -/
def Schema.HasOwnTables (schema : Schema) : Prop :=
  schema.fields.Pairwise fun field other => sameName field.table other.table = false

instance (schema : Schema) : Decidable schema.HasOwnTables :=
  inferInstanceAs (Decidable (List.Pairwise _ _))

theorem Schema.HasOwnTables.eq_of_sameName {schema : Schema} (own : schema.HasOwnTables)
    {field other : Field} (isField : field ∈ schema.fields) (isOther : other ∈ schema.fields)
    (same : sameName field.table other.table = true) : field = other := by
  have symmetric : Std.Symm fun field other : Field =>
      sameName field.table other.table = false :=
    ⟨fun _ _ apart =>
      Bool.eq_false_iff.2 fun same => Bool.eq_false_iff.1 apart (sameName_symm same)⟩
  by_contra differs
  rw [List.Pairwise.forall own isField isOther differs] at same
  cases same

/-- Default tables of fields whose names are apart are the fields' own. -/
theorem Schema.hasOwnTables_of_default {schema : Schema} (apart : schema.HasApartNames)
    (default : schema.HasDefaultTables) : schema.HasOwnTables :=
  (pairwise_tables apart default).imp AreApart.sameName_eq_false

namespace Store

variable {store next : Store}

/-- A field's table is there, with the conversion of the field's kind. -/
structure Holds (store : Store) (field : Field) : Prop where
  isTable : isTableName field.table = true
  table : ∃ kind table, field.kind? = .ok kind ∧ store.table? field.table = some table ∧
    table.affinity = kind.affinity

theorem table?_append {added : List FieldTable}
    (tables : next.tables = store.tables ++ added) {name : String} {table : FieldTable}
    (found : store.table? name = some table) : next.table? name = some table := by
  unfold table? at found ⊢
  rw [tables, List.find?_append, found]
  rfl

/-- No two tables of fields have one name. -/
def HasApartTables (store : Store) : Prop :=
  store.tables.Pairwise fun table other => sameName table.name other.name = false

theorem sameName_of_table? {name : String} {table : FieldTable}
    (found : store.table? name = some table) : sameName table.name name = true := by
  have named := List.find?_some found
  exact named

theorem table?_congr {name other : String} (same : sameName name other = true) :
    store.table? name = store.table? other := by
  simp only [table?, sameName_congr same]

theorem hasName_congr {names : List String} {name other : String}
    (same : sameName name other = true) : hasName names name = hasName names other := by
  simp only [hasName, sameName_congr same]

theorem hasName_append (names others : List String) (name : String) :
    hasName (names ++ others) name = (hasName names name || hasName others name) :=
  List.any_append

theorem hasName_append_singleton (names : List String) (added name : String) :
    hasName (names ++ [added]) name = (hasName names name || sameName added name) := by
  simp [hasName]

theorem hasName_append_of_hasName {names : List String} {added : String}
    (known : hasName names added = true) (name : String) :
    hasName (names ++ [added]) name = hasName names name := by
  rw [hasName_append_singleton]
  cases same : sameName added name with
  | true => rw [← hasName_congr same, known, Bool.true_or]
  | false => rw [Bool.or_false]

/-! ### Names of indexes -/

theorem toList_foldName_index (table ending : String) :
    (foldName ("idx_" ++ table ++ ending)).toList =
      (foldName "idx_").toList ++ ((foldName table).toList ++ (foldName ending).toList) := by
  simp [foldName]

theorem sameName_dataIndex_iff {table other : String} :
    sameName ("idx_" ++ table ++ "_data") ("idx_" ++ other ++ "_data") = true ↔
      sameName table other = true := by
  unfold sameName
  rw [decide_eq_true_eq, decide_eq_true_eq, ← String.toList_inj, toList_foldName_index,
    toList_foldName_index, List.append_cancel_left_eq, List.append_cancel_right_eq,
    String.toList_inj]

theorem getLast?_foldName_index (table : String) {ending : String} {last : Char}
    (ends : (foldName ending).toList.getLast? = some last) :
    (foldName ("idx_" ++ table ++ ending)).toList.getLast? = some last := by
  rw [toList_foldName_index, List.getLast?_append, List.getLast?_append, ends]
  rfl

/-- The name of an index on data ends with an `a`. -/
theorem sameName_dataIndex_eq_false {name : String} (table : String)
    (ends : (foldName name).toList.getLast? ≠ some 'a') :
    sameName name ("idx_" ++ table ++ "_data") = false := by
  rw [sameName_eq_false_iff]
  intro same
  rw [same, getLast?_foldName_index table (by decide : _ = some 'a')] at ends
  exact ends rfl

/-! ### Stores with tables of fields -/

/-- What the making of tables for fields leaves: empty tables of these fields alone, and indexes on
data only where there is a table. -/
structure IsMadeFor (store : Store) (fields : List Field) : Prop where
  apart : store.HasApartTables
  tables : ∀ table ∈ store.tables, ∃ field ∈ fields, ∃ kind, field.kind? = .ok kind ∧
    table.name = field.table ∧ table.affinity = kind.affinity ∧ table.rows = []
  indexed : ∀ name, hasName store.indexNames ("idx_" ++ name ++ "_data") = true →
    (store.table? name).isSome = true

theorem isMadeFor_new (now : Date.Moment) : (Store.new now).IsMadeFor [] where
  apart := List.Pairwise.nil
  tables := by simp [Store.new]
  indexed name indexed := by
    have ends : ∀ index ∈ systemIndexes, (foldName index).toList.getLast? ≠ some 'a' := by decide
    obtain ⟨index, isIndex, same⟩ := List.any_eq_true.1 indexed
    rw [sameName_dataIndex_eq_false name (ends index isIndex)] at same
    cases same

/-- A table with a column for data is one of a field. -/
theorem isSome_table?_of_source? {name : String} {source : Table}
    (found : store.source? name = some source) (column : source.hasColumn "data" = true) :
    (store.table? name).isSome = true := by
  have systemColumns : ∀ columns ∈ [Page.columns, Ancestry.columns, Template.columns],
      Table.hasColumn ⟨columns, []⟩ "data" = false := by decide
  simp only [List.forall_mem_cons] at systemColumns
  obtain ⟨ofPages, ofAncestry, ofTemplates, -⟩ := systemColumns
  unfold source? at found
  split at found
  · cases found
    exact absurd (column.symm.trans ofPages) Bool.noConfusion
  split at found
  · cases found
    exact absurd (column.symm.trans ofAncestry) Bool.noConfusion
  split at found
  · cases found
    exact absurd (column.symm.trans ofTemplates) Bool.noConfusion
  · rw [Option.map_eq_some_iff] at found
    obtain ⟨table, isTable, -⟩ := found
    rw [isTable]
    rfl

namespace IsMadeFor

variable {fields : List Field}

theorem mono {more : List Field} (made : store.IsMadeFor fields) (larger : fields ⊆ more) :
    store.IsMadeFor more where
  apart := made.apart
  tables table isTable := by
    obtain ⟨field, isField, rest⟩ := made.tables table isTable
    exact ⟨field, larger isField, rest⟩
  indexed := made.indexed

theorem define?_table {field : Field} {kind : FieldKind} (made : store.IsMadeFor fields)
    (isField : field ∈ fields) (isKind : field.kind? = .ok kind)
    (defined : store.define? (.table field.table kind.affinity) = some next) :
    next.IsMadeFor fields ∧ ∀ name, (store.table? name).isSome = true →
      (next.table? name).isSome = true := by
  obtain ⟨-, -, ⟨-, rfl⟩ | ⟨missing, -, rfl⟩⟩ := define?_table_eq_some_iff.1 defined
  · exact ⟨made, fun _ some => some⟩
  · have grows (name : String) (some : (store.table? name).isSome = true) :
        (Store.table? { store with
          tables := store.tables ++ [{ name := field.table, affinity := kind.affinity, rows := [] }] }
            name).isSome = true := by
      obtain ⟨table, isTable⟩ := Option.isSome_iff_exists.1 some
      rw [table?_append rfl isTable]
      rfl
    refine ⟨⟨?_, ?_, fun name indexed => grows name (made.indexed name indexed)⟩, grows⟩
    · rw [hasName, tableNames, List.any_append, Bool.or_eq_false_iff] at missing
      obtain ⟨-, free⟩ := missing
      rw [List.any_map, List.any_eq_false] at free
      refine List.pairwise_append.2 ⟨made.apart, List.pairwise_singleton _ _, ?_⟩
      intro table isTable other isOther
      rw [List.mem_singleton.1 isOther]
      exact Bool.eq_false_iff.2 (free table isTable)
    · rw [List.forall_mem_append, List.forall_mem_singleton]
      exact ⟨made.tables, field, isField, kind, isKind, rfl, rfl, rfl⟩

theorem define?_pagesIndex {table : String} (made : store.IsMadeFor fields)
    (defined : store.define? (.index ("idx_" ++ table ++ "_pages") table "pages_id") = some next) :
    next.IsMadeFor fields := by
  obtain ⟨-, -, source, -, ⟨-, rfl⟩ | ⟨-, -, rfl⟩⟩ := define?_index_eq_some_iff.1 defined
  · exact made
  · refine ⟨made.apart, made.tables, fun name indexed => ?_⟩
    have ends := getLast?_foldName_index table
      (by decide : (foldName "_pages").toList.getLast? = some 's')
    rw [indexNames, ← List.append_assoc, hasName_append_singleton,
      sameName_dataIndex_eq_false name (by rw [ends]; decide), Bool.or_false] at indexed
    exact made.indexed name indexed

theorem define?_dataIndex {table : String} (made : store.IsMadeFor fields)
    (defined : store.define? (.index ("idx_" ++ table ++ "_data") table "data") = some next) :
    next.IsMadeFor fields ∧ (next.table? table).isSome = true := by
  obtain ⟨-, -, source, found, ⟨known, rfl⟩ | ⟨-, column, rfl⟩⟩ :=
    define?_index_eq_some_iff.1 defined
  · exact ⟨made, made.indexed table known⟩
  · have some := isSome_table?_of_source? found column
    refine ⟨⟨made.apart, made.tables, fun name indexed => ?_⟩, some⟩
    rw [indexNames, ← List.append_assoc, hasName_append_singleton, Bool.or_eq_true,
      sameName_dataIndex_iff] at indexed
    rcases indexed with old | same
    · exact made.indexed name old
    · rwa [← table?_congr same]

theorem defineAll_ofField {field : Field} {kind : FieldKind} (made : store.IsMadeFor fields)
    (isField : field ∈ fields) (isKind : field.kind? = .ok kind)
    (defined : store.defineAll (Definition.ofField field.table kind) = (next, .ok ())) :
    next.IsMadeFor fields ∧ (next.table? field.table).isSome = true ∧
      ∀ name, (store.table? name).isSome = true → (next.table? name).isSome = true := by
  obtain ⟨first, isFirst, defined⟩ := defineAll_cons_eq_ok defined
  obtain ⟨second, isSecond, defined⟩ := defineAll_cons_eq_ok defined
  obtain ⟨third, isThird, defined⟩ := defineAll_cons_eq_ok defined
  cases defined
  obtain ⟨madeFirst, grows⟩ := made.define?_table isField isKind isFirst
  obtain ⟨madeThird, some⟩ := (madeFirst.define?_pagesIndex isSecond).define?_dataIndex isThird
  refine ⟨madeThird, some, fun name old => ?_⟩
  have tables : next.tables = first.tables :=
    (define?_index isThird).trans (define?_index isSecond)
  rw [table?, tables]
  exact grows name old

theorem ensureTables {more : List Field} (made : store.IsMadeFor fields) (all : more ⊆ fields)
    (ensured : store.ensureTables more = (next, .ok ())) :
    next.IsMadeFor fields ∧ (∀ field ∈ more, (next.table? field.table).isSome = true) ∧
      ∀ name, (store.table? name).isSome = true → (next.table? name).isSome = true := by
  induction more generalizing store with
  | nil =>
      cases ensured
      exact ⟨made, by simp, fun _ some => some⟩
  | cons field more induction =>
      rw [Store.ensureTables] at ensured
      split at ensured
      · cases ensured
      next kind isKind =>
      split at ensured
      · next between defined =>
        rw [List.cons_subset] at all
        obtain ⟨madeBetween, some, grows⟩ := made.defineAll_ofField all.1 isKind defined
        obtain ⟨madeNext, others, later⟩ := induction madeBetween all.2 ensured
        exact ⟨madeNext, List.forall_mem_cons.2 ⟨later _ some, others⟩,
          fun name old => later name (grows name old)⟩
      · cases ensured

end IsMadeFor

section

variable {schema : Schema} {now : Date.Moment}
  (ensured : (Store.new now).ensureTables schema.fields = (store, .ok ()))

include ensured

theorem isMadeFor_of_ensureTables_new :
    store.IsMadeFor schema.fields ∧
      ∀ field ∈ schema.fields, (store.table? field.table).isSome = true := by
  have empty : (Store.new now).IsMadeFor schema.fields := (isMadeFor_new now).mono (by simp)
  obtain ⟨made, some, -⟩ := empty.ensureTables (List.Subset.refl _) ensured
  exact ⟨made, some⟩

theorem rows_of_ensureTables_new : ∀ table ∈ store.tables, table.rows = [] := by
  intro table isTable
  obtain ⟨-, -, -, -, -, -, empty⟩ := (isMadeFor_of_ensureTables_new ensured).1.tables table isTable
  exact empty

/-- In a store with tables for all fields, each field has one of its own kind. -/
theorem holds_of_hasOwnTables (own : schema.HasOwnTables) {field : Field}
    (isField : field ∈ schema.fields) : store.Holds field := by
  obtain ⟨made, some⟩ := isMadeFor_of_ensureTables_new ensured
  refine ⟨isTableName_of_ensureTables ensured field isField, ?_⟩
  obtain ⟨table, found⟩ := Option.isSome_iff_exists.1 (some field isField)
  obtain ⟨other, isOther, kind, isKind, name, affinity, -⟩ :=
    made.tables table (List.mem_of_find?_eq_some found)
  have same := sameName_of_table? found
  rw [name] at same
  have alike := own.eq_of_sameName isOther isField same
  exact ⟨kind, table, alike ▸ isKind, found, affinity⟩

end

/-! ### Tables of fields beside the page tables -/

/-- No table of a field has the name of a page table. -/
def IsBesideSystem (store : Store) : Prop :=
  ∀ table ∈ store.tables, hasName systemTables table.name = false

namespace IsBesideSystem

theorem define? {definition : Definition} (beside : store.IsBesideSystem)
    (defined : store.define? definition = some next) : next.IsBesideSystem := by
  cases definition with
  | index name table column =>
      rw [IsBesideSystem, define?_index defined]
      exact beside
  | table name affinity =>
      obtain ⟨-, -, ⟨-, rfl⟩ | ⟨missing, -, rfl⟩⟩ := define?_table_eq_some_iff.1 defined
      · exact beside
      · rw [tableNames, hasName_append, Bool.or_eq_false_iff] at missing
        rw [IsBesideSystem, List.forall_mem_append, List.forall_mem_singleton]
        exact ⟨beside, missing.1⟩

theorem defineAll {definitions : List Definition} (beside : store.IsBesideSystem)
    (defined : store.defineAll definitions = (next, .ok ())) : next.IsBesideSystem := by
  induction definitions generalizing store with
  | nil =>
      cases defined
      exact beside
  | cons definition definitions induction =>
      obtain ⟨between, isFirst, rest⟩ := defineAll_cons_eq_ok defined
      exact induction (beside.define? isFirst) rest

theorem ensureTables {fields : List Field} (beside : store.IsBesideSystem)
    (ensured : store.ensureTables fields = (next, .ok ())) : next.IsBesideSystem := by
  induction fields generalizing store with
  | nil =>
      cases ensured
      exact beside
  | cons field fields induction =>
      rw [Store.ensureTables] at ensured
      split at ensured
      · cases ensured
      split at ensured
      · next between defined => exact induction (beside.defineAll defined) ensured
      · cases ensured

end IsBesideSystem

theorem isKept_isBesideSystem (schema : Schema) : IsKept schema IsBesideSystem where
  addTemplate store name beside := by
    rw [IsBesideSystem, tables_addTemplate]
    exact beside
  insertPage store next now page id inserted beside := by
    rw [IsBesideSystem, (insertPage_eq_ok inserted).tables]
    exact beside
  setField store next now name page value set beside := by
    obtain ⟨changed, text, other, -, -, -, -, rfl⟩ := exists_of_setField set
    rw [IsBesideSystem, changeTable, List.forall_mem_map]
    simp only [name_ite_change (FieldTable.name_set page text)]
    exact beside

theorem isKept_isSome_table? (schema : Schema) (name : String) :
    IsKept schema fun store => (store.table? name).isSome = true where
  addTemplate store template some := by
    rw [table?, tables_addTemplate]
    exact some
  insertPage store next now page id inserted some := by
    rw [table?, (insertPage_eq_ok inserted).tables]
    exact some
  setField store next now field page value set some := by
    obtain ⟨changed, text, other, -, -, -, -, rfl⟩ := exists_of_setField set
    rw [table?, changeTable, List.find?_map]
    simpa [table?, Function.comp_def, name_ite_change (FieldTable.name_set page text)] using some

theorem isKept_holds {schema : Schema} (field : Field) :
    IsKept schema fun store => store.Holds field where
  addTemplate store name held := by
    refine ⟨held.isTable, ?_⟩
    unfold table?
    rw [tables_addTemplate]
    exact held.table
  insertPage store next now page id inserted held := by
    refine ⟨held.isTable, ?_⟩
    unfold table?
    rw [(insertPage_eq_ok inserted).tables]
    exact held.table
  setField store next now name page value set held := by
    refine ⟨held.isTable, ?_⟩
    obtain ⟨changed, text, other, -, -, -, -, rfl⟩ := exists_of_setField set
    obtain ⟨kind, table, isKind, found, affinity⟩ := held.table
    refine ⟨kind, _, isKind, (table?_changeTable_set ..).trans (congrArg _ found), ?_⟩
    dsimp only
    split <;> exact affinity

theorem isKept_hasApartTables (schema : Schema) : IsKept schema HasApartTables where
  addTemplate store name apart := by
    rw [HasApartTables, tables_addTemplate]
    exact apart
  insertPage store next now page id inserted apart := by
    rw [HasApartTables, (insertPage_eq_ok inserted).tables]
    exact apart
  setField store next now name page value set apart := by
    obtain ⟨changed, text, other, -, -, -, -, rfl⟩ := exists_of_setField set
    rw [HasApartTables, changeTable, List.pairwise_map]
    simp only [name_ite_change (FieldTable.name_set page text)]
    exact apart

namespace Reachable

variable {schema : Schema} (reached : Reachable schema store)

include reached

theorem hasApartTables : store.HasApartTables :=
  (isKept_hasApartTables schema).of_reachable
    (fun _ _ ensured => (isMadeFor_of_ensureTables_new ensured).1.apart) reached

theorem holds (own : schema.HasOwnTables) {field : Field} (isField : field ∈ schema.fields) :
    store.Holds field :=
  (isKept_holds field).of_reachable
    (fun _ _ ensured => holds_of_hasOwnTables ensured own isField) reached

theorem isTableName {field : Field} (isField : field ∈ schema.fields) :
    isTableName field.table = true := by
  have kept : IsKept schema fun _ => Sql.isTableName field.table = true :=
    ⟨fun _ _ named => named, fun _ _ _ _ _ _ named => named, fun _ _ _ _ _ _ _ named => named⟩
  exact kept.of_reachable
    (fun _ _ ensured => isTableName_of_ensureTables ensured field isField) reached

/-- The table of every field is there, and no page table has its name. -/
theorem exists_table? {field : Field} (isField : field ∈ schema.fields) :
    ∃ table, store.table? field.table = some table ∧
      hasName systemTables field.table = false := by
  have some : (store.table? field.table).isSome = true :=
    (isKept_isSome_table? schema field.table).of_reachable
      (fun _ _ ensured => (isMadeFor_of_ensureTables_new ensured).2 field isField) reached
  have beside : store.IsBesideSystem :=
    (isKept_isBesideSystem schema).of_reachable
      (fun _ _ ensured => IsBesideSystem.ensureTables (by simp [IsBesideSystem, Store.new]) ensured)
      reached
  obtain ⟨table, found⟩ := Option.isSome_iff_exists.1 some
  refine ⟨table, found, ?_⟩
  rw [← hasName_congr (sameName_of_table? found)]
  exact beside table (List.mem_of_find?_eq_some found)

end Reachable

end Store

end PageTree
