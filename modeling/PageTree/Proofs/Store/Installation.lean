import PageTree.Proofs.Store.Planning

/-!
Which schemas get tables for their fields. A name must be free for a new table, of the names of the
page tables and of all indexes, those of the other fields among them. Main statement: a new store
makes the tables of a valid schema just when their names are free, and keeps its pages either way.
-/

namespace PageTree

open Sql

namespace Store

variable {store next : Store} {name table : String} {tables indexes : List String}

/-! ### Names that are taken -/

theorem hasName_eq_false_iff {names : List String} :
    hasName names name = false ↔ ∀ other ∈ names, sameName other name = false := by
  simp [hasName]

/-- The names of the indexes of a field's table. -/
def indexesOf (table : String) : List String :=
  ["idx_" ++ table ++ "_pages", "idx_" ++ table ++ "_data"]

theorem hasName_indexesOf :
    hasName (indexesOf table) name =
      (sameName ("idx_" ++ table ++ "_pages") name ||
        sameName ("idx_" ++ table ++ "_data") name) := by
  simp [hasName, indexesOf]

theorem prefix_foldName_index (table ending : String) :
    "idx_".toList <+: (foldName ("idx_" ++ table ++ ending)).toList := by
  have front : (foldName "idx_").toList = "idx_".toList := by decide
  rw [toList_foldName_index, front]
  exact List.prefix_append ..

/-- An index is longer than its table. -/
theorem hasName_indexesOf_self (table : String) : hasName (indexesOf table) table = false := by
  have longer (ending : String) : sameName ("idx_" ++ table ++ ending) table = false := by
    rw [sameName_eq_false_iff]
    intro same
    have lengths := congrArg (fun name : String => name.toList.length) same
    simp only [toList_foldName_index, List.length_append] at lengths
    have front : (foldName "idx_").toList.length = 4 := by decide
    omega
  rw [hasName_indexesOf, longer, longer]
  rfl

theorem hasName_eq_false_of_prefix {names : List String} {front : String}
    (none : (names.map foldName).all (fun word => !front.toList.isPrefixOf word.toList) = true)
    (named : front.toList <+: (foldName name).toList) : hasName names name = false := by
  rw [hasName_eq_false_iff]
  intro other isOther
  rw [sameName_eq_false_iff]
  intro same
  exact Schema.foldName_notMem none named (same ▸ List.mem_map_of_mem isOther)

theorem hasName_systemTables_index (table ending : String) :
    hasName systemTables ("idx_" ++ table ++ ending) = false :=
  hasName_eq_false_of_prefix (by decide) (prefix_foldName_index table ending)

theorem isBareName_index {ending : String} (bare : isTableName table = true)
    (letters : ∀ c ∈ ending.toList, isNameChar c = true) :
    isBareName ("idx_" ++ table ++ ending) = true := by
  rw [isTableName, Bool.and_eq_true] at bare
  have chars := isNameChar_of_isWord (isWord_of_isBareName bare.1)
  have other : foldName ("idx_" ++ table ++ ending) ∉ reservedWords :=
    Schema.foldName_notMem (by decide) (prefix_foldName_index table ending)
  rw [isBareName, isWord_append (isWord_append (by decide) chars) letters, List.contains_eq_mem,
    decide_eq_false other]
  rfl

/-! ### Definitions that succeed -/

theorem exists_defineAll_cons_iff {definition : Definition} {definitions : List Definition} :
    (∃ next, store.defineAll (definition :: definitions) = (next, .ok ())) ↔
      ∃ between, store.define? definition = some between ∧
        ∃ next, between.defineAll definitions = (next, .ok ()) := by
  rw [defineAll]
  cases store.define? definition <;> simp

theorem exists_table?_of_hasName (named : hasName store.tableNames name = true)
    (ordinary : hasName systemTables name = false) : ∃ table, store.table? name = some table := by
  rw [tableNames, hasName_append, ordinary, Bool.false_or] at named
  obtain ⟨_, isName, same⟩ := List.any_eq_true.1 named
  obtain ⟨table, isTable, rfl⟩ := List.mem_map.1 isName
  exact Option.isSome_iff_exists.1 (List.find?_isSome.2 ⟨table, isTable, same⟩)

theorem hasColumn_asTable (table : FieldTable) {column : String}
    (isColumn : column ∈ ["pages_id", "data"]) : table.asTable.hasColumn column = true := by
  rcases List.mem_pair.1 isColumn with rfl | rfl <;>
    simp [Table.hasColumn, FieldTable.asTable, FieldTable.columns, sameName_refl]

/-- The store takes these names and no others. -/
structure TakesNames (store : Store) (tables indexes : List String) : Prop where
  tables : ∀ name, hasName store.tableNames name = hasName (systemTables ++ tables) name
  indexes : ∀ name, hasName store.indexNames name = hasName (systemIndexes ++ indexes) name

namespace TakesNames

theorem new (now : Date.Moment) : (Store.new now).TakesNames [] [] :=
  ⟨fun _ => rfl, fun _ => rfl⟩

variable (takes : store.TakesNames tables indexes)

include takes

theorem define?_table {affinity : Affinity}
    (made : store.define? (.table name affinity) = some next) :
    next.TakesNames (tables ++ [name]) indexes := by
  obtain ⟨-, -, ⟨known, rfl⟩ | ⟨-, -, rfl⟩⟩ := define?_table_eq_some_iff.1 made
  · refine ⟨fun other => ?_, takes.indexes⟩
    rw [← List.append_assoc, hasName_append_singleton, ← takes.tables, ← hasName_append_singleton,
      hasName_append_of_hasName known]
  · refine ⟨fun other => ?_, takes.indexes⟩
    rw [tableNames, List.map_append, ← List.append_assoc, List.map_singleton,
      hasName_append_singleton, ← tableNames, ← List.append_assoc, hasName_append_singleton,
      ← takes.tables]

theorem define?_index {column : String}
    (made : store.define? (.index name table column) = some next) :
    next.TakesNames tables (indexes ++ [name]) := by
  obtain ⟨-, -, source, -, ⟨known, rfl⟩ | ⟨-, -, rfl⟩⟩ := define?_index_eq_some_iff.1 made
  · refine ⟨takes.tables, fun other => ?_⟩
    rw [← List.append_assoc, hasName_append_singleton, ← takes.indexes, ← hasName_append_singleton,
      hasName_append_of_hasName known]
  · refine ⟨takes.tables, fun other => ?_⟩
    rw [indexNames, ← List.append_assoc, hasName_append_singleton, ← indexNames,
      ← List.append_assoc, hasName_append_singleton, ← takes.indexes]

end TakesNames

/-! ### Free names -/

/-- A new store has nothing of this name and takes it for a table. -/
structure IsFreeName (table : String) : Prop where
  isTableName : Sql.isTableName table = true
  notEngine : isEngineName table = false
  notTable : hasName systemTables table = false
  notIndex : hasName systemIndexes table = false

instance (table : String) : Decidable (IsFreeName table) :=
  decidable_of_iff
    (Sql.isTableName table = true ∧ isEngineName table = false ∧
      hasName systemTables table = false ∧ hasName systemIndexes table = false)
    ⟨fun ⟨named, notEngine, notTable, notIndex⟩ => ⟨named, notEngine, notTable, notIndex⟩,
      fun free => ⟨free.isTableName, free.notEngine, free.notTable, free.notIndex⟩⟩

/-- None of these tables has a name that is taken or is one of their own indexes. -/
def AreFree (tables : List String) : Prop :=
  ∀ table ∈ tables, IsFreeName table ∧ ∀ other ∈ tables, hasName (indexesOf other) table = false

instance (tables : List String) : Decidable (AreFree tables) :=
  inferInstanceAs (Decidable (∀ table ∈ tables, _))

theorem areFree_concat_iff :
    AreFree (tables ++ [table]) ↔
      AreFree tables ∧ IsFreeName table ∧
        ∀ other ∈ tables, hasName (indexesOf other) table = false ∧
          hasName (indexesOf table) other = false := by
  simp only [AreFree, List.forall_mem_append, List.forall_mem_singleton,
    hasName_indexesOf_self table, and_true]
  constructor
  · rintro ⟨free, isFree, others⟩
    exact ⟨fun other isOther => ⟨(free other isOther).1, (free other isOther).2.1⟩, isFree,
      fun other isOther => ⟨others other isOther, (free other isOther).2.2⟩⟩
  · rintro ⟨free, isFree, others⟩
    exact ⟨fun other isOther => ⟨(free other isOther).1, (free other isOther).2,
      (others other isOther).2⟩, isFree, fun other isOther => (others other isOther).1⟩

theorem hasName_flatMap_indexesOf_eq_false_iff :
    hasName (tables.flatMap indexesOf) name = false ↔
      ∀ other ∈ tables, hasName (indexesOf other) name = false := by
  simp only [hasName, List.any_flatMap, List.any_eq_false, Bool.not_eq_true]

theorem AreFree.mono {others : List String} (free : AreFree tables) (among : others ⊆ tables) :
    AreFree others :=
  fun other isOther => ⟨(free other (among isOther)).1,
    fun another isAnother => (free other (among isOther)).2 another (among isAnother)⟩

theorem AreFree.hasName_indexes (free : AreFree tables) (known : hasName tables table = true) :
    hasName (systemIndexes ++ tables.flatMap indexesOf) table = false := by
  obtain ⟨held, isHeld, same⟩ := List.any_eq_true.1 known
  obtain ⟨isFree, others⟩ := free held isHeld
  rw [← hasName_congr same, hasName_append, isFree.notIndex, Bool.false_or,
    hasName_flatMap_indexesOf_eq_false_iff]
  exact others

theorem exists_define?_index (takes : store.TakesNames (tables ++ [table]) indexes)
    (free : AreFree (tables ++ [table])) {ending column : String}
    (isEnding : ending ∈ ["_pages", "_data"]) (isColumn : column ∈ ["pages_id", "data"]) :
    ∃ next, store.define? (.index ("idx_" ++ table ++ ending) table column) = some next := by
  have last : table ∈ tables ++ [table] := List.mem_append_right _ (List.mem_singleton_self _)
  have isFree := (free table last).1
  have letters : ∀ ending ∈ ["_pages", "_data"], ending.toList.all isNameChar = true := by decide
  have bare := isBareName_index isFree.isTableName (List.all_eq_true.1 (letters ending isEnding))
  have notTable : hasName store.tableNames ("idx_" ++ table ++ ending) = false := by
    rw [takes.tables, hasName_append, hasName_systemTables_index, Bool.false_or,
      hasName_eq_false_iff]
    intro other isOther
    have apart := hasName_eq_false_iff.1 ((free other isOther).2 table last)
    have isIndex : "idx_" ++ table ++ ending ∈ indexesOf table :=
      List.mem_map_of_mem (f := fun ending => "idx_" ++ table ++ ending) isEnding
    exact (sameName_comm ..).trans (apart _ isIndex)
  have named : hasName store.tableNames table = true := by
    rw [takes.tables, ← List.append_assoc, hasName_append_singleton, sameName_refl, Bool.or_true]
  obtain ⟨held, found⟩ := exists_table?_of_hasName named isFree.notTable
  have source := source?_of_table? found isFree.notTable
  -- a table of this name may be there with its indexes, and both are left as they are then
  cases known : hasName store.indexNames ("idx_" ++ table ++ ending) with
  | true => exact ⟨_, define?_index_eq_some_iff.2 ⟨bare, notTable, _, source, .inl ⟨known, rfl⟩⟩⟩
  | false =>
      exact ⟨_, define?_index_eq_some_iff.2
        ⟨bare, notTable, _, source, .inr ⟨known, hasColumn_asTable held isColumn, rfl⟩⟩⟩

section

variable {kind : FieldKind} (takes : store.TakesNames tables (tables.flatMap indexesOf))

include takes

theorem TakesNames.defineAll_ofField
    (made : store.defineAll (Definition.ofField table kind) = (next, .ok ())) :
    next.TakesNames (tables ++ [table]) ((tables ++ [table]).flatMap indexesOf) := by
  obtain ⟨first, isFirst, made⟩ := defineAll_cons_eq_ok made
  obtain ⟨second, isSecond, made⟩ := defineAll_cons_eq_ok made
  obtain ⟨third, isThird, made⟩ := defineAll_cons_eq_ok made
  cases made
  have taken := ((takes.define?_table isFirst).define?_index isSecond).define?_index isThird
  rw [List.append_assoc] at taken
  rw [List.flatMap_append]
  exact taken

theorem areFree_of_defineAll_ofField (free : AreFree tables)
    (ordinary : hasName systemTables table = false)
    (made : store.defineAll (Definition.ofField table kind) = (next, .ok ())) :
    AreFree (tables ++ [table]) := by
  obtain ⟨first, isFirst, made⟩ := defineAll_cons_eq_ok made
  obtain ⟨second, isSecond, made⟩ := defineAll_cons_eq_ok made
  obtain ⟨third, isThird, -⟩ := defineAll_cons_eq_ok made
  obtain ⟨named, notEngine, known⟩ := define?_table_eq_some_iff.1 isFirst
  obtain ⟨-, pagesFree, -⟩ := define?_index_eq_some_iff.1 isSecond
  obtain ⟨-, dataFree, -⟩ := define?_index_eq_some_iff.1 isThird
  have takesFirst := takes.define?_table isFirst
  rw [takesFirst.tables] at pagesFree
  rw [(takesFirst.define?_index isSecond).tables] at dataFree
  have notIndex : hasName (systemIndexes ++ tables.flatMap indexesOf) table = false := by
    -- a name that is known is the table of an earlier field, whose name was found free
    rcases known with ⟨known, -⟩ | ⟨-, unknown, -⟩
    · rw [takes.tables, hasName_append, ordinary, Bool.false_or] at known
      exact free.hasName_indexes known
    · rwa [takes.indexes] at unknown
  rw [hasName_append, Bool.or_eq_false_iff, hasName_flatMap_indexesOf_eq_false_iff] at notIndex
  rw [hasName_eq_false_iff] at pagesFree dataFree
  refine areFree_concat_iff.2 ⟨free, ⟨named, notEngine, ordinary, notIndex.1⟩, fun other isOther =>
    ⟨notIndex.2 other isOther, ?_⟩⟩
  have among : other ∈ systemTables ++ (tables ++ [table]) :=
    List.mem_append_right _ (List.mem_append_left _ isOther)
  rw [hasName_indexesOf, Bool.or_eq_false_iff]
  exact ⟨(sameName_comm ..).trans (pagesFree other among),
    (sameName_comm ..).trans (dataFree other among)⟩

theorem exists_defineAll_ofField (free : AreFree (tables ++ [table])) :
    ∃ next, store.defineAll (Definition.ofField table kind) = (next, .ok ()) := by
  obtain ⟨-, isFree, others⟩ := areFree_concat_iff.1 free
  have first : ∃ first, store.define? (.table table kind.affinity) = some first := by
    cases known : hasName store.tableNames table with
    | true =>
        exact ⟨_, define?_table_eq_some_iff.2 ⟨isFree.isTableName, isFree.notEngine,
          .inl ⟨known, rfl⟩⟩⟩
    | false =>
        have notIndex : hasName store.indexNames table = false := by
          rw [takes.indexes, hasName_append, isFree.notIndex, Bool.false_or,
            hasName_flatMap_indexesOf_eq_false_iff]
          exact fun other isOther => (others other isOther).1
        exact ⟨_, define?_table_eq_some_iff.2 ⟨isFree.isTableName, isFree.notEngine,
          .inr ⟨known, notIndex, rfl⟩⟩⟩
  obtain ⟨first, isFirst⟩ := first
  have takesFirst := takes.define?_table isFirst
  have second : ∃ second,
      first.define? (.index ("idx_" ++ table ++ "_pages") table "pages_id") = some second :=
    exists_define?_index takesFirst free (by decide) (by decide)
  obtain ⟨second, isSecond⟩ := second
  have third : ∃ third,
      second.define? (.index ("idx_" ++ table ++ "_data") table "data") = some third :=
    exists_define?_index (takesFirst.define?_index isSecond) free (by decide) (by decide)
  obtain ⟨third, isThird⟩ := third
  exact exists_defineAll_cons_iff.2 ⟨first, isFirst, exists_defineAll_cons_iff.2 ⟨second, isSecond,
    exists_defineAll_cons_iff.2 ⟨third, isThird, third, rfl⟩⟩⟩

end

/-! ### Tables of all fields -/

theorem defineAll_eq (store : Store) (definitions : List Definition) :
    (store.defineAll definitions).2 = .ok () ∨
      (store.defineAll definitions).2 = .error (.database .rejectedStatement) := by
  induction definitions generalizing store with
  | nil => exact .inl rfl
  | cons definition definitions induction =>
      rw [defineAll]
      cases store.define? definition with
      | none => exact .inr rfl
      | some next => exact induction next

theorem ensureTables_eq {fields : List Field}
    (known : ∀ field ∈ fields, ∃ kind, field.kind? = .ok kind) (store : Store) :
    (store.ensureTables fields).2 = .ok () ∨
      (store.ensureTables fields).2 = .error (.database .rejectedStatement) := by
  induction fields generalizing store with
  | nil => exact .inl rfl
  | cons field fields induction =>
      obtain ⟨⟨kind, isKind⟩, known⟩ := List.forall_mem_cons.1 known
      have answer := defineAll_eq store (Definition.ofField field.table kind)
      rw [ensureTables, isKind]
      dsimp only
      rcases defined : store.defineAll (Definition.ofField field.table kind) with ⟨next, _ | _⟩
      · rw [defined] at answer
        exact answer
      · exact induction known next

theorem exists_ensureTables_iff {fields : List Field}
    (known : ∀ field ∈ fields, ∃ kind, field.kind? = .ok kind)
    (ordinary : ∀ field ∈ fields, hasName systemTables field.table = false)
    (takes : store.TakesNames tables (tables.flatMap indexesOf)) (free : AreFree tables) :
    (∃ next, store.ensureTables fields = (next, .ok ())) ↔
      AreFree (tables ++ fields.map Field.table) := by
  induction fields generalizing store tables with
  | nil => simpa [ensureTables] using free
  | cons field fields induction =>
      obtain ⟨⟨kind, isKind⟩, known⟩ := List.forall_mem_cons.1 known
      obtain ⟨ordinaryFirst, ordinary⟩ := List.forall_mem_cons.1 ordinary
      rw [ensureTables, isKind, List.map_cons, List.append_cons]
      dsimp only
      constructor
      · intro ensured
        rcases defined : store.defineAll (Definition.ofField field.table kind) with ⟨between, _ | _⟩
        · rw [defined] at ensured
          simp at ensured
        · rw [defined] at ensured
          have freeFirst := areFree_of_defineAll_ofField takes free ordinaryFirst defined
          exact (induction known ordinary (takes.defineAll_ofField defined) freeFirst).1 ensured
      · intro all
        have freeFirst : AreFree (tables ++ [field.table]) := all.mono (List.subset_append_left ..)
        obtain ⟨between, defined⟩ := exists_defineAll_ofField takes freeFirst
        rw [defined]
        exact (induction known ordinary (takes.defineAll_ofField defined) freeFirst).2 all

end Store

namespace Schema

variable {schema : Schema}

/-- The names of the tables of all fields are free in a new store. -/
def HasFreeTables (schema : Schema) : Prop :=
  Store.AreFree (schema.fields.map Field.table)

instance (schema : Schema) : Decidable schema.HasFreeTables :=
  inferInstanceAs (Decidable (Store.AreFree _))

namespace Valid

variable (valid : schema.Valid)

include valid

/-- Tables that are named for their fields are free. -/
theorem hasFreeTables (default : schema.HasDefaultTables) : schema.HasFreeTables := by
  have named : ∀ table ∈ schema.fields.map Field.table,
      "field_".toList <+: (foldName table).toList ∧ Schema.isTableName table = true := by
    intro table isTable
    obtain ⟨field, isField, rfl⟩ := List.mem_map.1 isTable
    obtain ⟨⟨name, declaration⟩, declared, rfl⟩ := List.mem_map.1 isField
    rw [default _ isField]
    refine ⟨prefix_foldName_defaultTable name, ?_⟩
    have prefixed : Schema.isTableName ("field_" ++ String.ofList name.toList) = true :=
      isTableName_append (by decide) (isAlphanum_or_of_isFieldName (valid.isFieldName declared))
    rwa [String.ofList_toList] at prefixed
  intro table isTable
  obtain ⟨begins, plain⟩ := named table isTable
  have unlike : foldName table ∉ "if" :: reservedWords := foldName_notMem (by decide) begins
  rw [List.mem_cons, not_or] at unlike
  refine ⟨⟨?_, ?_, Store.hasName_eq_false_of_prefix (by decide) begins,
    Store.hasName_eq_false_of_prefix (by decide) begins⟩, fun other isOther => ?_⟩
  · rw [Sql.isTableName, isBareName, isWord_of_isTableName plain, List.contains_eq_mem,
      decide_eq_false unlike.2, decide_eq_true unlike.1]
    rfl
  · rw [isEngineName, Bool.eq_false_iff]
    intro engine
    rcases List.prefix_or_prefix_of_prefix begins (List.isPrefixOf_iff_prefix.1 engine)
      with within | within <;> revert within <;> decide
  · rw [Store.hasName_eq_false_iff]
    intro index isIndex
    have ofIndex : "idx_".toList <+: (foldName index).toList := by
      rcases List.mem_pair.1 isIndex with rfl | rfl <;> exact Store.prefix_foldName_index ..
    rw [sameName_eq_false_iff]
    intro same
    rw [same] at ofIndex
    rcases List.prefix_or_prefix_of_prefix begins ofIndex with within | within <;>
      revert within <;> decide

/-- A new store makes tables for all fields of a valid schema just when their names are free. With
or without success, nothing but tables and indexes is added to the store. -/
theorem exists_ensureTables_new_iff (now : Date.Moment) :
    ((∃ store, (Store.new now).ensureTables schema.fields = (store, .ok ())) ↔
        schema.HasFreeTables) ∧
      ∀ store answer, (Store.new now).ensureTables schema.fields = (store, answer) →
        (answer = .ok () ∨ answer = .error (.database .rejectedStatement)) ∧
        (∃ tables indexes, store = { Store.new now with tables, indexes }) ∧
        (answer = .ok () → ∀ field ∈ schema.fields, ∃ affinity,
          store.source? field.table =
            some ⟨[("pages_id", .integer), ("data", affinity), ("sort", .integer)], []⟩) := by
  have known : ∀ field ∈ schema.fields, ∃ kind, field.kind? = .ok kind :=
    fun field isField => valid.exists_kind isField
  have free : Store.AreFree [] := fun table isTable => absurd isTable List.not_mem_nil
  constructor
  · constructor
    · rintro ⟨store, ensured⟩
      have ordinary : ∀ field ∈ schema.fields,
          Store.hasName Store.systemTables field.table = false := by
        intro field isField
        obtain ⟨-, -, ordinary⟩ := (Store.Reachable.fresh ensured).exists_table? isField
        exact ordinary
      exact (Store.exists_ensureTables_iff known ordinary (.new now) free).1 ⟨store, ensured⟩
    · intro all
      have ordinary : ∀ field ∈ schema.fields,
          Store.hasName Store.systemTables field.table = false :=
        fun field isField => (all field.table (List.mem_map_of_mem isField)).1.notTable
      exact (Store.exists_ensureTables_iff known ordinary (.new now) free).2 all
  · intro store answer ensured
    have answers := Store.ensureTables_eq known (Store.new now)
    obtain ⟨tables, indexes, kept⟩ := Store.exists_ensureTables (Store.new now) schema.fields
    rw [ensured] at answers kept
    refine ⟨answers, ⟨tables, indexes, kept⟩, ?_⟩
    rintro rfl field isField
    have reached := Store.Reachable.fresh ensured
    obtain ⟨table, found, ordinary⟩ := reached.exists_table? isField
    have empty := Store.rows_of_ensureTables_new ensured table (List.mem_of_find?_eq_some found)
    refine ⟨table.affinity, (Store.source?_of_table? found ordinary).trans ?_⟩
    rw [FieldTable.asTable, empty]
    rfl

end Valid

end Schema

/-- A valid schema that would keep a field in a page table. -/
def takenSchema : Schema :=
  [("layout", { kind := "text", table := some "templates", label := none })]

theorem takenSchema_has_no_tables :
    takenSchema.Valid ∧ ¬takenSchema.HasFreeTables ∧
      ¬∃ store, (Store.new ⟨0, false⟩).ensureTables takenSchema.fields = (store, .ok ()) := by
  have valid : takenSchema.Valid := by decide
  have taken : ¬takenSchema.HasFreeTables := by decide
  exact ⟨valid, taken, (valid.exists_ensureTables_new_iff ⟨0, false⟩).1.not.2 taken⟩

end PageTree
