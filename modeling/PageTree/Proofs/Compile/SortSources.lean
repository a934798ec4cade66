import PageTree.Proofs.Compile.Numbering

/-!
What sort keys read. A key on an attached field reads the table of the field, or the page that the
field refers to; a key on `parent` reads the parent page. The alias of what is read is put together
from a label and the column of the key, so labels that continue each other can meet in one alias.
Main statement: the keys of all selectors read their own sources just when no label of the schema
continues the label of another source.
-/

namespace PageTree

open Sql Text

/-! ### Sources -/

/-- Where the records of a sort key are kept. -/
inductive SortOrigin where
  | values (table : String)
  /-- The pages that the values in `table` refer to. -/
  | referredPages (table : String)
  | parentPage
  deriving DecidableEq, Repr

/-- What is joined for a sort key. -/
inductive SortSource where
  | value (field : Field)
  /-- The page that the value of `field` refers to. -/
  | reference (field : Field)
  | parent
  deriving DecidableEq, Repr

namespace SortSource

/-- What a key on an attached field is ordered by. -/
def ofField (field : Field) : SortSource :=
  if field.kind = FieldKind.page.name then .reference field else .value field

/-- Fields in one table read the same records. -/
def origin : SortSource → SortOrigin
  | .value field => .values field.table
  | .reference field => .referredPages field.table
  | .parent => .parentPage

/-- The part of an alias that tells the source. -/
def label : SortSource → String
  | .value field => field.name
  | .reference field => "page_" ++ field.name
  | .parent => "parent"

def aliasName (source : SortSource) (suffix : String) : String :=
  "_sort_" ++ source.label ++ suffix

/-- The join that reads the source. -/
def join (source : SortSource) (suffix : String) : Join :=
  let aliasName := source.aliasName suffix
  match source with
  | .value field => SortValue.sortJoin field.table aliasName (pageLink aliasName)
  | .reference field =>
    SortValue.referenceJoin aliasName ⟨(SortSource.value field).aliasName suffix, "data"⟩
  | .parent => SortValue.referenceJoin aliasName ⟨"pages", "parent_id"⟩

/-- The column that is read when the key names none. -/
def mainColumn : SortSource → String
  | .value _ => "data"
  | .reference _ => "name"
  | .parent => "name"

/-- The sources on the way to a source, itself included: a reference is found by a value. -/
def steps : SortSource → List SortSource
  | .reference field => [.value field, .reference field]
  | source => [source]

theorem mem_steps (source : SortSource) : source ∈ source.steps := by
  cases source <;> simp [steps]

theorem value_mem_steps {key : SortSource} {field : Field}
    (step : SortSource.reference field ∈ key.steps) : SortSource.value field ∈ key.steps := by
  cases key <;> simp_all [steps]

@[simp]
theorem aliasName_join (source : SortSource) (suffix : String) :
    (source.join suffix).aliasName = source.aliasName suffix := by
  cases source <;> rfl

/-- The condition of a join for the order is a lone test. -/
theorem exists_on_join (source : SortSource) (suffix : String) :
    ∃ test, (source.join suffix).on = .test test := by
  cases source <;> exact ⟨_, rfl⟩

theorem toList_aliasName (source : SortSource) (suffix : String) :
    (source.aliasName suffix).toList = "_sort_".toList ++ (source.label.toList ++ suffix.toList) := by
  rw [aliasName, String.toList_append, String.toList_append, List.append_assoc]

theorem head?_aliasName (source : SortSource) (suffix : String) :
    (source.aliasName suffix).toList.head? = some '_' := by
  rw [toList_aliasName]
  rfl

/-- References under one alias are found by values under one alias. -/
theorem aliasName_value_eq {field otherField : Field} {suffix otherSuffix : String}
    (same : (SortSource.reference field).aliasName suffix =
      (SortSource.reference otherField).aliasName otherSuffix) :
    (SortSource.value field).aliasName suffix =
      (SortSource.value otherField).aliasName otherSuffix := by
  have spelled := congrArg String.toList same
  simp only [toList_aliasName, label, String.toList_append, List.append_assoc,
    List.append_cancel_left_eq] at spelled
  apply String.ext
  rw [toList_aliasName, toList_aliasName, label, label, spelled]

theorem aliasName_reference_ne_parent (field : Field) (suffix otherSuffix : String) :
    (SortSource.reference field).aliasName suffix ≠ SortSource.parent.aliasName otherSuffix := by
  intro same
  have spelled := congrArg String.toList same
  simp [toList_aliasName, label, String.toList_append] at spelled

/-- Under one alias, one origin gives one join. -/
theorem join_eq {source other : SortSource} {suffix otherSuffix : String}
    (origin : source.origin = other.origin)
    (same : source.aliasName suffix = other.aliasName otherSuffix) :
    source.join suffix = other.join otherSuffix := by
  cases source with
  | value field =>
      cases other with
      | value otherField =>
          have table : field.table = otherField.table := SortOrigin.values.inj origin
          simp only [join, table, same]
      | reference | parent => cases origin
  | reference field =>
      cases other with
      | reference otherField =>
          simp only [join, same, aliasName_value_eq same]
      | value | parent => cases origin
  | parent =>
      cases other with
      | parent => simp only [join, same]
      | value | reference => cases origin

end SortSource

/-! ### Labels -/

/-- Is a label the other one, or the other one with an underscore after it and maybe more? -/
def ContinuesLabel (label other : String) : Prop :=
  other.toList ++ ['_'] <+: label.toList ++ ['_']

instance (label other : String) : Decidable (ContinuesLabel label other) :=
  inferInstanceAs (Decidable (_ <+: _))

/-- Texts meet behind two labels only when one label continues the other. -/
theorem ContinuesLabel.of_append_eq {label other : String} {rest otherRest : List Char}
    (begins : ∀ c ∈ rest.head?, c = '_') (otherBegins : ∀ c ∈ otherRest.head?, c = '_')
    (same : label.toList ++ rest = other.toList ++ otherRest) :
    ContinuesLabel label other ∨ ContinuesLabel other label := by
  have continues {front back tail : List Char} (spelled : back = front ++ tail)
      (begins : ∀ c ∈ tail.head?, c = '_') : front ++ ['_'] <+: back ++ ['_'] := by
    subst spelled
    cases tail with
    | nil => exact (List.append_nil front).symm ▸ List.prefix_rfl
    | cons c cs =>
        rw [begins c rfl]
        exact ⟨cs ++ ['_'], by simp⟩
  have beginning {tail back : List Char} {p : Char → Prop} (begins : ∀ c ∈ (tail ++ back).head?, p c) :
      ∀ c ∈ tail.head?, p c := by
    intro c isFirst
    exact begins c (by rw [List.head?_append, Option.mem_def.1 isFirst]; rfl)
  rcases List.append_eq_append_iff.1 same with ⟨tail, spelled, rfl⟩ | ⟨tail, spelled, rfl⟩
  · exact .inr (continues spelled (beginning begins))
  · exact .inl (continues spelled (beginning otherBegins))

namespace SortValue

variable {schema : Schema} {value : SortValue}

theorem head?_suffix (value : SortValue) : ∀ c ∈ value.suffix.toList.head?, c = '_' := by
  unfold suffix
  cases value.column with
  | none => simp
  | some column => simp [String.toList_append]

end SortValue

namespace Schema

/-- What a sort key on a name reads, other than the page itself. -/
def sortSource? (schema : Schema) (name : String) : Option SortSource :=
  if name = "random" then none
  else if name = "parent" then some .parent
  else if isNativeName name then none
  else (schema.field? name).map SortSource.ofField

/-- All that sort keys can read, other than the page itself. -/
def sortSources (schema : Schema) : List SortSource :=
  (("parent" :: List.map Prod.fst schema).filterMap schema.sortSource?).flatMap SortSource.steps

/-- Does no label continue the label of a source of another origin? -/
def HasApartLabels (schema : Schema) : Prop :=
  ∀ source ∈ schema.sortSources, ∀ other ∈ schema.sortSources,
    source.origin ≠ other.origin → ¬ ContinuesLabel source.label other.label

instance (schema : Schema) : Decidable schema.HasApartLabels :=
  inferInstanceAs (Decidable (∀ source ∈ schema.sortSources, _))

variable {schema : Schema}

theorem sortSource?_eq_some {name : String} {source : SortSource}
    (found : schema.sortSource? name = some source) :
    (name = "parent" ∧ source = .parent) ∨
      ∃ field, schema.field? name = some field ∧ source = .ofField field := by
  unfold sortSource? at found
  split at found
  · cases found
  split at found
  · next parent => exact .inl ⟨parent, (Option.some.inj found).symm⟩
  split at found
  · cases found
  · obtain ⟨field, isField, rfl⟩ := Option.map_eq_some_iff.1 found
    exact .inr ⟨field, isField, rfl⟩

theorem mem_sortSources {source : SortSource} :
    source ∈ schema.sortSources ↔
      ∃ name key, schema.sortSource? name = some key ∧ source ∈ key.steps := by
  simp only [sortSources, List.mem_flatMap, List.mem_filterMap]
  constructor
  · rintro ⟨key, ⟨name, -, found⟩, step⟩
    exact ⟨name, key, found, step⟩
  · rintro ⟨name, key, found, step⟩
    refine ⟨key, ⟨name, ?_, found⟩, step⟩
    rcases sortSource?_eq_some found with ⟨rfl, -⟩ | ⟨field, isField, -⟩
    · exact List.mem_cons_self ..
    · obtain ⟨declaration, declared, -⟩ := Option.map_eq_some_iff.1 isField
      exact List.mem_cons_of_mem _ (List.mem_map.2 ⟨_, Dictionary.mem_of_find? declared, rfl⟩)

theorem isNameRest_label (valid : schema.Valid) {source : SortSource}
    (isSource : source ∈ schema.sortSources) : ∀ c ∈ source.label.toList, isNameRest c = true := by
  obtain ⟨name, key, found, step⟩ := mem_sortSources.1 isSource
  rcases sortSource?_eq_some found with ⟨-, rfl⟩ | ⟨field, isField, rfl⟩
  · rw [List.mem_singleton.1 step]
    exact List.all_eq_true.1 (by decide : SortSource.parent.label.toList.all isNameRest = true)
  · have letters := isNameRest_of_isFieldName (valid.isUsable isField).name
    unfold SortSource.ofField at step
    split at step
    · rcases List.mem_pair.1 step with rfl | rfl
      · exact letters
      · intro c member
        rw [SortSource.label, String.toList_append, List.mem_append] at member
        rcases member with front | among
        · exact List.all_eq_true.1 (by decide : "page_".toList.all isNameRest = true) c front
        · exact letters c among
    · rw [List.mem_singleton.1 step]
      exact letters

/-- Sources of different origins never meet in an alias, whatever the case of letters. -/
theorem foldName_aliasName_ne (valid : schema.Valid) (apart : schema.HasApartLabels)
    {source other : SortSource} (isSource : source ∈ schema.sortSources)
    (isOther : other ∈ schema.sortSources) (different : source.origin ≠ other.origin)
    (value otherValue : SortValue) :
    foldName (source.aliasName value.suffix) ≠ foldName (other.aliasName otherValue.suffix) := by
  have spelled {source : SortSource} (isSource : source ∈ schema.sortSources) (suffix : String) :
      (foldName (source.aliasName suffix)).toList =
        "_sort_".toList ++ (source.label.toList ++ suffix.toList.map Char.toLower) := by
    have label := map_toLower_of_letters (isNameRest_label valid isSource)
    rw [foldName, String.toList_ofList, SortSource.toList_aliasName, List.map_append,
      List.map_append, label]
    rfl
  have begins (value : SortValue) : ∀ c ∈ (value.suffix.toList.map Char.toLower).head?, c = '_' := by
    intro c isFirst
    obtain ⟨first, isHead, rfl⟩ := Option.map_eq_some_iff.1 (List.head?_map ▸ isFirst)
    rw [value.head?_suffix first isHead]
    rfl
  intro same
  have equal := congrArg String.toList same
  rw [spelled isSource, spelled isOther, List.append_cancel_left_eq] at equal
  rcases ContinuesLabel.of_append_eq (begins value) (begins otherValue) equal with label | label
  · exact apart source isSource other isOther different label
  · exact apart other isOther source isSource different.symm label

end Schema

/-! ### Keys -/

namespace SortValue

variable {schema : Schema} {value : SortValue}

/-- The column that a key with the source is ordered by. -/
def sourceColumn (value : SortValue) (source : SortSource) : Column :=
  ⟨source.aliasName value.suffix, value.column.getD source.mainColumn⟩

/-- A key reads its source, or else the page itself or nothing at all. -/
theorem key?_eq (schema : Schema) (value : SortValue) :
    (∃ source, schema.sortSource? value.name = some source ∧
      value.key? schema = some (.column (value.sourceColumn source),
        source.steps.map fun step => step.join value.suffix)) ∨
    (schema.sortSource? value.name = none ∧ ∀ key ∈ value.key? schema, key.2 = [] ∧
      ∀ column, key.1 = .column column → column.aliasName = "pages") := by
  unfold key? Schema.sortSource?
  split
  · exact .inr ⟨rfl, by rintro _ ⟨⟩; exact ⟨rfl, by rintro _ ⟨⟩⟩⟩
  split
  · exact .inl ⟨.parent, rfl, rfl⟩
  split
  · next native =>
    refine .inr ⟨rfl, ?_⟩
    rintro _ ⟨⟩
    refine ⟨rfl, ?_⟩
    rintro _ ⟨⟩
    unfold nativeColumn
    split <;> rfl
  · cases schema.field? value.name with
    | none => exact .inr ⟨rfl, by rintro _ ⟨⟩⟩
    | some field =>
        refine .inl ⟨.ofField field, rfl, ?_⟩
        unfold fieldKey SortSource.ofField
        dsimp only [Option.map_some]
        split <;> rfl

end SortValue

namespace Selector

/-- The values of the sort terms that can be read, in the order written. -/
def sortValues (selector : Selector) : List SortValue :=
  ((selector.filter fun term => term.field = "sort").flatMap Term.values).filterMap SortValue.read?

theorem sortKeys_eq (schema : Schema) (selector : Selector) :
    selector.sortKeys schema = selector.sortValues.filterMap fun value =>
      (value.key? schema).map fun key =>
        ({ expression := key.1, descending := value.descending }, key.2) := by
  rw [sortKeys, sortValues, List.filterMap_filterMap]

end Selector

/-! ### Records of joins -/

namespace Join

/-- What stands under the alias of a join, where others may have added their conditions. -/
structure IsRecordOf (record join : Join) : Prop where
  kind : record.kind = join.kind
  table : record.table = join.table
  aliasName : record.aliasName = join.aliasName
  on : join.on ∈ record.on.conjuncts

variable {join : Join} {test : Test}

theorem test_mem_conjuncts_conj {condition other : Filter}
    (member : .test test ∈ condition.conjuncts) :
    .test test ∈ (Condition.conj [condition, other]).conjuncts := by
  have flat : .test test ∈ [condition, other].flatMap Condition.conjuncts :=
    List.mem_flatMap.2 ⟨condition, List.mem_cons_self .., member⟩
  unfold Condition.conj
  split
  · next alone =>
    rw [alone] at flat
    rw [← List.mem_singleton.1 flat]
    exact List.mem_singleton.2 rfl
  · exact flat

/-- The first join under an alias is the one that is recorded. -/
theorem exists_foldl_addTo_eq {record : Join} (isRecord : record.IsRecordOf join)
    (isTest : join.on = .test test) {later : List Join}
    (same : ∀ other ∈ later, other.aliasName = join.aliasName) :
    ∃ kept, later.foldl (fun merged join => join.addTo merged) [record] = [kept] ∧
      kept.IsRecordOf join := by
  induction later generalizing record with
  | nil => exact ⟨record, rfl, isRecord⟩
  | cons other later induction =>
      rw [List.forall_mem_cons] at same
      rw [List.foldl_cons, addTo, if_pos (isRecord.aliasName.trans same.1.symm)]
      split
      · exact induction isRecord same.2
      · refine induction ⟨isRecord.kind, isRecord.table, isRecord.aliasName, ?_⟩ same.2
        rw [isTest]
        exact test_mem_conjuncts_conj (isTest ▸ isRecord.on)

theorem exists_merge_eq (isTest : join.on = .test test) {later : List Join}
    (same : ∀ other ∈ later, other.aliasName = join.aliasName) :
    ∃ kept, merge (join :: later) = [kept] ∧ kept.IsRecordOf join :=
  exists_foldl_addTo_eq
    ⟨rfl, rfl, rfl, by rw [isTest]; exact List.mem_singleton.2 rfl⟩ isTest same

/-- Of merged joins the one under an alias is made for the first that has it, whatever follows. -/
theorem exists_filter_merge_eq (isTest : join.on = .test test) {front keys behind : List Join}
    (elsewhere : ∀ other ∈ front, other.aliasName ≠ join.aliasName)
    (own : ∀ other ∈ keys, other.aliasName = join.aliasName → other = join)
    (present : join ∈ keys) :
    ∃ record, (merge (front ++ keys ++ behind)).filter
        (fun other => other.aliasName = join.aliasName) = [record] ∧ record.IsRecordOf join := by
  let isHere (other : Join) : Bool := other.aliasName = join.aliasName
  have isPresent : join ∈ keys.filter isHere := List.mem_filter.2 ⟨present, decide_eq_true rfl⟩
  obtain ⟨first, rest, keyed⟩ := List.exists_cons_of_ne_nil (List.ne_nil_of_mem isPresent)
  have here : ∀ other ∈ first :: rest, other ∈ keys ∧ other.aliasName = join.aliasName := by
    intro other isOther
    rw [← keyed] at isOther
    exact ⟨(List.mem_filter.1 isOther).1, of_decide_eq_true (List.mem_filter.1 isOther).2⟩
  obtain ⟨isFirst, firstHere⟩ := here first (List.mem_cons_self ..)
  obtain rfl := own first isFirst firstHere
  have filtered : (front ++ keys ++ behind).filter isHere =
      first :: (rest ++ behind.filter isHere) := by
    rw [List.filter_append, List.filter_append, keyed,
      List.filter_eq_nil_iff.2 fun other isOther same =>
        elsewhere other isOther (of_decide_eq_true same)]
    rfl
  obtain ⟨record, alone, isRecord⟩ := exists_merge_eq isTest
    (List.forall_mem_append.2 ⟨fun other isOther => (here other (List.mem_cons_of_mem _ isOther)).2,
      fun other isOther => of_decide_eq_true (List.mem_filter.1 isOther).2⟩ :
      ∀ other ∈ rest ++ behind.filter isHere, other.aliasName = first.aliasName)
  exact ⟨record, by rw [filter_merge, ← alone, ← filtered], isRecord⟩

end Join

namespace Query

/-- The one join under the alias of `join` is made for it. -/
def Records (query : Query) (join : Join) : Prop :=
  ∃ record, query.joins.filter (fun other => other.aliasName = join.aliasName) = [record] ∧
    record.IsRecordOf join

theorem Records.table_eq {query : Query} {join other : Join} (records : query.Records join)
    (recordsOther : query.Records other) (same : join.aliasName = other.aliasName) :
    join.table = other.table := by
  obtain ⟨record, alone, isRecord⟩ := records
  obtain ⟨otherRecord, aloneOther, isOtherRecord⟩ := recordsOther
  rw [same, aloneOther] at alone
  cases alone
  exact isRecord.table.symm.trans isOtherRecord.table

/-- Every key that a query is ordered by reads the source of its own sort value. -/
structure SortsByOwn (query : Query) (schema : Schema) (values : List SortValue) : Prop where
  /-- The order of each value is by a column under its own alias, which is joined to the source of
  the value, as is all that leads there. -/
  keys : ∀ value ∈ values, ∀ source, schema.sortSource? value.name = some source →
    { expression := .column (value.sourceColumn source), descending := value.descending }
        ∈ query.orders ∧
      ∀ step ∈ source.steps, query.Records (step.join value.suffix)
  /-- A column outside the page table is ordered by for a value only. -/
  orders : ∀ order ∈ query.orders, ∀ column, order.expression = .column column →
    column.aliasName = "pages" ∨ ∃ value ∈ values, ∃ source,
      schema.sortSource? value.name = some source ∧ column = value.sourceColumn source
  /-- Values of different sources never meet in an alias, whatever the case of letters. -/
  apart : ∀ value ∈ values, ∀ source, schema.sortSource? value.name = some source →
    ∀ other ∈ values, ∀ otherSource, schema.sortSource? other.name = some otherSource →
      source.origin ≠ otherSource.origin →
        ¬ sameName (source.aliasName value.suffix) (otherSource.aliasName other.suffix)

end Query

namespace Selector

variable {catalog : Catalog} {selector : Selector} {query : Query}

theorem mem_sortKeys_joins {join : Join}
    (isJoin : join ∈ (selector.sortKeys catalog.schema).flatMap Prod.snd) :
    ∃ value ∈ selector.sortValues, ∃ source ∈ catalog.schema.sortSources,
      join = source.join value.suffix := by
  obtain ⟨key, isKey, among⟩ := List.mem_flatMap.1 isJoin
  rw [sortKeys_eq] at isKey
  obtain ⟨value, isValue, keyed⟩ := List.mem_filterMap.1 isKey
  obtain ⟨parts, found, rfl⟩ := Option.map_eq_some_iff.1 keyed
  rcases value.key?_eq catalog.schema with ⟨source, isSource, whole⟩ | ⟨-, other⟩
  · rw [whole] at found
    cases found
    obtain ⟨step, isStep, rfl⟩ := List.mem_map.1 among
    exact ⟨value, isValue, step, Schema.mem_sortSources.2 ⟨_, source, isSource, isStep⟩, rfl⟩
  · rw [(other parts found).1] at among
    cases among

theorem mem_sortKeys_of_sortSource? {value : SortValue} (isValue : value ∈ selector.sortValues)
    {source : SortSource} (found : catalog.schema.sortSource? value.name = some source) :
    ({ expression := .column (value.sourceColumn source), descending := value.descending },
      source.steps.map fun step => step.join value.suffix) ∈
        selector.sortKeys catalog.schema := by
  rw [sortKeys_eq]
  refine List.mem_filterMap.2 ⟨value, isValue, ?_⟩
  rcases value.key?_eq catalog.schema with ⟨other, isSource, whole⟩ | ⟨none, -⟩
  · rw [found] at isSource
    cases isSource
    rw [whole]
    rfl
  · rw [found] at none
    cases none

/-- The joins of paths and ancestors stand under other aliases than those of sort keys. -/
theorem aliasName_ne_of_mem_joins {parts : List Part}
    (compiled : Part.ofTerms catalog [] selector = .ok parts) {join : Join}
    (isJoin : join ∈ parts.flatMap Part.joins) (source : SortSource) (suffix : String) :
    join.aliasName ≠ (source.join suffix).aliasName := by
  intro same
  obtain ⟨part, isPart, among⟩ := List.mem_flatMap.1 isJoin
  obtain ⟨before, term, -, gives⟩ := Part.exists_term_of_mem compiled isPart
  have begins := Part.head?_joins gives among
  rw [same, SortSource.aliasName_join, SortSource.head?_aliasName] at begins
  exact absurd begins (by decide)

/-- Where sources have apart labels, the joins of keys are told by their aliases. -/
theorem eq_of_mem_sortKeys (valid : catalog.schema.Valid) (apart : catalog.schema.HasApartLabels)
    {join : Join} (isJoin : join ∈ (selector.sortKeys catalog.schema).flatMap Prod.snd)
    {source : SortSource} (isSource : source ∈ catalog.schema.sortSources) (value : SortValue)
    (same : join.aliasName = (source.join value.suffix).aliasName) :
    join = source.join value.suffix := by
  obtain ⟨other, -, otherSource, isOther, rfl⟩ := mem_sortKeys_joins isJoin
  rw [SortSource.aliasName_join, SortSource.aliasName_join] at same
  refine SortSource.join_eq ?_ same
  by_contra different
  exact Schema.foldName_aliasName_ne valid apart isOther isSource different other value
    (congrArg foldName same)

/-- Where sources have apart labels, what is joined for a key stands under an alias of its own. -/
theorem records_of_mem (valid : catalog.schema.Valid) (apart : catalog.schema.HasApartLabels)
    (compiled : selector.compile catalog = .ok query) {value : SortValue}
    (isValue : value ∈ selector.sortValues) {source : SortSource}
    (found : catalog.schema.sortSource? value.name = some source) {step : SortSource}
    (isStep : step ∈ source.steps) : query.Records (step.join value.suffix) := by
  obtain ⟨parts, areParts, rfl⟩ := map_eq_ok.1 compiled
  have isSource := Schema.mem_sortSources.2 ⟨_, source, found, isStep⟩
  obtain ⟨test, isTest⟩ := step.exists_on_join value.suffix
  exact Join.exists_filter_merge_eq isTest
    (fun join isJoin => aliasName_ne_of_mem_joins areParts isJoin step value.suffix)
    (fun join isJoin => eq_of_mem_sortKeys valid apart isJoin isSource value)
    (List.mem_flatMap.2 ⟨_, mem_sortKeys_of_sortSource? isValue found, List.mem_map_of_mem isStep⟩)

/-- Where sources have apart labels, all keys of a query read their own sources. -/
theorem sortsByOwn (valid : catalog.schema.Valid) (apart : catalog.schema.HasApartLabels)
    (compiled : selector.compile catalog = .ok query) :
    query.SortsByOwn catalog.schema selector.sortValues where
  keys value isValue source found := by
    refine ⟨?_, fun step isStep => records_of_mem valid apart compiled isValue found isStep⟩
    obtain ⟨parts, -, rfl⟩ := map_eq_ok.1 compiled
    refine List.mem_append_left _ (List.mem_reverse.2 ?_)
    exact List.mem_map_of_mem (mem_sortKeys_of_sortSource? isValue found)
  orders order isOrder column isColumn := by
    obtain ⟨parts, -, rfl⟩ := map_eq_ok.1 compiled
    rcases List.mem_append.1 isOrder with ofKey | ofScore
    · obtain ⟨key, isKey, rfl⟩ := List.mem_map.1 (List.mem_reverse.1 ofKey)
      rw [sortKeys_eq] at isKey
      obtain ⟨value, isValue, keyed⟩ := List.mem_filterMap.1 isKey
      obtain ⟨parts, given, rfl⟩ := Option.map_eq_some_iff.1 keyed
      rcases value.key?_eq catalog.schema with ⟨source, found, whole⟩ | ⟨-, other⟩
      · rw [whole] at given
        cases given
        cases isColumn
        exact .inr ⟨value, isValue, source, found, rfl⟩
      · exact .inl ((other parts given).2 column isColumn)
    · obtain ⟨score, -, rfl⟩ := List.mem_map.1 ofScore
      cases isColumn
  apart value _ source found other _ otherSource otherFound different same :=
    Schema.foldName_aliasName_ne valid apart
      (Schema.mem_sortSources.2 ⟨_, source, found, source.mem_steps⟩)
      (Schema.mem_sortSources.2 ⟨_, otherSource, otherFound, otherSource.mem_steps⟩)
      different value other (of_decide_eq_true same)

end Selector

/-! ### Labels that meet -/

theorem isPlainName_of_letters {cs : List Char} (some : cs ≠ [])
    (letters : ∀ c ∈ cs, Schema.isNameRest c = true) : isPlainName cs = true := by
  rw [isPlainName, Bool.and_eq_true, List.all_eq_true]
  exact ⟨by simpa using some, fun c member => isAlphanum_or_of_isNameRest (letters c member)⟩

/-- A label that continues another one meets it in an alias, for some columns. -/
theorem ContinuesLabel.exists_columns {source other : SortSource}
    (continues : ContinuesLabel source.label other.label)
    (letters : ∀ c ∈ source.label.toList, Schema.isNameRest c = true) :
    ∃ column otherColumn : String,
      isPlainName column.toList = true ∧ isPlainName otherColumn.toList = true ∧
        source.aliasName ("_" ++ column) = other.aliasName ("_" ++ otherColumn) := by
  obtain ⟨tail, spelled⟩ := continues
  rcases List.eq_nil_or_concat tail with rfl | ⟨rest, last, rfl⟩
  · rw [List.append_nil, List.append_cancel_right_eq] at spelled
    refine ⟨"a", "a", by decide, by decide, String.ext ?_⟩
    rw [SortSource.toList_aliasName, SortSource.toList_aliasName, spelled]
  · rw [List.concat_eq_append, ← List.append_assoc] at spelled
    obtain ⟨longer, -⟩ := List.append_inj' spelled rfl
    rw [← longer] at letters
    refine ⟨"a", String.ofList (rest ++ "_a".toList), by decide, ?_, String.ext ?_⟩
    · rw [String.toList_ofList]
      refine isPlainName_of_letters (by simp) fun c member => ?_
      rcases List.mem_append.1 member with among | last
      · exact letters c (List.mem_append_right _ among)
      · exact List.all_eq_true.1 (by decide : "_a".toList.all Schema.isNameRest = true) c last
    · rw [SortSource.toList_aliasName, SortSource.toList_aliasName, ← longer]
      simp

/-- The text of a sort value on a column. -/
def SortValue.textOn (name column : String) : String :=
  name ++ "." ++ column

theorem SortValue.read?_textOn {name column : String}
    (letters : ∀ c ∈ name.toList, Schema.isNameRest c = true)
    (plain : isPlainName column.toList = true) :
    read? (textOn name column) = some { name, column := some column, descending := false } := by
  have spelled : (textOn name column).toList = name.toList ++ '.' :: column.toList := by
    simp [textOn, String.toList_append]
  have unmarked : ∀ c ∈ name.toList ++ '.' :: column.toList, c ≠ '-' ∧ c ≠ '+' := by
    have other {c : Char} (letter : (c.isAlphanum || c = '_') = true) : c ≠ '-' ∧ c ≠ '+' := by
      constructor <;> (rintro rfl; exact absurd letter (by decide))
    intro c member
    rcases List.mem_append.1 member with ofName | later
    · exact other (isAlphanum_or_of_isNameRest (letters c ofName))
    rcases List.mem_cons.1 later with rfl | ofColumn
    · decide
    · exact other (isAlphanum_or_of_isPlainName plain c ofColumn)
  have first : (name.toList ++ '.' :: column.toList).head? ≠ some '-' := fun isFirst =>
    (unmarked '-' (List.mem_of_mem_head? isFirst)).1 rfl
  have last : (name.toList ++ '.' :: column.toList).getLast? ≠ some '-' := fun isLast =>
    (unmarked '-' (List.mem_of_mem_getLast? isLast)).1 rfl
  have trimmed : trimWhere (fun c => c = '-' || c = '+') (name.toList ++ '.' :: column.toList) =
      name.toList ++ '.' :: column.toList :=
    trimWhere_eq fun c member => by simp [unmarked c member]
  have free : '.' ∉ name.toList := fun member =>
    absurd (letters '.' member) (by decide)
  simp only [read?, spelled, trimmed, splitFirst?_append_sep free, plain, first, last,
    decide_false, Bool.or_self, if_true, String.ofList_toList]

theorem Schema.Valid.table_ne_pages {schema : Schema} (valid : schema.Valid) {name : String}
    {field : Field} (found : schema.field? name = some field) : field.table ≠ "pages" := by
  obtain ⟨declaration, declared, rfl⟩ := Option.map_eq_some_iff.1 found
  have none := valid.faults_eq_nil (Dictionary.mem_of_find? declared)
  simp only [faults, List.append_eq_nil_iff, List.map_eq_nil_iff] at none
  obtain ⟨⟨-, usable⟩, -⟩ := none
  cases table : declaration.table with
  | none =>
      intro same
      have spelled := congrArg String.toList same
      simp [FieldDeclaration.field, table, String.toList_append] at spelled
  | some written =>
      intro same
      have isPages : written = "pages" := by simpa [FieldDeclaration.field, table] using same
      simp [table, isPages, isUsableTable] at usable

/-- Where all that leads to two sources is recorded, an alias for both reads one origin. -/
theorem Query.origin_eq_of_records {query : Query} {key otherKey source other : SortSource}
    {suffix otherSuffix : String} (step : source ∈ key.steps) (otherStep : other ∈ otherKey.steps)
    (records : ∀ step ∈ key.steps, query.Records (step.join suffix))
    (otherRecords : ∀ step ∈ otherKey.steps, query.Records (step.join otherSuffix))
    (tables : ∀ field, .value field ∈ key.steps → field.table ≠ "pages")
    (otherTables : ∀ field, .value field ∈ otherKey.steps → field.table ≠ "pages")
    (same : source.aliasName suffix = other.aliasName otherSuffix) :
    source.origin = other.origin := by
  have table {source other : SortSource} (step : source ∈ key.steps)
      (otherStep : other ∈ otherKey.steps)
      (same : source.aliasName suffix = other.aliasName otherSuffix) :
      (source.join suffix).table = (other.join otherSuffix).table :=
    (records source step).table_eq (otherRecords other otherStep)
      (by rw [SortSource.aliasName_join, SortSource.aliasName_join, same])
  cases source with
  | value field =>
      cases other with
      | value otherField => exact congrArg SortOrigin.values (table step otherStep same)
      | reference | parent => exact absurd (table step otherStep same) (tables field step)
  | reference field =>
      cases other with
      | value otherField =>
          exact absurd (table step otherStep same).symm (otherTables otherField otherStep)
      | reference otherField =>
          exact congrArg SortOrigin.referredPages
            (table (SortSource.value_mem_steps step) (SortSource.value_mem_steps otherStep)
              (SortSource.aliasName_value_eq same))
      | parent => exact absurd same (SortSource.aliasName_reference_ne_parent field suffix otherSuffix)
  | parent =>
      cases other with
      | value otherField =>
          exact absurd (table step otherStep same).symm (otherTables otherField otherStep)
      | reference otherField =>
          exact absurd same.symm
            (SortSource.aliasName_reference_ne_parent otherField otherSuffix suffix)
      | parent => rfl

namespace Schema

variable {schema : Schema}

theorem table_ne_of_mem_steps (valid : schema.Valid) {name : String} {key : SortSource}
    (found : schema.sortSource? name = some key) :
    ∀ field, SortSource.value field ∈ key.steps → field.table ≠ "pages" := by
  intro field step
  rcases sortSource?_eq_some found with ⟨-, rfl⟩ | ⟨other, isField, rfl⟩
  · simp [SortSource.steps] at step
  · obtain rfl : field = other := by
      unfold SortSource.ofField at step
      split at step <;> simpa [SortSource.steps] using step
    exact valid.table_ne_pages isField

theorem isNameRest_of_sortSource? (valid : schema.Valid) {name : String} {key : SortSource}
    (found : schema.sortSource? name = some key) : ∀ c ∈ name.toList, isNameRest c = true := by
  rcases sortSource?_eq_some found with ⟨rfl, -⟩ | ⟨field, isField, -⟩
  · exact List.all_eq_true.1 (by decide : "parent".toList.all isNameRest = true)
  · obtain ⟨declaration, declared, -⟩ := Option.map_eq_some_iff.1 isField
    exact isNameRest_of_isFieldName (valid.isFieldName (Dictionary.mem_of_find? declared))

end Schema

/-- Sort terms with the given values alone. -/
def Selector.ofSortTexts (texts : List String) : Selector :=
  [{ fields := ["sort"], values := texts, operator := .equal, negated := false, text := "" }]

theorem Selector.exists_compile_ofSortTexts (catalog : Catalog) (texts : List String) :
    ∃ query, (ofSortTexts texts).compile catalog = .ok query :=
  ⟨_, rfl⟩

/-- A validated schema has sort keys that read their own sources in every selector just when no
label continues the label of a source of another origin. -/
theorem Selector.sortsByOwn_iff (catalog : Catalog) (valid : catalog.schema.Valid) :
    catalog.schema.HasApartLabels ↔
      ∀ (selector : Selector) (query : Query), selector.compile catalog = .ok query →
        query.SortsByOwn catalog.schema selector.sortValues := by
  constructor
  · exact fun apart selector query => sortsByOwn valid apart
  intro all source isSource other isOther different continues
  obtain ⟨name, key, found, step⟩ := Schema.mem_sortSources.1 isSource
  obtain ⟨otherName, otherKey, otherFound, otherStep⟩ := Schema.mem_sortSources.1 isOther
  obtain ⟨column, otherColumn, plain, otherPlain, same⟩ :=
    continues.exists_columns (Schema.isNameRest_label valid isSource)
  let value : SortValue := { name, column := some column, descending := false }
  let otherValue : SortValue := { name := otherName, column := some otherColumn, descending := false }
  let texts := [SortValue.textOn name column, SortValue.textOn otherName otherColumn]
  have values : (ofSortTexts texts).sortValues = [value, otherValue] := by
    have read := SortValue.read?_textOn (Schema.isNameRest_of_sortSource? valid found) plain
    have otherRead :=
      SortValue.read?_textOn (Schema.isNameRest_of_sortSource? valid otherFound) otherPlain
    simp [ofSortTexts, sortValues, texts, Term.field, read, otherRead, value, otherValue]
  obtain ⟨query, compiled⟩ := exists_compile_ofSortTexts catalog texts
  have sorts := all _ _ compiled
  rw [values] at sorts
  have records := (sorts.keys value (List.mem_cons_self ..) key found).2
  have otherRecords :=
    (sorts.keys otherValue (List.mem_cons_of_mem _ (List.mem_cons_self ..)) otherKey otherFound).2
  exact different (Query.origin_eq_of_records step otherStep records otherRecords
    (Schema.table_ne_of_mem_steps valid found) (Schema.table_ne_of_mem_steps valid otherFound) same)

/-- Keys on `a.sort` and on `a_sort` meet under one alias, which only one of them can read. -/
theorem Selector.sortsByOwn_iff_underscores :
    (∀ (selector : Selector) (query : Query),
      selector.compile (textCatalog ["a", "b_sort"]) = .ok query →
        query.SortsByOwn (textCatalog ["a", "b_sort"]).schema selector.sortValues) ∧
    ¬ ∀ (selector : Selector) (query : Query),
      selector.compile (textCatalog ["a", "a_sort"]) = .ok query →
        query.SortsByOwn (textCatalog ["a", "a_sort"]).schema selector.sortValues := by
  constructor
  · exact (Selector.sortsByOwn_iff (textCatalog ["a", "b_sort"]) (by decide)).1 (by decide)
  · intro all
    have apart := (Selector.sortsByOwn_iff (textCatalog ["a", "a_sort"]) (by decide)).2 all
    exact absurd apart (by decide)

end PageTree
