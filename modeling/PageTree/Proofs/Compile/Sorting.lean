import PageTree.Proofs.Compile.Frame

/-!
Queries that are sorted. A sort value without a column of its own reads a column of the page, the
name of the parent, or the value of a field, and what is joined for it stands under the name of its
label. Main statement: a selector compiles to the query of its other terms, with these tables joined
before all others that keep rows, and with the values as first orders, the last of them first.
-/

namespace PageTree

open Sql Text

namespace SortSource

variable {schema : Schema}

/-- Labels of validated schemas are told apart whatever the case of letters. -/
theorem foldName_aliasName (valid : schema.Valid) {source : SortSource}
    (isSource : source ∈ schema.sortSources) :
    foldName (source.aliasName "") = source.aliasName "" := by
  have label := map_toLower_of_letters (Schema.isNameRest_label valid isSource)
  apply String.ext
  rw [foldName, String.toList_ofList, toList_aliasName, List.map_append, List.map_append, label]
  rfl

theorem label_eq_of_aliasName_eq {source other : SortSource}
    (same : source.aliasName "" = other.aliasName "") : source.label = other.label := by
  have spelled := congrArg String.toList same
  rw [toList_aliasName, toList_aliasName, List.append_cancel_left_eq,
    List.append_cancel_right_eq] at spelled
  exact String.ext spelled

theorem kind_join (source : SortSource) (suffix : String) : (source.join suffix).kind = .left := by
  cases source <;> rfl

/-- Is the source found by the page alone? -/
def IsDirect (source : SortSource) : Prop :=
  ∀ field, source ≠ .reference field

theorem IsDirect.steps_eq {source : SortSource} (direct : source.IsDirect) :
    source.steps = [source] := by
  cases source with
  | reference field => exact absurd rfl (direct field)
  | value | parent => rfl

end SortSource

namespace SortValue

variable {schema : Schema} {value : SortValue}

/-- A sort value that names no column, and a page column, the parent or a field without
references. -/
structure IsPlain (schema : Schema) (value : SortValue) : Prop where
  column : value.column = none
  named : value.name = "parent" ∨ isNativeName value.name = true ∨
    value.name ≠ "random" ∧ ∃ field, schema.field? value.name = some field ∧
      field.kind ≠ FieldKind.page.name

/-- The column that a plain sort value is ordered by. -/
def keyColumn (schema : Schema) (value : SortValue) : Column :=
  (schema.sortSource? value.name).elim (nativeColumn value.name) value.sourceColumn

def order (schema : Schema) (value : SortValue) : Order :=
  { expression := .column (value.keyColumn schema), descending := value.descending }

theorem IsPlain.suffix_eq (plain : value.IsPlain schema) : value.suffix = "" := by
  rw [suffix, plain.column]

/-- What a plain sort value reads: its own source, or else a page column. -/
theorem IsPlain.sortSource?_eq (plain : value.IsPlain schema) :
    (schema.sortSource? value.name = none ∧ isNativeName value.name = true) ∨
      (schema.sortSource? value.name = some .parent ∧ value.name = "parent") ∨
      ∃ field, schema.sortSource? value.name = some (.value field) ∧
        schema.field? value.name = some field := by
  have ordinary : isNativeName "random" = false := by decide
  unfold Schema.sortSource?
  rcases plain.named with parent | native | ⟨random, field, isField, kind⟩
  · rw [parent]
    exact .inr (.inl ⟨rfl, rfl⟩)
  · have random : value.name ≠ "random" := fun same => by
      rw [same, ordinary] at native
      cases native
    rw [if_neg random]
    split
    · next parent => exact .inr (.inl ⟨rfl, parent⟩)
    · exact .inl ⟨rfl, native⟩
  · rw [if_neg random]
    split
    · next parent => exact .inr (.inl ⟨rfl, parent⟩)
    split
    · next native => exact .inl ⟨rfl, native⟩
    · refine .inr (.inr ⟨field, ?_, isField⟩)
      rw [isField, Option.map_some, SortSource.ofField, if_neg kind]

theorem IsPlain.isDirect (plain : value.IsPlain schema) {source : SortSource}
    (found : schema.sortSource? value.name = some source) :
    source.IsDirect ∧ source.label = value.name := by
  rcases plain.sortSource?_eq with ⟨none, -⟩ | ⟨parent, named⟩ | ⟨field, isValue, isField⟩
  · rw [none] at found
    cases found
  · obtain rfl := Option.some.inj (parent.symm.trans found)
    exact ⟨fun _ => SortSource.noConfusion, named.symm⟩
  · obtain rfl := Option.some.inj (isValue.symm.trans found)
    obtain ⟨declaration, -, rfl⟩ := Option.map_eq_some_iff.1 isField
    exact ⟨fun _ => SortSource.noConfusion, rfl⟩

theorem IsPlain.key?_eq (plain : value.IsPlain schema) :
    value.key? schema = some (.column (value.keyColumn schema),
      ((schema.sortSource? value.name).map fun source => source.join "").toList) := by
  rcases SortValue.key?_eq schema value with ⟨source, found, whole⟩ | ⟨none, -⟩
  · rw [whole, keyColumn, found, (plain.isDirect found).1.steps_eq, plain.suffix_eq]
    rfl
  · have random : value.name ≠ "random" := by
      rintro same
      rcases plain.named with parent | native | ⟨other, -⟩
      · exact absurd (parent.symm.trans same) (by decide)
      · rw [same] at native
        exact absurd native (by decide)
      · exact other same
    rcases plain.sortSource?_eq with ⟨-, native⟩ | ⟨parent, -⟩ | ⟨field, isValue, -⟩
    · have named : value.name ≠ "parent" := by
        intro parent
        rw [Schema.sortSource?, if_neg random, if_pos parent] at none
        cases none
      rw [key?, if_neg random, if_neg named, if_pos native, keyColumn, none]
      rfl
    · rw [none] at parent
      cases parent
    · rw [none] at isValue
      cases isValue

end SortValue

/-! ### Joins for sort values -/

namespace Schema

variable {schema : Schema} {values : List SortValue}

/-- What is joined for sort values, before it is merged. -/
def sortJoins (schema : Schema) (values : List SortValue) : List Join :=
  (values.filterMap fun value => schema.sortSource? value.name).map fun source => source.join ""

theorem mem_sortJoins {join : Join} :
    join ∈ schema.sortJoins values ↔
      ∃ value ∈ values, ∃ source, schema.sortSource? value.name = some source ∧
        join = source.join "" := by
  simp only [sortJoins, List.mem_map, List.mem_filterMap]
  constructor
  · rintro ⟨source, ⟨value, isValue, found⟩, rfl⟩
    exact ⟨value, isValue, source, found, rfl⟩
  · rintro ⟨value, isValue, source, found, rfl⟩
    exact ⟨source, ⟨value, isValue, found⟩, rfl⟩

variable (plain : ∀ value ∈ values, value.IsPlain schema)

include plain

theorem mem_merge_sortJoins {join : Join} :
    join ∈ Join.merge (schema.sortJoins values) ↔ join ∈ schema.sortJoins values := by
  refine Join.mem_merge_iff (fun one isOne another isAnother same => ?_) fun one isOne => ?_
  · obtain ⟨value, isValue, source, found, rfl⟩ := mem_sortJoins.1 isOne
    obtain ⟨other, isOther, otherSource, otherFound, rfl⟩ := mem_sortJoins.1 isAnother
    rw [SortSource.aliasName_join, SortSource.aliasName_join] at same
    have named := SortSource.label_eq_of_aliasName_eq same
    rw [((plain value isValue).isDirect found).2,
      ((plain other isOther).isDirect otherFound).2] at named
    rw [named, otherFound] at found
    rw [Option.some.inj found]
  · obtain ⟨-, -, source, -, rfl⟩ := mem_sortJoins.1 isOne
    exact source.exists_on_join ""

theorem nodup_merge_sortJoins (valid : schema.Valid) :
    ((Join.merge (schema.sortJoins values)).map fun join => foldName join.aliasName).Nodup := by
  have folded : ((Join.merge (schema.sortJoins values)).map fun join => foldName join.aliasName) =
      (Join.merge (schema.sortJoins values)).map Join.aliasName := by
    refine List.map_congr_left fun join isJoin => ?_
    obtain ⟨value, -, source, found, rfl⟩ := mem_sortJoins.1 ((mem_merge_sortJoins plain).1 isJoin)
    rw [SortSource.aliasName_join]
    exact SortSource.foldName_aliasName valid
      (mem_sortSources.2 ⟨_, source, found, source.mem_steps⟩)
  rw [folded]
  exact Join.nodup_merge _

omit plain in
theorem isFreeAlias_of_mem_sortJoins (valid : schema.Valid) {join : Join}
    (isJoin : join ∈ schema.sortJoins values) : IsFreeAlias join.aliasName := by
  obtain ⟨value, -, source, found, rfl⟩ := mem_sortJoins.1 isJoin
  have isSource := mem_sortSources.2 ⟨_, source, found, source.mem_steps⟩
  rw [SortSource.aliasName_join]
  have begins : "_sort_".toList <+: (foldName (source.aliasName "")).toList := by
    rw [SortSource.foldName_aliasName valid isSource, SortSource.toList_aliasName]
    exact List.prefix_append ..
  refine isFreeAlias_of_prefix ?_ begins (by decide)
  rw [SortSource.aliasName, String.append_empty]
  exact isWord_append (by decide) fun c member =>
    isNameChar_of_letter (isAlphanum_or_of_isNameRest (isNameRest_label valid isSource c member))

end Schema

namespace Selector

variable {schema : Schema} {selector : Selector}

theorem sortKeys_of_isPlain (plain : ∀ value ∈ selector.sortValues, value.IsPlain schema) :
    selector.sortKeys schema = selector.sortValues.map fun value => (value.order schema,
      ((schema.sortSource? value.name).map fun source => source.join "").toList) := by
  rw [sortKeys_eq, ← List.filterMap_eq_map]
  refine List.filterMap_congr fun value isValue => ?_
  rw [(plain value isValue).key?_eq]
  rfl

theorem flatMap_sortKeys_of_isPlain
    (plain : ∀ value ∈ selector.sortValues, value.IsPlain schema) :
    (selector.sortKeys schema).flatMap Prod.snd = schema.sortJoins selector.sortValues := by
  rw [sortKeys_of_isPlain plain, List.flatMap_map, Schema.sortJoins, List.map_filterMap,
    List.filterMap_eq_flatMap_toList]

end Selector

/-! ### Compiled queries -/

/-- The query is the other one, with values to be sorted by. -/
structure Query.Sorts (query other : Query) (schema : Schema) (values : List SortValue) :
    Prop where
  inner : query.joinsOf .inner = other.joinsOf .inner
  left : query.joinsOf .left = Join.merge (schema.sortJoins values) ++ other.joinsOf .left
  conjuncts : query.conjuncts = other.conjuncts
  scores : query.scores = other.scores
  orders : query.orders = (values.map (SortValue.order schema)).reverse ++ other.orders
  unsorted : other.orders = other.scores.map Order.ofScore
  window : query.window = none
  otherWindow : other.window = none

/-- Joins that drop rows, joins that keep them and others, each kind read off in its order. -/
theorem Query.joinsOf_of_append {query : Query} {first middle last : List Join}
    (joins : query.joins = first ++ middle ++ last) (inner : ∀ join ∈ first, join.kind = .inner)
    (left : ∀ join ∈ middle, join.kind = .left) :
    query.joinsOf .inner = first ++ last.filter (fun join => join.kind = .inner) ∧
      query.joinsOf .left = middle ++ last.filter (fun join => join.kind = .left) := by
  have all {joins : List Join} {kind : JoinKind} (each : ∀ join ∈ joins, join.kind = kind) :
      joins.filter (fun join => join.kind = kind) = joins :=
    List.filter_eq_self.2 fun join isJoin => decide_eq_true (each join isJoin)
  have none {joins : List Join} {kind other : JoinKind} (differ : kind ≠ other)
      (each : ∀ join ∈ joins, join.kind = kind) :
      joins.filter (fun join => join.kind = other) = [] :=
    List.filter_eq_nil_iff.2 fun join isJoin same =>
      differ ((each join isJoin).symm.trans (of_decide_eq_true same))
  constructor
  · rw [joinsOf, joins, List.filter_append, List.filter_append, all inner, none (by decide) left,
      List.append_nil]
  · rw [joinsOf, joins, List.filter_append, List.filter_append, all left, none (by decide) inner,
      List.nil_append]

namespace Selector

variable {catalog : Catalog} {selector : Selector} {parts others : List Part}

theorem sorts_assemble
    (plain : ∀ value ∈ selector.sortValues, value.IsPlain catalog.schema)
    (unlimited : ∀ term ∈ selector, term.kind ≠ .window)
    (compiled : Part.ofTerms catalog [] selector = .ok parts)
    (compiledToo : Part.ofTerms catalog [] selector.withoutSort = .ok others)
    (apart : catalog.schema.HasApartTables) (default : catalog.schema.HasDefaultTables) :
    (selector.assemble catalog parts).Sorts (selector.withoutSort.assemble catalog others)
      catalog.schema selector.sortValues := by
  have same : Part.total others = Part.total parts := by
    have totals := Part.map_total_ofTerms_withoutSort catalog [] selector
    rw [compiled, compiledToo] at totals
    exact Except.ok.inj totals
  simp only [Part.total, Part.mk.injEq] at same
  obtain ⟨-, joins, conjuncts, members, scores⟩ := same
  let frame := (Query.frame parts).joins
  let keyed := Join.merge (catalog.schema.sortJoins selector.sortValues)
  let grouped := (MemberGroup.ofRuns (parts.flatMap Part.members)).flatMap MemberGroup.joins
  have whole : (selector.assemble catalog parts).joins = frame ++ keyed ++ grouped := by
    rw [joins_assemble compiled apart default, flatMap_sortKeys_of_isPlain plain]
  have rest : (selector.withoutSort.assemble catalog others).joins = frame ++ [] ++ grouped := by
    rw [joins_assemble compiledToo apart default, sortKeys_withoutSort, members, Query.frame, joins]
    rfl
  have ofKeys : ∀ join ∈ keyed, join.kind = .left := by
    intro join isJoin
    obtain ⟨-, -, source, -, rfl⟩ :=
      Schema.mem_sortJoins.1 ((Schema.mem_merge_sortJoins plain).1 isJoin)
    exact source.kind_join ""
  have ofFrame : ∀ join ∈ frame, join.kind = .inner := fun join isJoin =>
    (Part.isOfTree_frame compiled join isJoin).kind
  obtain ⟨inner, left⟩ := Query.joinsOf_of_append whole ofFrame ofKeys
  obtain ⟨innerRest, leftRest⟩ := Query.joinsOf_of_append rest ofFrame (by simp)
  have unsorted := sortKeys_withoutSort catalog.schema selector
  have window {others : Selector} (among : ∀ term ∈ others, term ∈ selector) :
      others.window? catalog.pageNumber = none :=
    window?_eq_none (fun term isTerm limits =>
      unlimited term (among term isTerm) (Term.kind_eq_window_iff.2 (.inl limits))) _
  constructor
  · exact inner.trans innerRest.symm
  · rw [left, leftRest, List.nil_append]
  · simp only [assemble, conjuncts, members]
  · exact scores.symm
  · simp only [assemble, unsorted, scores, sortKeys_of_isPlain plain, List.map_map]
    rfl
  · simp only [assemble, unsorted]
    rfl
  · exact window fun _ => id
  · exact window fun _ => List.mem_of_mem_filter

end Selector

end PageTree
