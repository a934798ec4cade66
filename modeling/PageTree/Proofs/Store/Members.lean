import PageTree.Proofs.Store.Satisfaction

/-!
Members and the rows of their tables. Main statement: the join of a member can be matched with a
page so that the condition of the member holds just when the page satisfies one of the values that
the member asks for.
-/

namespace PageTree

open Sql Text

/-! ### Tables of fields -/

/-- The table of a field as queries see it. -/
def FieldTable.asTable (table : FieldTable) : Table :=
  { columns := table.columns, records := table.rows.map FieldRow.record }

namespace FieldTable

variable (table : FieldTable) (row : FieldRow)

theorem findIdx?_columns (name : String) :
    (table.asTable.columns.findIdx? fun column => sameName column.1 name) =
      ["pages_id", "data", "sort"].findIdx? fun other => sameName other name := rfl

theorem cell_page : table.asTable.cell row.record "pages_id" = .integer row.page :=
  Table.cell_eq ((table.findIdx?_columns _).trans (by decide : _ = some 0)) rfl

theorem cell_data : table.asTable.cell row.record "data" = row.data :=
  Table.cell_eq ((table.findIdx?_columns _).trans (by decide : _ = some 1)) rfl

theorem affinity?_page : table.asTable.affinity? "pages_id" = some .integer := by
  have same : sameName "pages_id" "pages_id" = true := sameName_refl _
  simp [Table.affinity?, asTable, columns, same]

theorem affinity?_data : table.asTable.affinity? "data" = some table.affinity := by
  have same : sameName "data" "data" = true := sameName_refl _
  have other : sameName "pages_id" "data" = false := by decide
  simp [Table.affinity?, asTable, columns, same, other]

theorem hasColumn_page : table.asTable.hasColumn "pages_id" = true := by
  have same : sameName "pages_id" "pages_id" = true := sameName_refl _
  simp [Table.hasColumn, asTable, columns, same]

theorem hasColumn_data : table.asTable.hasColumn "data" = true := by
  have same : sameName "data" "data" = true := sameName_refl _
  simp [Table.hasColumn, asTable, columns, same]

end FieldTable

/-- A member whose table the store keeps, with what it asks for. -/
structure Store.Keeps (store : Store) (now : Date.Moment) (term : Term) (field : Field)
    (member : Member) (kind : FieldKind) (table : FieldTable) : Prop where
  filters : term.IsAttachedFilter
  memberOf : ∃ branches, member.IsMemberOf now term field kind branches
  source : store.source? member.table = some table.asTable
  found : store.table? field.table = some table
  converted : table.affinity = kind.affinity

theorem Store.source?_eq {store : Store} {name : String} {table : FieldTable}
    (found : store.table? name = some table)
    (named : "field_".toList <+: (foldName name).toList) :
    store.source? name = some table.asTable := by
  have other (word : String) (lower : foldName word = word)
      (differs : [word].all (fun word => !"field_".toList.isPrefixOf word.toList) = true) :
      sameName name word = false := by
    rw [Bool.eq_false_iff]
    intro same
    refine Schema.foldName_notMem differs named (List.mem_singleton.2 ?_)
    exact (of_decide_eq_true same).trans lower
  rw [source?, other "pages" (by decide) (by decide), other "pages_parents" (by decide) (by decide),
    other "templates" (by decide) (by decide), found]
  rfl

/-! ### A member in a plan -/

namespace Member

/-- The column that links the member's table to a page. -/
def page (member : Member) : Column :=
  ⟨member.aliasName, "pages_id"⟩

def source (member : Member) (table : FieldTable) : Source :=
  { aliasName := member.aliasName, table := table.asTable }

variable (member : Member) (table : FieldTable)

theorem provides_page : (member.source table).provides member.page = true := by
  rw [Source.provides, Bool.and_eq_true]
  exact ⟨sameName_refl _, table.hasColumn_page⟩

theorem provides_data : (member.source table).provides member.data = true := by
  rw [Source.provides, Bool.and_eq_true]
  exact ⟨sameName_refl _, table.hasColumn_data⟩

end Member

namespace Plan

variable {plan : Plan} {store : Store} {member : Member} {table : FieldTable}

theorem affinity_of_resolves {column : Column} (resolved : plan.resolves column = true)
    {source : Source} (isSource : source ∈ plan.sources)
    (own : source.provides column = true) :
    plan.affinity column = (source.table.affinity? column.name).getD .text := by
  rw [resolves, decide_eq_true_eq, List.length_eq_one_iff] at resolved
  obtain ⟨sole, only⟩ := resolved
  have isSole : source = sole :=
    List.mem_singleton.1 (only ▸ List.mem_filter.2 ⟨isSource, own⟩)
  rw [affinity, affinityIn, ← List.head?_filter, only, ← isSole]
  rfl

/-- The plan reads the table of a member under the member's alias. -/
structure Reads (plan : Plan) (store : Store) (member : Member) (table : FieldTable) : Prop where
  base : plan.base = store.baseSource
  source : ∃ joined ∈ plan.inner ++ plan.left, joined.source = member.source table
  data : plan.resolves member.data = true
  page : plan.resolves member.page = true
  id : plan.resolves Query.idColumn = true

namespace Reads

variable (reads : plan.Reads store member table)

include reads

theorem mem_sources : member.source table ∈ plan.sources := by
  obtain ⟨joined, isJoined, same⟩ := reads.source
  exact List.mem_cons_of_mem _ (List.mem_map.2 ⟨joined, isJoined, same⟩)

theorem affinity_data : plan.affinity member.data = table.affinity := by
  rw [affinity_of_resolves reads.data reads.mem_sources (member.provides_data table)]
  exact congrArg (fun affinity => affinity.getD .text) table.affinity?_data

theorem affinity_page : plan.affinity member.page = .integer := by
  rw [affinity_of_resolves reads.page reads.mem_sources (member.provides_page table)]
  exact congrArg (fun affinity => affinity.getD .text) table.affinity?_page

theorem provides_id : plan.base.provides Query.idColumn = true :=
  reads.base ▸ store.provides_of_pageColumn (by decide)

theorem not_provides_id : (member.source table).provides Query.idColumn = false := by
  obtain ⟨joined, isJoined, same⟩ := reads.source
  rw [← same]
  exact not_provides_of_base reads.id reads.provides_id isJoined

/-- The link between the member's table and the page holds for the rows of the page. -/
theorem holds_pageLink (page : Page) (row : FieldRow) :
    plan.holds ((plan.pageBinding page.record).extend (member.source table) (some row.record))
      (pageLink member.aliasName) = decide (row.page = page.id) := by
  have own : ((plan.pageBinding page.record).extend (member.source table) (some row.record))
      member.page = .integer row.page := by
    rw [Binding.extend_of_provides (member.provides_page table)]
    exact table.cell_page row
  have id : ((plan.pageBinding page.record).extend (member.source table) (some row.record))
      Query.idColumn = .integer page.id := by
    rw [Binding.extend_of_not_provides reads.not_provides_id, pageBinding,
      Binding.extend_of_provides reads.provides_id, reads.base]
    exact store.cell_id page
  exact holds_equal_integer reads.affinity_page own id

end Reads

/-! ### Conditions of members -/

/-- What the values of a row, or missing ones, say to a value that was asked for. -/
def answers (kind : FieldKind) (now : Date.Moment) (operator : Operator) (page data : Value)
    (value : String) : Bool :=
  if operator.isEquality && value = "" then decide (operator = .equal ↔ page = .null)
  else kind.accepts now operator value data

theorem any_filters {now : Date.Moment} {kind : FieldKind} {operator : Operator} {value : String}
    (asking : operator = .containsWords → words value.toList ≠ []) {found : Member.Branch}
    (branched : Member.branch now kind member.data operator value = .ok found)
    (converted : plan.affinity member.data = kind.affinity) (binding : Binding) :
    found.filters.any (plan.holds binding) =
      answers kind now operator (binding member.page) (binding member.data) value := by
  unfold Member.branch at branched
  have asks : Member.asksForRow member.data.name operator value =
      (operator.isEquality && decide (value = "")) := by
    simp [Member.asksForRow, Member.data]
  rw [asks] at branched
  unfold answers
  split at branched
  · next blank =>
    cases branched
    rw [if_pos blank, Member.Branch.filters, List.any_cons, List.any_nil, Bool.or_false]
    unfold Member.rowFilter
    by_cases equal : operator = .equal
    · rw [if_pos equal, holds_test, Test.truth, Truth.isYes_ofBool, Bool.eq_iff_iff,
        decide_eq_true_eq, decide_eq_true_eq]
      exact (iff_true_left equal).symm
    · rw [if_neg equal, holds_test, Test.truth, Truth.isYes_ofBool, Bool.eq_iff_iff,
        decide_eq_true_eq, decide_eq_true_eq]
      exact (iff_false_left equal).symm
  · next given =>
    obtain ⟨matching, matched, rfl⟩ := map_eq_ok.1 branched
    have found := FieldKind.matching_eq_ok matched
    have some := FieldKind.tests_ne_nil asking found
    rw [if_neg given, Member.Branch.filters, if_neg (by simpa using some), List.any_cons,
      List.any_nil, Bool.or_false, holds_conj, List.all_map, ← FieldKind.accepts_eq found converted]
    rfl

theorem isBlank_branch {now : Date.Moment} {kind : FieldKind} {operator : Operator}
    {value : String} {found : Member.Branch}
    (branched : Member.branch now kind member.data operator value = .ok found) :
    (operator.isEquality && decide (value = "")) = found.isBlank := by
  unfold Member.branch at branched
  have asks : Member.asksForRow member.data.name operator value =
      (operator.isEquality && decide (value = "")) := by
    simp [Member.asksForRow, Member.data]
  rw [asks] at branched
  split at branched
  · next blank =>
    cases branched
    exact blank
  · next given =>
    obtain ⟨matching, -, rfl⟩ := map_eq_ok.1 branched
    exact Bool.eq_false_iff.2 given

theorem record_mem {joined : JoinedSource} (source : joined.source = member.source table)
    {row : FieldRow} (isRow : row ∈ table.rows) :
    row.record ∈ joined.source.table.records := by
  rw [source]
  exact List.mem_map.2 ⟨row, isRow, rfl⟩

/-- A member whose table the plan reads, with what it asks for. -/
structure Asks (plan : Plan) (store : Store) (now : Date.Moment) (term : Term) (field : Field)
    (member : Member) (kind : FieldKind) (table : FieldTable) : Prop extends
    store.Keeps now term field member kind table where
  reads : plan.Reads store member table

namespace Asks

variable {now : Date.Moment} {term : Term} {field : Field} {kind : FieldKind}
  (asks : plan.Asks store now term field member kind table)

include asks

theorem asking : ∀ value ∈ term.values,
    term.operator = .containsWords → words value.toList ≠ [] :=
  fun value member isWords => asks.filters.asking isWords value member

theorem holds_condition (binding : Binding) :
    plan.holds binding member.condition =
      term.values.any
        (answers kind now term.operator (binding member.page) (binding member.data)) := by
  obtain ⟨branches, memberOf⟩ := asks.memberOf
  have converted := asks.reads.affinity_data.trans asks.converted
  rw [memberOf.condition, holds_disj, List.any_flatMap]
  have each := (List.forall₂_and_left _ _).2 ⟨asks.asking, memberOf.branched⟩
  symm
  exact any_eq_of_forall₂ each fun value found both =>
    (any_filters both.1 both.2 converted binding).symm

theorem holds_condition_row (start : Binding) (row : FieldRow) :
    plan.holds (start.extend (member.source table) (some row.record)) member.condition =
      term.values.any (answers kind now term.operator (.integer row.page) row.data) := by
  rw [asks.holds_condition, Binding.extend_of_provides (member.provides_page table),
    Binding.extend_of_provides (member.provides_data table)]
  exact congrArg₂ (fun page data => term.values.any (answers kind now term.operator page data))
    (table.cell_page row) (table.cell_data row)

theorem holds_condition_none (start : Binding) :
    plan.holds (start.extend (member.source table) none) member.condition =
      term.values.any (answers kind now term.operator .null .null) := by
  rw [asks.holds_condition, Binding.extend_none (member.provides_page table),
    Binding.extend_none (member.provides_data table)]

theorem blank_eq : member.blank =
    term.values.any fun value => term.operator.isEquality && decide (value = "") := by
  obtain ⟨branches, memberOf⟩ := asks.memberOf
  rw [memberOf.blank]
  exact (any_eq_of_forall₂ memberOf.branched fun value found => isBlank_branch).symm

/-- The records that match a page are the rows of the page that have what was asked for, or all rows
of the page where the condition stays out of the join. -/
theorem holdsFor_row {joined : JoinedSource} (on : joined.join.on = member.leftJoin.on)
    (source : joined.source = member.source table) (page : Page) (row : FieldRow) :
    joined.holdsFor plan.affinity (plan.pageBinding page.record) row.record =
      (decide (row.page = page.id) && (member.blank ||
        term.values.any (answers kind now term.operator (.integer row.page) row.data))) := by
  rw [holdsFor_eq, on, source, Member.leftJoin]
  dsimp only
  cases member.blank with
  | true => rw [if_pos rfl, asks.reads.holds_pageLink, Bool.true_or, Bool.and_true]
  | false =>
      rw [if_neg Bool.false_ne_true, Member.link, holds_conj, List.all_cons, List.all_cons,
        List.all_nil, Bool.and_true, asks.reads.holds_pageLink, asks.holds_condition_row,
        Bool.false_or]

theorem hasValue_eq (page : Page) (accepted : Value → Bool) :
    store.hasValue field page accepted =
      table.rows.any fun row => row.page = page.id && accepted row.data := by
  rw [Store.hasValue, asks.found]
  rfl

theorem satisfiesValue_eq (page : Page) (value : String) :
    store.satisfiesValue now field term.operator page value =
      if term.operator.isEquality && value = "" then
        if term.operator = .equal then !store.hasValue field page fun _ => true
        else store.hasValue field page fun _ => true
      else store.hasValue field page (kind.accepts now term.operator value) := by
  obtain ⟨branches, memberOf⟩ := asks.memberOf
  rw [Store.satisfiesValue, memberOf.isKind]

theorem blank_of_mem {value : String} (isValue : value ∈ term.values)
    (isBlank : (term.operator.isEquality && decide (value = "")) = true) : member.blank = true := by
  rw [asks.blank_eq]
  exact List.any_eq_true.2 ⟨value, isValue, isBlank⟩

/-- A row of the page that answers a value is a match that fulfils the condition. -/
theorem exists_match_of_row {joined : JoinedSource}
    (on : joined.join.on = member.leftJoin.on) (source : joined.source = member.source table)
    {page : Page} {row : FieldRow} (isRow : row ∈ table.rows)
    (isPage : decide (row.page = page.id) = true) {value : String} (isValue : value ∈ term.values)
    (answered : answers kind now term.operator (.integer row.page) row.data value = true) :
    ∃ record, plan.IsMatch (plan.pageBinding page.record) joined record ∧
      plan.holds ((plan.pageBinding page.record).extend joined.source record) member.condition =
        true := by
  have some : term.values.any
      (answers kind now term.operator (.integer row.page) row.data) = true :=
    List.any_eq_true.2 ⟨value, isValue, answered⟩
  refine ⟨row.record, ⟨record_mem source isRow, ?_⟩, ?_⟩
  · rw [asks.holdsFor_row on source, isPage, some, Bool.or_true, Bool.and_true]
  · rw [source, asks.holds_condition_row, some]

/-- A page that satisfies a value has a match that says so. -/
theorem exists_match_of_satisfies {joined : JoinedSource}
    (on : joined.join.on = member.leftJoin.on) (source : joined.source = member.source table)
    {page : Page} {value : String} (isValue : value ∈ term.values)
    (satisfied : store.satisfiesValue now field term.operator page value = true) :
    ∃ record, plan.IsMatch (plan.pageBinding page.record) joined record ∧
      plan.holds ((plan.pageBinding page.record).extend joined.source record) member.condition =
        true := by
  rw [asks.satisfiesValue_eq] at satisfied
  split at satisfied
  · next blank =>
    split at satisfied
    · next equal =>
      rw [asks.hasValue_eq, Bool.not_eq_true', List.any_eq_false] at satisfied
      refine ⟨none, ?_, ?_⟩
      · intro record member
        rw [source] at member
        obtain ⟨row, isRow, rfl⟩ := List.mem_map.1 member
        have elsewhere := satisfied row isRow
        rw [Bool.and_true, Bool.not_eq_true] at elsewhere
        rw [asks.holdsFor_row on source, elsewhere, Bool.false_and]
      · rw [source, asks.holds_condition_none]
        refine List.any_eq_true.2 ⟨value, isValue, ?_⟩
        rw [answers, if_pos blank, equal]
        rfl
    · next unequal =>
      rw [asks.hasValue_eq] at satisfied
      obtain ⟨row, isRow, isPage⟩ := List.any_eq_true.1 satisfied
      rw [Bool.and_true] at isPage
      refine asks.exists_match_of_row on source isRow isPage isValue ?_
      rw [answers, if_pos blank]
      simp [unequal]
  · next given =>
    rw [asks.hasValue_eq] at satisfied
    obtain ⟨row, isRow, accepted⟩ := List.any_eq_true.1 satisfied
    rw [Bool.and_eq_true] at accepted
    refine asks.exists_match_of_row on source isRow accepted.1 isValue ?_
    rw [answers, if_neg given]
    exact accepted.2

/-- A match that fulfils the condition shows a value that the page satisfies. -/
theorem exists_satisfied_of_match {joined : JoinedSource}
    (on : joined.join.on = member.leftJoin.on) (source : joined.source = member.source table)
    {page : Page} {record : Option Record}
    (matching : plan.IsMatch (plan.pageBinding page.record) joined record)
    (holds : plan.holds ((plan.pageBinding page.record).extend joined.source record)
      member.condition = true) :
    ∃ value ∈ term.values, store.satisfiesValue now field term.operator page value = true := by
  rw [source] at holds
  cases record with
  | none =>
      rw [asks.holds_condition_none] at holds
      obtain ⟨value, isValue, answered⟩ := List.any_eq_true.1 holds
      refine ⟨value, isValue, ?_⟩
      rw [asks.satisfiesValue_eq]
      unfold answers at answered
      split at answered
      · next blank =>
        have equal : term.operator = .equal := (of_decide_eq_true answered).2 rfl
        rw [if_pos blank, if_pos equal, asks.hasValue_eq, Bool.not_eq_true', List.any_eq_false]
        intro row isRow
        have unmatched := matching row.record (record_mem source isRow)
        rw [asks.holdsFor_row on source, asks.blank_of_mem isValue blank, Bool.true_or]
          at unmatched
        rw [unmatched]
        exact Bool.false_ne_true
      · rw [FieldKind.accepts_null (asks.asking value isValue)] at answered
        cases answered
  | some record =>
      obtain ⟨isRecord, matched⟩ := matching
      rw [source] at isRecord
      obtain ⟨row, isRow, rfl⟩ := List.mem_map.1 isRecord
      rw [asks.holdsFor_row on source, Bool.and_eq_true] at matched
      rw [asks.holds_condition_row] at holds
      obtain ⟨value, isValue, answered⟩ := List.any_eq_true.1 holds
      refine ⟨value, isValue, ?_⟩
      rw [asks.satisfiesValue_eq]
      unfold answers at answered
      split at answered
      · next blank =>
        have unequal : term.operator ≠ .equal := fun equal => by simp [equal] at answered
        rw [if_pos blank, if_neg unequal, asks.hasValue_eq]
        exact List.any_eq_true.2 ⟨row, isRow, by rw [Bool.and_true]; exact matched.1⟩
      · next given =>
        rw [if_neg given, asks.hasValue_eq]
        exact List.any_eq_true.2 ⟨row, isRow, Bool.and_eq_true_iff.2 ⟨matched.1, answered⟩⟩

/-- Without blanks the join itself asks for the condition. -/
theorem holds_of_match {joined : JoinedSource} (on : joined.join.on = member.leftJoin.on)
    (source : joined.source = member.source table) (filled : member.blank = false) {page : Page}
    {record : Record}
    (matching : plan.IsMatch (plan.pageBinding page.record) joined (some record)) :
    plan.holds ((plan.pageBinding page.record).extend joined.source (some record))
      member.condition = true := by
  obtain ⟨isRecord, matched⟩ := matching
  rw [source] at isRecord
  obtain ⟨row, isRow, rfl⟩ := List.mem_map.1 isRecord
  rw [asks.holdsFor_row on source, filled, Bool.false_or, Bool.and_eq_true] at matched
  rw [source, asks.holds_condition_row]
  exact matched.2

/-- Without blanks a missing row fulfils no condition. -/
theorem not_holds_none (filled : member.blank = false) (start : Binding) :
    plan.holds (start.extend (member.source table) none) member.condition = false := by
  rw [asks.holds_condition_none, List.any_eq_false]
  intro value isValue
  rw [asks.blank_eq, List.any_eq_false] at filled
  rw [answers, if_neg (filled value isValue), FieldKind.accepts_null (asks.asking value isValue)]
  exact Bool.false_ne_true

end Asks

end Plan

end PageTree
