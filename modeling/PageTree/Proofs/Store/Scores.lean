import Mathlib.Algebra.Ring.Nat
import PageTree.Proofs.Compile.Scores
import PageTree.Proofs.Sql.Occurrences
import PageTree.Proofs.Store.Alternatives
import PageTree.Proofs.Store.Values

/-!
Relevance of pages. The table of a field has at most one row of a page, so a joined row shows of it
either the text that the page has in the field or, where the join found no match, nothing. Main
statement: nothing is shown only where the text has none of the values that are looked for, so that a
relevance column counts how often the text of the page has its value.
-/

namespace PageTree

open Sql Text

/-! ### Texts of pages -/

namespace Store

section

variable (store : Store) (schema : Schema) (page : Page)

/-- The text of a page in the field with a name; a page without a row has none. -/
def textIn? (name : String) : Option String :=
  (schema.field? name).bind fun field =>
    (store.valuesOf field.table page.id).head?.bind Value.text?

def occurrencesOf (search : Search) : Nat :=
  (store.textIn? schema page search.name).elim 0 fun text =>
    occurrences (lower search.value.toList) (lower text.toList)

/-- How often the texts of a page have what a selector ranks pages by. -/
def relevance (selector : Selector) : Nat :=
  (selector.searches.map (store.occurrencesOf schema page)).sum

end

/-- Has no text of a field a null character in it? -/
def HasNullFreeTexts (store : Store) : Prop :=
  ∀ row ∈ store.fieldRows, ∀ text ∈ row.data.text?, '\x00' ∉ text.toList

instance (store : Store) : Decidable store.HasNullFreeTexts :=
  inferInstanceAs (Decidable (∀ row ∈ store.fieldRows, ∀ text ∈ row.data.text?, _))

theorem mem_fieldRows {store : Store} {name : String} {table : FieldTable}
    (found : store.table? name = some table) {row : FieldRow} (isRow : row ∈ table.rows) :
    row ∈ store.fieldRows :=
  List.mem_flatMap.2 ⟨table, List.mem_of_find?_eq_some found, isRow⟩

section

variable {store : Store} {schema : Schema} {page : Page} {name : String} {field : Field}
  {table : FieldTable} (isField : schema.field? name = some field)
  (found : store.table? field.table = some table)

include isField found

theorem textIn?_eq :
    store.textIn? schema page name =
      ((table.rowsOf page.id).map FieldRow.data).head?.bind Value.text? := by
  rw [textIn?, isField, Option.bind_some, valuesOf, found, Option.elim_some]

theorem textIn?_of_row (sole : table.HasSoleValues) {row : FieldRow} (isRow : row ∈ table.rows)
    (same : row.page = page.id) : store.textIn? schema page name = row.data.text? := by
  have among : row ∈ table.rowsOf page.id := List.mem_filter.2 ⟨isRow, decide_eq_true same⟩
  obtain ⟨only, rows⟩ := List.length_eq_one_iff.1
    (Nat.le_antisymm (sole.sole page.id) (List.length_pos_of_mem among))
  rw [rows] at among
  rw [textIn?_eq isField found, rows, ← List.mem_singleton.1 among]
  rfl

theorem textIn?_of_absent (absent : ∀ row ∈ table.rows, row.page ≠ page.id) :
    store.textIn? schema page name = none := by
  have none : table.rowsOf page.id = [] :=
    List.filter_eq_nil_iff.2 fun row isRow same => absent row isRow (of_decide_eq_true same)
  rw [textIn?_eq isField found, none]
  rfl

end

end Store

/-! ### Members that look for phrases -/

theorem Member.on_leftJoin {member : Member} (filled : member.blank = false) :
    member.leftJoin.on = member.link := by
  rw [leftJoin, filled]
  rfl

theorem MemberGroup.exists_link_mem_joins {group : MemberGroup} {member : Member}
    (filled : member.blank = false) (isMember : member ∈ group) :
    ∃ join ∈ group.joins, join.aliasName = member.aliasName ∧ join.table = member.table ∧
      join.on = member.link ∧ (group.isLone = true → join.kind = .inner) := by
  rw [joins]
  cases lone : group.isLone with
  | true =>
      refine ⟨member.innerJoin, ?_, rfl, rfl, rfl, fun _ => rfl⟩
      exact List.mem_map_of_mem isMember
  | false =>
      refine ⟨member.leftJoin, ?_, rfl, rfl, Member.on_leftJoin filled, fun alone => ?_⟩
      · exact List.mem_map_of_mem isMember
      · cases alone

namespace Member

variable {now : Date.Moment} {kind : FieldKind} {field : Field} {term : Term} {member : Member}
  {branches : List Branch}

/-- What looks for phrases asks for any of its values, and for none of them by the lack of a row. -/
theorem condition_of_containsPhrase (memberOf : member.IsMemberOf now term field kind branches)
    (phrase : term.operator = .containsPhrase) :
    member.condition =
        .disj (term.values.map fun value => .conj [.fragment (.contains member.data value)]) ∧
      member.blank = false := by
  have each := memberOf.branched
  rw [phrase] at each
  rw [memberOf.condition, memberOf.blank]
  clear memberOf phrase
  generalize term.values = values at each
  have whole : branches.flatMap Branch.filters =
      values.map (fun value => .conj [.fragment (.contains member.data value)]) ∧
        branches.any Branch.isBlank = false := by
    induction each with
    | nil => exact ⟨rfl, rfl⟩
    | cons first rest induction =>
        rw [List.flatMap_cons, List.any_cons, induction.1, induction.2, branch_containsPhrase first]
        exact ⟨rfl, rfl⟩
  exact ⟨congrArg Condition.disj whole.1, whole.2⟩

section

variable (memberOf : member.IsMemberOf now term field kind branches)
  (phrase : term.operator = .containsPhrase) {table : FieldTable}

include memberOf phrase

/-- The condition reads the one column of the data, and that it reads. -/
theorem forall_condition_iff (valued : term.values ≠ []) {p : Column → Prop} :
    (member.condition.Forall fun test => ∀ column ∈ test.columns, p column) ↔ p member.data := by
  have each (value : String) :
      Condition.Forall (fun test : Test => ∀ column ∈ test.columns, p column)
          (.conj [.fragment (.contains member.data value)]) ↔ p member.data := by
    rw [Condition.forall_conj, List.forall_mem_singleton, Condition.forall_fragment]
    exact List.forall_mem_singleton
  rw [(condition_of_containsPhrase memberOf phrase).1, Condition.forall_disj, List.forall_mem_map]
  constructor
  · intro all
    obtain ⟨value, isValue⟩ := List.exists_mem_of_ne_nil _ valued
    exact (each value).1 (all value isValue)
  · intro data value _
    exact (each value).2 data

theorem truthIn_eq_yes_iff (row : Option FieldRow) :
    member.truthIn table row = .yes ↔ ∃ value ∈ term.values,
      Test.truthOf table.affinityOf (table.valueIn row) (.contains member.data value) = .yes := by
  rw [truthIn, (condition_of_containsPhrase memberOf phrase).1, Condition.eval_disj,
    ← Truth.isYes_iff, Truth.isYes_any, List.map_map, List.any_map, List.any_eq_true]
  apply exists_congr
  intro value
  apply and_congr_right
  intro _
  rw [Function.comp_apply, Function.comp_apply, Condition.eval_conj, Truth.isYes_all, List.map_cons,
    List.map_nil, List.all_cons, List.all_nil, Bool.and_true, Truth.isYes_iff]
  rfl

theorem truthIn_some_iff {row : FieldRow} {text : String} (given : row.data.text? = some text)
    (textNoNull : '\x00' ∉ text.toList)
    (noNull : ∀ value ∈ term.values, '\x00' ∉ value.toList) :
    member.truthIn table (some row) = .yes ↔
      ∃ value ∈ term.values, lower value.toList <:+: lower text.toList := by
  rw [truthIn_eq_yes_iff memberOf phrase]
  apply exists_congr
  intro value
  apply and_congr_right
  intro isValue
  have held : (table.valueIn (some row) member.data.name).text? = some text :=
    (congrArg Value.text? (table.cell_data row)).trans given
  have contained : (Test.contains member.data value).truth
      (fun column => table.affinityOf column.name)
      (fun column => table.valueIn (some row) column.name) = .yes ↔ _ :=
    Test.truth_contains held textNoNull (noNull value isValue)
  exact contained

theorem truthIn_none_ne : member.truthIn table none ≠ .yes := by
  rw [Ne, truthIn_eq_yes_iff memberOf phrase]
  rintro ⟨value, -, yes⟩
  cases yes

end

end Member

/-! ### Joined rows -/

/-- A plan that joins the table of a member under the member's link reads what the member asks for. -/
theorem Store.IsPlanned.carries {store : Store} {query : Query} {plan : Plan}
    (planned : store.IsPlanned query plan) {now : Date.Moment} {term : Term} {field : Field}
    {kind : FieldKind} {branches : List Member.Branch} {member : Member}
    (memberOf : member.IsMemberOf now term field kind branches)
    (phrase : term.operator = .containsPhrase) (valued : term.values ≠ []) {table : FieldTable}
    (found : store.table? member.table = some table)
    (kept : store.source? member.table = some table.asTable)
    (source : ∃ joined ∈ plan.inner ++ plan.left, joined.source = member.source table)
    (resolved : member.link.Forall fun test => ∀ column ∈ test.columns,
      plan.resolves column = true) : plan.Carries store member table := by
  rw [Member.link, Condition.forall_conj, List.forall_mem_cons, List.forall_mem_singleton]
    at resolved
  obtain ⟨linked, conditioned⟩ := resolved
  rw [pageLink, Condition.forall_test] at linked
  have data : plan.resolves member.data = true :=
    (Member.forall_condition_iff memberOf phrase valued).1 conditioned
  exact {
    base := planned.base
    source
    data
    page := linked _ (List.mem_cons_self ..)
    id := linked _ (List.mem_cons_of_mem _ (List.mem_singleton_self _))
    found
    kept
    own := (Member.forall_condition_iff memberOf phrase valued).2
      ⟨data, member.provides_data table⟩ }

namespace Plan

/-- What a joined row shows of the table of a member: a row of the page that fulfils the condition,
or none where no row of the page does. -/
structure ShowsRow (plan : Plan) (binding : Binding) (member : Member) (table : FieldTable)
    (page : Page) (row : Option FieldRow) : Prop where
  data : binding member.data = table.valueIn row "data"
  holds : plan.holds binding member.condition = true ↔ member.truthIn table row = .yes
  found : ∀ given ∈ row,
    given ∈ table.rows ∧ given.page = page.id ∧ member.truthIn table (some given) = .yes
  missing : row = none → ¬ member.Finds table page

variable {plan : Plan} {store : Store} {member : Member} {table : FieldTable}

theorem Carries.exists_showsRow (carries : plan.Carries store member table)
    (filled : member.blank = false)
    (resolved : ∀ joined ∈ plan.inner, ∀ column ∈ Filter.columns joined.join.on,
      plan.resolves column = true)
    {joined : JoinedSource} (isJoined : joined ∈ plan.inner ++ plan.left)
    (on : joined.join.on = member.leftJoin.on) (source : joined.source = member.source table)
    {page : Page} {binding : Binding} (isRow : binding ∈ plan.joinAll page.record) :
    ∃ row, plan.ShowsRow binding member table page row ∧
      (joined ∉ plan.left → row.isSome = true) := by
  have alone : plan.IsLocal joined.source joined.join.on := by
    rw [on, source]
    exact carries.isLocal_leftJoin carries.isLocal_condition
  obtain ⟨record, matching, present, reads⟩ :=
    exists_isMatch_of_mem_joinAll resolved isRow isJoined alone
  have matches_iff (row : FieldRow) :
      joined.holdsFor plan.affinity (plan.pageBinding page.record) row.record = true ↔
        row.page = page.id ∧ member.truthIn table (some row) = .yes := by
    rw [carries.holdsFor_row_iff source on, filled]
    simp
  have shown (row : Option FieldRow) (same : record = row.map FieldRow.record) :
      binding member.data = table.valueIn row "data" ∧
        (plan.holds binding member.condition = true ↔ member.truthIn table row = .yes) := by
    rw [source, same] at reads
    constructor
    · rw [reads _ carries.data (member.provides_data table)]
      cases row with
      | none => exact Binding.extend_none (member.provides_data table)
      | some row => exact Binding.extend_of_provides (member.provides_data table)
    · rw [← carries.holds_condition_iff (plan.pageBinding page.record) row]
      refine Eq.to_iff (congrArg (· = true) (holds_congr fun column read => ?_))
      obtain ⟨test, isTest, isColumn⟩ := List.mem_flatMap.1 read
      obtain ⟨own, provided⟩ := carries.own test isTest column isColumn
      exact reads column own provided
  cases record with
  | none =>
      obtain ⟨data, holds⟩ := shown none rfl
      refine ⟨none, ⟨data, holds, by simp, fun _ finds => ?_⟩, fun inner => present inner⟩
      obtain ⟨row, isOne, same, yes⟩ := finds
      have unmatched := matching row.record ((mem_records_iff source).2 ⟨row, isOne, rfl⟩)
      rw [(matches_iff row).2 ⟨same, yes⟩] at unmatched
      cases unmatched
  | some record =>
      obtain ⟨row, isOne, rfl⟩ := (mem_records_iff source).1 matching.1
      obtain ⟨data, holds⟩ := shown (some row) rfl
      obtain ⟨same, yes⟩ := (matches_iff row).1 matching.2
      refine ⟨some row, ⟨data, holds, ?_, by simp⟩, fun _ => rfl⟩
      rintro _ ⟨⟩
      exact ⟨isOne, same, yes⟩

end Plan

/-! ### Relevance columns -/

section

variable {store : Store} {schema : Schema} {page : Page} {search : Search} {field : Field}
  {table : FieldTable} (isField : schema.field? search.name = some field)
  (found : store.table? field.table = some table) (sole : table.HasSoleValues)
  (textsNoNull : store.HasNullFreeTexts) {now : Date.Moment} {kind : FieldKind} {member : Member}
  {branches : List Member.Branch}
  (memberOf : member.IsMemberOf now search.term field kind branches)
  (phrase : search.term.operator = .containsPhrase)
  (noNull : ∀ value ∈ search.term.values, '\x00' ∉ value.toList)
  (isValue : search.value ∈ search.term.values) (filled : search.value ≠ "")

include isField found sole textsNoNull

theorem Store.exists_text_of_row {row : FieldRow} (isRow : row ∈ table.rows)
    (same : row.page = page.id) :
    ∃ text, row.data.text? = some text ∧ '\x00' ∉ text.toList ∧
      store.occurrencesOf schema page search =
        occurrences (lower search.value.toList) (lower text.toList) := by
  obtain ⟨text, given⟩ : ∃ text, row.data.text? = some text := by
    have some := sole.given row isRow
    cases data : row.data with
    | null => exact absurd data some
    | integer n => exact ⟨_, rfl⟩
    | real x => exact ⟨_, rfl⟩
    | text s => exact ⟨_, rfl⟩
  refine ⟨text, given, textsNoNull row (Store.mem_fieldRows found isRow) text given, ?_⟩
  rw [Store.occurrencesOf, Store.textIn?_of_row isField found sole isRow same, given,
    Option.elim_some]

include memberOf phrase noNull filled

theorem Member.Finds.occurrencesOf_pos
    (lone : search.term.values = [search.value]) (finds : member.Finds table page) :
    0 < store.occurrencesOf schema page search := by
  obtain ⟨row, isRow, same, yes⟩ := finds
  obtain ⟨text, given, textNoNull, counted⟩ :=
    Store.exists_text_of_row isField found sole textsNoNull isRow same
  rw [Member.truthIn_some_iff memberOf phrase given textNoNull noNull, lone] at yes
  obtain ⟨value, isOne, inside⟩ := yes
  rw [List.mem_singleton.1 isOne] at inside
  rw [counted, occurrences_pos_iff (lower_toList_ne_nil filled)]
  exact inside

include isValue

/-- A relevance column counts its value in the text of the page, whether or not the joined row shows
the text. -/
theorem Plan.ShowsRow.scoreOf_value {plan : Plan} {binding : Binding} {row : Option FieldRow}
    (shows : plan.ShowsRow binding member table page row) :
    Row.scoreOf (Score.value binding ⟨member.data, search.value⟩).datum =
      .ofInt (store.occurrencesOf schema page search) := by
  have data := shows.data
  cases row with
  | some row =>
      obtain ⟨isRow, same, -⟩ := shows.found row rfl
      obtain ⟨text, given, textNoNull, counted⟩ :=
        Store.exists_text_of_row isField found sole textsNoNull isRow same
      have held : (binding member.data).text? = some text := by
        rw [data]
        exact (congrArg Value.text? (table.cell_data row)).trans given
      rw [Score.value, held, counted]
      dsimp only
      rw [countPhrase?_eq filled textNoNull]
      rfl
  | none =>
      have none : store.occurrencesOf schema page search = 0 := by
        by_cases absent : ∀ row ∈ table.rows, row.page ≠ page.id
        · rw [Store.occurrencesOf, Store.textIn?_of_absent isField found absent]
          rfl
        · simp only [not_forall, not_not, exists_prop] at absent
          obtain ⟨row, isRow, same⟩ := absent
          obtain ⟨text, given, textNoNull, counted⟩ :=
            Store.exists_text_of_row isField found sole textsNoNull isRow same
          rw [counted]
          apply Nat.eq_zero_of_not_pos
          intro occurs
          rw [occurrences_pos_iff (lower_toList_ne_nil filled)] at occurs
          refine shows.missing rfl ⟨row, isRow, same, ?_⟩
          rw [Member.truthIn_some_iff memberOf phrase given textNoNull noNull]
          exact ⟨search.value, isValue, occurs⟩
      rw [Score.value, data, none]
      rfl

end

end PageTree
