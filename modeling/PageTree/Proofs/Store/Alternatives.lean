import PageTree.Proofs.Compile.Names
import PageTree.Proofs.Store.Planning

/-!
The members of terms as they pick pages, whatever columns they ask for and negated or not. Main
statements: the join of a member that drops rows has a match for a page just when a row of the page
fulfils the condition, and one that keeps rows has a match that fulfils it also by the lack of a row.
-/

namespace PageTree

open Sql

/-! ### What a row says to a condition -/

namespace FieldTable

variable (table : FieldTable)

def affinityOf (name : String) : Affinity :=
  (table.asTable.affinity? name).getD .text

/-- The value of a column in a row; without a row it is missing. -/
def valueIn (row : Option FieldRow) (name : String) : Value :=
  (row.map fun row => table.asTable.cell row.record name).getD .null

end FieldTable

/-- What the condition of a member says of a row of its table, or of the lack of one. -/
def Member.truthIn (member : Member) (table : FieldTable) (row : Option FieldRow) : Truth :=
  member.condition.eval (Test.truthOf table.affinityOf (table.valueIn row))

/-- Does a row of the page fulfil the condition of a member? -/
def Member.Finds (member : Member) (table : FieldTable) (page : Page) : Prop :=
  ∃ row ∈ table.rows, row.page = page.id ∧ member.truthIn table (some row) = .yes

/-- Does a member pick a page, where the join of a lone member drops rows? A row of the page fulfils
its condition, or the lack of a row does: with a blank value the lack of any row, otherwise of one
that fulfils it. -/
def Member.Picks (member : Member) (lone : Bool) (table : FieldTable) (page : Page) : Prop :=
  member.Finds table page ∨
    lone = false ∧ member.truthIn table none = .yes ∧
      (member.blank = true → ∀ row ∈ table.rows, row.page ≠ page.id)

theorem Member.provides_of_hasColumn (member : Member) (table : FieldTable) {column : Column}
    (named : column.aliasName = member.aliasName)
    (isColumn : table.asTable.hasColumn column.name = true) :
    (member.source table).provides column = true := by
  rw [Source.provides, named, Bool.and_eq_true]
  exact ⟨sameName_refl _, isColumn⟩

namespace Plan

variable {plan : Plan} {store : Store} {member : Member} {table : FieldTable}

theorem mem_records_iff {joined : JoinedSource} (source : joined.source = member.source table)
    {record : Record} :
    record ∈ joined.source.table.records ↔ ∃ row ∈ table.rows, row.record = record := by
  rw [source]
  exact List.mem_map

/-- The plan reads the table of a member, and all columns of the member's condition from it. -/
structure Carries (plan : Plan) (store : Store) (member : Member) (table : FieldTable) : Prop
    extends plan.Reads store member table where
  found : store.table? member.table = some table
  kept : store.source? member.table = some table.asTable
  own : Condition.Forall (fun test => ∀ column ∈ test.columns,
    plan.resolves column = true ∧ (member.source table).provides column = true) member.condition

namespace Carries

variable (carries : plan.Carries store member table)

include carries

theorem isLocal_condition : plan.IsLocal (member.source table) member.condition :=
  isLocal_iff.2 fun test isTest column read =>
    (carries.own test isTest column read).imp_right Or.inl

theorem eval_condition (start : Binding) (row : Option FieldRow) :
    member.condition.eval
        (Test.truth plan.affinity (start.extend (member.source table) (row.map FieldRow.record))) =
      member.truthIn table row := by
  refine Condition.eval_congr _ fun test isTest => Test.truth_congr fun column read => ?_
  obtain ⟨resolved, provided⟩ := carries.own test isTest column read
  refine ⟨affinity_of_resolves resolved carries.mem_sources provided, ?_⟩
  cases row with
  | none => exact Binding.extend_none provided
  | some row => exact Binding.extend_of_provides provided

theorem holds_condition_iff (start : Binding) (row : Option FieldRow) :
    plan.holds (start.extend (member.source table) (row.map FieldRow.record)) member.condition =
        true ↔ member.truthIn table row = .yes := by
  rw [holds, carries.eval_condition, Truth.isYes_iff]

section

variable {joined : JoinedSource} (source : joined.source = member.source table)

include source

theorem holds_link_iff (page : Page) (row : FieldRow) :
    plan.holds ((plan.pageBinding page.record).extend joined.source (some row.record))
        member.link = true ↔
      row.page = page.id ∧ member.truthIn table (some row) = .yes := by
  rw [source, Member.link, holds_conj, List.all_cons, List.all_cons, List.all_nil, Bool.and_true,
    carries.holds_pageLink, Bool.and_eq_true, decide_eq_true_eq]
  exact and_congr_right fun _ => carries.holds_condition_iff _ (some row)

theorem holdsFor_row_iff (on : joined.join.on = member.leftJoin.on) (page : Page)
    (row : FieldRow) :
    joined.holdsFor plan.affinity (plan.pageBinding page.record) row.record = true ↔
      row.page = page.id ∧
        (member.blank = true ∨ member.truthIn table (some row) = .yes) := by
  rw [holdsFor_eq, on, Member.leftJoin]
  dsimp only
  -- With a blank value the condition stays out of the join.
  cases member.blank with
  | true =>
      rw [if_pos rfl, source, carries.holds_pageLink, decide_eq_true_eq]
      simp
  | false =>
      rw [if_neg Bool.false_ne_true, carries.holds_link_iff source]
      simp

theorem exists_isMatch_iff_picks (on : joined.join.on = member.link) (page : Page) :
    (∃ record, plan.IsMatch (plan.pageBinding page.record) joined (some record)) ↔
      member.Picks true table page := by
  have matching (row : FieldRow) :
      joined.holdsFor plan.affinity (plan.pageBinding page.record) row.record = true ↔
        row.page = page.id ∧ member.truthIn table (some row) = .yes := by
    rw [holdsFor_eq, on]
    exact carries.holds_link_iff source page row
  constructor
  · rintro ⟨record, isRecord, holds⟩
    obtain ⟨row, isRow, rfl⟩ := (mem_records_iff source).1 isRecord
    exact .inl ⟨row, isRow, (matching row).1 holds⟩
  · rintro (⟨row, isRow, fulfilled⟩ | ⟨dropped, -⟩)
    · exact ⟨row.record, (mem_records_iff source).2 ⟨row, isRow, rfl⟩, (matching row).2 fulfilled⟩
    · cases dropped

theorem exists_match_iff_picks (on : joined.join.on = member.leftJoin.on) (page : Page) :
    (∃ record, plan.IsMatch (plan.pageBinding page.record) joined record ∧
      plan.holds ((plan.pageBinding page.record).extend joined.source record) member.condition =
        true) ↔ member.Picks false table page := by
  constructor
  · rintro ⟨record | record, matching, holds⟩
    · rw [source] at holds
      refine .inr ⟨rfl, (carries.holds_condition_iff _ none).1 holds, ?_⟩
      intro blank row isRow same
      have unmatched := matching row.record ((mem_records_iff source).2 ⟨row, isRow, rfl⟩)
      rw [Bool.eq_false_iff] at unmatched
      exact unmatched ((carries.holdsFor_row_iff source on page row).2 ⟨same, .inl blank⟩)
    · obtain ⟨row, isRow, rfl⟩ := (mem_records_iff source).1 matching.1
      obtain ⟨same, -⟩ := (carries.holdsFor_row_iff source on page row).1 matching.2
      rw [source] at holds
      exact .inl ⟨row, isRow, same, (carries.holds_condition_iff _ (some row)).1 holds⟩
  · rintro picks
    by_cases found : member.Finds table page
    · obtain ⟨row, isRow, same, yes⟩ := found
      refine ⟨some row.record, ⟨(mem_records_iff source).2 ⟨row, isRow, rfl⟩, ?_⟩, ?_⟩
      · exact (carries.holdsFor_row_iff source on page row).2 ⟨same, .inr yes⟩
      · rw [source]
        exact (carries.holds_condition_iff _ (some row)).2 yes
    · obtain ⟨-, yes, absent⟩ := picks.resolve_left found
      refine ⟨none, fun record among => ?_, ?_⟩
      · obtain ⟨row, isRow, rfl⟩ := (mem_records_iff source).1 among
        rw [Bool.eq_false_iff]
        intro holds
        obtain ⟨same, blank | fulfilled⟩ := (carries.holdsFor_row_iff source on page row).1 holds
        · exact absent blank row isRow same
        · exact found ⟨row, isRow, same, fulfilled⟩
      · rw [source]
        exact (carries.holds_condition_iff _ none).2 yes

end

end Carries

end Plan

end PageTree
