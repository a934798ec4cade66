import PageTree.Proofs.Sql.ConditionTruth
import PageTree.Store.Rows

/-!
Joined rows as choices of records. Tables are joined one after the other, and records are left out
as soon as a condition can be looked at. Main statement: the joined rows of a page are the ways to
choose a record for every table so that all conditions hold; only where no record matches, a table
that keeps rows goes without one.
-/

namespace PageTree

open Sql

universe u

namespace Sql.Condition

variable {α : Type u} {f g : α → Truth}

mutual

theorem eval_congr : (c : Condition α) → (∀ a ∈ c.tests, f a = g a) → c.eval f = c.eval g
  | .test a, same => same a (List.mem_singleton_self a)
  | .fragment a, same => same a (List.mem_singleton_self a)
  | .never, _ => rfl
  | .all cs, same => by rw [eval, eval, evalEach_congr cs same]
  | .any cs, same => by rw [eval, eval, evalEach_congr cs same]
  | .not c, same => by rw [eval, eval, eval_congr c same]

theorem evalEach_congr : (cs : List (Condition α)) → (∀ a ∈ testsEach cs, f a = g a) →
    evalEach f cs = evalEach g cs
  | [], _ => rfl
  | c :: cs, same => by
      rw [evalEach, evalEach, eval_congr c fun a member => same a (List.mem_append_left _ member),
        evalEach_congr cs fun a member => same a (List.mem_append_right _ member)]

end

end Sql.Condition

/-! ### Bindings and the columns that are read -/

namespace Binding

theorem extend_of_provides {binding : Binding} {source : Source} {record : Record}
    {column : Column} (provided : source.provides column = true) :
    binding.extend source (some record) column = source.table.cell record column.name := by
  simp [extend, provided]

theorem extend_none {binding : Binding} {source : Source} {column : Column}
    (provided : source.provides column = true) : binding.extend source none column = .null := by
  simp [extend, provided]

theorem extend_of_not_provides {binding : Binding} {source : Source} {record : Option Record}
    {column : Column} (other : source.provides column = false) :
    binding.extend source record column = binding column := by
  simp [extend, other]

/-- The binding with a record, or none, for each of some more tables. -/
def extendAll (binding : Binding) (chosen : List (JoinedSource × Option Record)) : Binding :=
  chosen.foldl (fun binding choice => binding.extend choice.1.source choice.2) binding

@[simp] theorem extendAll_nil (binding : Binding) : binding.extendAll [] = binding := rfl

@[simp] theorem extendAll_cons (binding : Binding) (choice : JoinedSource × Option Record)
    (chosen : List (JoinedSource × Option Record)) :
    binding.extendAll (choice :: chosen) =
      (binding.extend choice.1.source choice.2).extendAll chosen := rfl

theorem extendAll_append (binding : Binding) (chosen others : List (JoinedSource × Option Record)) :
    binding.extendAll (chosen ++ others) = (binding.extendAll chosen).extendAll others :=
  List.foldl_append

theorem extendAll_of_not_provides {binding : Binding}
    {chosen : List (JoinedSource × Option Record)} {column : Column}
    (others : ∀ choice ∈ chosen, choice.1.source.provides column = false) :
    binding.extendAll chosen column = binding column := by
  induction chosen generalizing binding with
  | nil => rfl
  | cons choice rest induction =>
      rw [List.forall_mem_cons] at others
      rw [extendAll_cons, induction others.2, extend_of_not_provides others.1]

end Binding

namespace Filter

def columns (filter : Filter) : List Column :=
  filter.tests.flatMap Test.columns

end Filter

theorem Sql.Test.truth_congr {affinity otherAffinity : Column → Affinity}
    {binding other : Binding} {test : Test}
    (same : ∀ column ∈ test.columns,
      affinity column = otherAffinity column ∧ binding column = other column) :
    test.truth affinity binding = test.truth otherAffinity other := by
  cases test with
  | compare left relation right =>
      cases right with
      | column right =>
          obtain ⟨first, rest⟩ := List.forall_mem_cons.1 same
          have second := List.forall_mem_singleton.1 rest
          simp only [truth, Operand.conversion, Operand.value, first, second]
      | integer n =>
          obtain ⟨converted, held⟩ := List.forall_mem_singleton.1 same
          simp only [truth, Operand.conversion, Operand.value, converted, held]
      | digits run =>
          obtain ⟨converted, held⟩ := List.forall_mem_singleton.1 same
          simp only [truth, Operand.conversion, Operand.value, converted, held]
      | text value =>
          obtain ⟨converted, held⟩ := List.forall_mem_singleton.1 same
          simp only [truth, Operand.conversion, Operand.value, converted, held]
  | isNull column => simp only [truth, (List.forall_mem_singleton.1 same).2]
  | isNotNull column => simp only [truth, (List.forall_mem_singleton.1 same).2]
  | like subject pattern marked => simp only [truth, (List.forall_mem_singleton.1 same).2]
  | never => rfl

theorem Filter.eval_congr {affinity : Column → Affinity} {binding other : Binding}
    {filter : Filter} (same : ∀ column ∈ filter.columns, binding column = other column) :
    filter.eval (Test.truth affinity binding) = filter.eval (Test.truth affinity other) := by
  refine Condition.eval_congr filter fun test member => Test.truth_congr fun column read => ?_
  exact ⟨rfl, same column (List.mem_flatMap.2 ⟨test, member, read⟩)⟩

namespace Plan

variable {plan : Plan}

theorem holds_congr {binding other : Binding} {filter : Filter}
    (same : ∀ column ∈ filter.columns, binding column = other column) :
    plan.holds binding filter = plan.holds other filter := by
  rw [holds, holds, Filter.eval_congr same]

theorem holdsFor_eq (joined : JoinedSource) (binding : Binding) (record : Record) :
    joined.holdsFor plan.affinity binding record =
      plan.holds (binding.extend joined.source (some record)) joined.join.on := rfl

/-! ### Tables that drop rows -/

/-- Does no second one of the sources provide the column? -/
def IsSole (sources : List Source) (column : Column) : Prop :=
  (sources.filter fun source => source.provides column).length ≤ 1

theorem IsSole.perm {sources others : List Source} {column : Column} (sole : IsSole sources column)
    (same : sources.Perm others) : IsSole others column := by
  unfold IsSole at sole ⊢
  rwa [← (same.filter _).length_eq]

theorem IsSole.not_provides {known later : List Source} {column : Column}
    (sole : IsSole (known ++ later) column) {source other : Source} (isKnown : source ∈ known)
    (provided : source.provides column = true) (isLater : other ∈ later) :
    other.provides column = false := by
  rw [Bool.eq_false_iff]
  intro second
  have first : source ∈ known.filter fun source => source.provides column :=
    List.mem_filter.2 ⟨isKnown, provided⟩
  have next : other ∈ later.filter fun source => source.provides column :=
    List.mem_filter.2 ⟨isLater, second⟩
  unfold IsSole at sole
  rw [List.filter_append, List.length_append] at sole
  have onePlace := List.length_pos_of_mem first
  have otherPlace := List.length_pos_of_mem next
  omega

theorem exists_of_mem_joinInner {known : List Source} {joined : JoinedSource}
    {bindings : List Binding} {binding : Binding}
    (member : binding ∈ plan.joinInner known joined bindings) :
    ∃ start ∈ bindings, ∃ record ∈ joined.source.table.records,
      binding = start.extend joined.source (some record) := by
  unfold joinInner at member
  split at member
  · obtain ⟨start, isStart, among⟩ := List.mem_flatMap.1 member
    rw [joined.filter_candidates] at among
    obtain ⟨record, isRecord, rfl⟩ := List.mem_map.1 among
    exact ⟨start, isStart, record, (List.mem_filter.1 isRecord).1, rfl⟩
  · obtain ⟨start, isStart, among⟩ := List.mem_flatMap.1 member
    obtain ⟨record, isRecord, rfl⟩ := List.mem_map.1 among
    exact ⟨start, isStart, record, isRecord, rfl⟩

theorem mem_joinInner {known : List Source} {joined : JoinedSource} {bindings : List Binding}
    {start : Binding} (isStart : start ∈ bindings) {record : Record}
    (isRecord : record ∈ joined.source.table.records)
    (matching : covers (joined.source :: known) joined.join.on = true →
      joined.holdsFor plan.affinity start record = true) :
    start.extend joined.source (some record) ∈ plan.joinInner known joined bindings := by
  unfold joinInner
  split
  · next covered =>
    refine List.mem_flatMap.2 ⟨start, isStart, List.mem_map.2 ⟨record, ?_, rfl⟩⟩
    rw [joined.filter_candidates]
    exact List.mem_filter.2 ⟨isRecord, matching covered⟩
  · exact List.mem_flatMap.2 ⟨start, isStart, List.mem_map.2 ⟨record, isRecord, rfl⟩⟩

structure IsChoice (tables : List JoinedSource) (chosen : List (JoinedSource × Option Record)) :
    Prop where
  tables : chosen.map Prod.fst = tables
  records : ∀ choice ∈ chosen, ∃ record ∈ choice.1.source.table.records, choice.2 = some record

theorem exists_of_mem_joinAllInner {known : List Source} {inner : List JoinedSource}
    {bindings : List Binding} {binding : Binding}
    (member : binding ∈ plan.joinAllInner known inner bindings) :
    ∃ start ∈ bindings, ∃ chosen, IsChoice inner chosen ∧ binding = start.extendAll chosen := by
  induction inner generalizing known bindings with
  | nil => exact ⟨binding, member, [], ⟨rfl, by simp⟩, rfl⟩
  | cons joined rest induction =>
      rw [joinAllInner] at member
      obtain ⟨next, isNext, chosen, choice, rfl⟩ := induction member
      obtain ⟨start, isStart, record, isRecord, rfl⟩ := exists_of_mem_joinInner isNext
      refine ⟨start, isStart, (joined, some record) :: chosen, ⟨?_, ?_⟩, rfl⟩
      · rw [List.map_cons, choice.tables]
      · exact List.forall_mem_cons.2 ⟨⟨record, isRecord, rfl⟩, choice.records⟩

/-- A choice for which all conditions hold is found: what a condition reads is known when it is
looked at, and no later table changes it. -/
theorem mem_joinAllInner {known : List Source} {inner : List JoinedSource}
    {bindings : List Binding} {start : Binding} (isStart : start ∈ bindings)
    {chosen : List (JoinedSource × Option Record)} (choice : IsChoice inner chosen)
    (sole : ∀ joined ∈ inner, ∀ column ∈ Filter.columns joined.join.on,
      IsSole (known ++ inner.map JoinedSource.source) column)
    (hold : ∀ joined ∈ inner, plan.holds (start.extendAll chosen) joined.join.on = true) :
    start.extendAll chosen ∈ plan.joinAllInner known inner bindings := by
  induction inner generalizing known bindings start chosen with
  | nil =>
      rw [List.map_eq_nil_iff.1 choice.tables]
      exact isStart
  | cons joined rest induction =>
      obtain ⟨tables, records⟩ := choice
      cases chosen with
      | nil => simp at tables
      | cons first others =>
          obtain ⟨head, tail⟩ := List.cons.inj tables
          obtain ⟨⟨record, isRecord, isSome⟩, kept⟩ := List.forall_mem_cons.1 records
          obtain ⟨source, record?⟩ := first
          dsimp only at head isRecord isSome
          subst head isSome
          have moved : (known ++ (source :: rest).map JoinedSource.source).Perm
              ((source.source :: known) ++ rest.map JoinedSource.source) := by
            rw [List.map_cons]
            exact List.perm_middle
          rw [joinAllInner, Binding.extendAll_cons]
          refine induction ?_ ⟨tail, kept⟩ ?_ fun joined member =>
            hold joined (List.mem_cons_of_mem _ member)
          · refine mem_joinInner isStart isRecord fun covered => ?_
            rw [holdsFor_eq, ← hold source (List.mem_cons_self ..), Binding.extendAll_cons]
            refine holds_congr fun column read => ?_
            symm
            apply Binding.extendAll_of_not_provides
            intro later isLater
            obtain ⟨provider, isKnown, provided⟩ :=
              List.any_eq_true.1 (List.all_eq_true.1 covered column read)
            refine ((sole source (List.mem_cons_self ..) column read).perm moved).not_provides
              isKnown provided ?_
            rw [← tail]
            exact List.mem_map.2 ⟨later.1, List.mem_map.2 ⟨later, isLater, rfl⟩, rfl⟩
          · intro joined member column read
            exact (sole joined (List.mem_cons_of_mem _ member) column read).perm moved

/-! ### Tables that keep rows -/

/-- A record that matches, or none where none does. -/
def IsMatch (plan : Plan) (binding : Binding) (joined : JoinedSource) : Option Record → Prop
  | some record => record ∈ joined.source.table.records ∧
      joined.holdsFor plan.affinity binding record = true
  | none => ∀ record ∈ joined.source.table.records,
      joined.holdsFor plan.affinity binding record = false

/-- Each of the choices is a match after those before it. -/
def IsLeftChoice (plan : Plan) : Binding → List (JoinedSource × Option Record) → Prop
  | _, [] => True
  | binding, (joined, choice) :: rest =>
    plan.IsMatch binding joined choice ∧
      plan.IsLeftChoice (binding.extend joined.source choice) rest

theorem mem_joinLeft {joined : JoinedSource} {start binding : Binding} :
    binding ∈ plan.joinLeft joined start ↔
      ∃ choice, plan.IsMatch start joined choice ∧
        binding = start.extend joined.source choice := by
  unfold joinLeft
  rw [joined.filter_candidates]
  dsimp only
  split
  · next noMatch =>
    rw [List.isEmpty_iff, List.map_eq_nil_iff, List.filter_eq_nil_iff] at noMatch
    rw [List.mem_singleton]
    constructor
    · rintro rfl
      exact ⟨none, fun record isRecord => Bool.eq_false_iff.2 (noMatch record isRecord), rfl⟩
    · rintro ⟨choice, chosen, rfl⟩
      cases choice with
      | none => rfl
      | some record => exact absurd chosen.2 (noMatch record chosen.1)
  · next someMatch =>
    rw [List.mem_map]
    constructor
    · rintro ⟨record, matching, rfl⟩
      exact ⟨record, List.mem_filter.1 matching, rfl⟩
    · rintro ⟨choice, chosen, rfl⟩
      cases choice with
      | some record => exact ⟨record, List.mem_filter.2 chosen, rfl⟩
      | none =>
          refine absurd ?_ someMatch
          rw [List.isEmpty_iff, List.map_eq_nil_iff, List.filter_eq_nil_iff]
          exact fun record isRecord => Bool.eq_false_iff.1 (chosen record isRecord)

theorem mem_joinAllLeft {left : List JoinedSource} {bindings : List Binding} {binding : Binding} :
    binding ∈ left.foldl (fun bindings joined => bindings.flatMap (plan.joinLeft joined)) bindings ↔
      ∃ start ∈ bindings, ∃ chosen, chosen.map Prod.fst = left ∧
        plan.IsLeftChoice start chosen ∧ binding = start.extendAll chosen := by
  induction left generalizing bindings with
  | nil =>
      constructor
      · exact fun member => ⟨binding, member, [], rfl, trivial, rfl⟩
      · rintro ⟨start, isStart, chosen, tables, -, rfl⟩
        rw [List.map_eq_nil_iff.1 tables]
        exact isStart
  | cons joined rest induction =>
      rw [List.foldl_cons, induction]
      constructor
      · rintro ⟨next, isNext, chosen, tables, choice, rfl⟩
        obtain ⟨start, isStart, member⟩ := List.mem_flatMap.1 isNext
        obtain ⟨first, isFirst, rfl⟩ := mem_joinLeft.1 member
        exact ⟨start, isStart, (joined, first) :: chosen, by rw [List.map_cons, tables],
          ⟨isFirst, choice⟩, rfl⟩
      · rintro ⟨start, isStart, chosen, tables, choice, rfl⟩
        cases chosen with
        | nil => simp at tables
        | cons first others =>
            obtain ⟨head, tail⟩ := List.cons.inj tables
            obtain ⟨table, record?⟩ := first
            dsimp only at head
            subst head
            have next : start.extend table.source record? ∈ plan.joinLeft table start :=
              mem_joinLeft.2 ⟨record?, choice.1, rfl⟩
            exact ⟨start.extend table.source record?,
              List.mem_flatMap.2 ⟨start, isStart, next⟩, others, tail, choice.2, rfl⟩

/-! ### Joined rows of a page -/

/-- The binding of a page before any table is joined to it. -/
def pageBinding (plan : Plan) (page : Record) : Binding :=
  Binding.empty.extend plan.base (some page)

theorem isSole_of_resolves {column : Column} (resolved : plan.resolves column = true) :
    IsSole plan.sources column := by
  rw [resolves, decide_eq_true_eq] at resolved
  exact Nat.le_of_eq resolved

theorem mem_joinAll {page : Record} {binding : Binding}
    (resolved : ∀ joined ∈ plan.inner, ∀ column ∈ Filter.columns joined.join.on,
      plan.resolves column = true) :
    binding ∈ plan.joinAll page ↔
      ∃ inner, IsChoice plan.inner inner ∧
        (∀ joined ∈ plan.inner,
          plan.holds ((plan.pageBinding page).extendAll inner) joined.join.on = true) ∧
        ∃ left, left.map Prod.fst = plan.left ∧
          plan.IsLeftChoice ((plan.pageBinding page).extendAll inner) left ∧
          binding = (plan.pageBinding page).extendAll (inner ++ left) := by
  unfold joinAll
  rw [mem_joinAllLeft]
  constructor
  · rintro ⟨start, isStart, left, tables, choice, rfl⟩
    obtain ⟨member, hold⟩ := List.mem_filter.1 isStart
    obtain ⟨first, isFirst, inner, isInner, rfl⟩ := exists_of_mem_joinAllInner member
    rw [List.mem_singleton.1 isFirst] at hold choice ⊢
    exact ⟨inner, isInner, List.all_eq_true.1 hold, left, tables, choice,
      (Binding.extendAll_append ..).symm⟩
  · rintro ⟨inner, isInner, hold, left, tables, choice, rfl⟩
    refine ⟨_, List.mem_filter.2 ⟨?_, List.all_eq_true.2 hold⟩, left, tables, choice,
      Binding.extendAll_append ..⟩
    refine mem_joinAllInner (List.mem_singleton_self _) isInner
      (fun joined member column read => ?_) hold
    have sole := isSole_of_resolves (resolved joined member column read)
    unfold IsSole sources at sole
    unfold IsSole
    rw [List.map_append, ← List.cons_append, List.filter_append, List.length_append] at sole
    rw [List.singleton_append]
    omega

theorem exists_of_mem_joinAll {page : Record} {binding : Binding}
    (member : binding ∈ plan.joinAll page) :
    ∃ chosen, chosen.map Prod.fst = plan.inner ++ plan.left ∧
      binding = (plan.pageBinding page).extendAll chosen := by
  unfold joinAll at member
  obtain ⟨start, isStart, left, tables, -, rfl⟩ := mem_joinAllLeft.1 member
  obtain ⟨first, isFirst, inner, isInner, rfl⟩ :=
    exists_of_mem_joinAllInner (List.mem_filter.1 isStart).1
  rw [List.mem_singleton.1 isFirst]
  refine ⟨inner ++ left, ?_, (Binding.extendAll_append ..).symm⟩
  rw [List.map_append, isInner.tables, tables]

/-- Joining tables leaves the columns of the page as they are. -/
theorem eq_cell_of_mem_joinAll {page : Record} {binding : Binding}
    (member : binding ∈ plan.joinAll page) {column : Column}
    (resolved : plan.resolves column = true) (own : plan.base.provides column = true) :
    binding column = plan.base.table.cell page column.name := by
  obtain ⟨chosen, tables, rfl⟩ := exists_of_mem_joinAll member
  rw [Binding.extendAll_of_not_provides, pageBinding, Binding.extend_of_provides own]
  intro choice isChoice
  have sole : IsSole ([plan.base] ++ (plan.inner ++ plan.left).map JoinedSource.source) column :=
    isSole_of_resolves resolved
  refine sole.not_provides (List.mem_singleton_self _) own ?_
  rw [← tables, List.map_map]
  exact List.mem_map.2 ⟨choice, isChoice, rfl⟩

end Plan

end PageTree
