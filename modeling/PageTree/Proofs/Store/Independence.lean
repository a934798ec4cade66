import PageTree.Proofs.Store.Joins

/-!
Joins that do not depend on each other. A condition that reads its own table and the page alone has
the same truth whatever records the other tables give. Main statement: the joined rows of a page are
then all combinations of matches, each table matched with the page by itself.
-/

namespace PageTree

open Sql

namespace Plan

variable {plan : Plan}

/-- Does a filter read columns of one source and of the page alone? -/
def IsLocal (plan : Plan) (source : Source) (filter : Filter) : Prop :=
  ∀ column ∈ filter.columns, plan.resolves column = true ∧
    (source.provides column = true ∨ plan.base.provides column = true)

/-- Two bindings that give the columns of the page the same values. -/
def AgreeOnPage (plan : Plan) (binding other : Binding) : Prop :=
  ∀ column, plan.resolves column = true → plan.base.provides column = true →
    binding column = other column

theorem not_provides_of_base {column : Column} (resolved : plan.resolves column = true)
    (own : plan.base.provides column = true) {joined : JoinedSource}
    (isJoined : joined ∈ plan.inner ++ plan.left) : joined.source.provides column = false := by
  have sole : IsSole ([plan.base] ++ (plan.inner ++ plan.left).map JoinedSource.source) column :=
    isSole_of_resolves resolved
  exact sole.not_provides (List.mem_singleton_self _) own (List.mem_map.2 ⟨joined, isJoined, rfl⟩)

theorem AgreeOnPage.extend {binding start : Binding} (agree : plan.AgreeOnPage binding start)
    {joined : JoinedSource} (isJoined : joined ∈ plan.inner ++ plan.left)
    (record : Option Record) : plan.AgreeOnPage (binding.extend joined.source record) start := by
  intro column resolved own
  rw [Binding.extend_of_not_provides (not_provides_of_base resolved own isJoined)]
  exact agree column resolved own

theorem AgreeOnPage.extendAll {binding start : Binding} (agree : plan.AgreeOnPage binding start)
    {chosen : List (JoinedSource × Option Record)}
    (tables : ∀ choice ∈ chosen, choice.1 ∈ plan.inner ++ plan.left) :
    plan.AgreeOnPage (binding.extendAll chosen) start := by
  induction chosen generalizing binding with
  | nil => exact agree
  | cons choice rest induction =>
      rw [List.forall_mem_cons] at tables
      exact induction (agree.extend tables.1 choice.2) tables.2

theorem holdsFor_congr {binding start : Binding} (agree : plan.AgreeOnPage binding start)
    {joined : JoinedSource} (alone : plan.IsLocal joined.source joined.join.on) (record : Record) :
    joined.holdsFor plan.affinity binding record = joined.holdsFor plan.affinity start record := by
  rw [holdsFor_eq, holdsFor_eq]
  refine holds_congr fun column read => ?_
  obtain ⟨resolved, own⟩ := alone column read
  cases provided : joined.source.provides column with
  | true => rw [Binding.extend_of_provides provided, Binding.extend_of_provides provided]
  | false =>
      rw [provided] at own
      rw [Binding.extend_of_not_provides provided, Binding.extend_of_not_provides provided]
      exact agree column resolved (own.resolve_left Bool.false_ne_true)

theorem isMatch_congr {binding start : Binding} (agree : plan.AgreeOnPage binding start)
    {joined : JoinedSource} (alone : plan.IsLocal joined.source joined.join.on)
    (choice : Option Record) :
    plan.IsMatch binding joined choice ↔ plan.IsMatch start joined choice := by
  cases choice with
  | some record => rw [IsMatch, IsMatch, holdsFor_congr agree alone]
  | none => simp only [IsMatch, holdsFor_congr agree alone]

theorem isLeftChoice_iff {binding start : Binding} (agree : plan.AgreeOnPage binding start)
    {chosen : List (JoinedSource × Option Record)}
    (tables : ∀ choice ∈ chosen, choice.1 ∈ plan.inner ++ plan.left)
    (alone : ∀ choice ∈ chosen, plan.IsLocal choice.1.source choice.1.join.on) :
    plan.IsLeftChoice binding chosen ↔
      ∀ choice ∈ chosen, plan.IsMatch start choice.1 choice.2 := by
  induction chosen generalizing binding with
  | nil => simp [IsLeftChoice]
  | cons choice rest induction =>
      obtain ⟨joined, record⟩ := choice
      rw [List.forall_mem_cons] at tables alone ⊢
      rw [IsLeftChoice, isMatch_congr agree alone.1,
        induction (agree.extend tables.1 record) tables.2 alone.2]

theorem extendAll_eq_of_sole {start : Binding} {chosen : List (JoinedSource × Option Record)}
    {column : Column}
    (sole : (chosen.filter fun choice => choice.1.source.provides column).length ≤ 1)
    {choice : JoinedSource × Option Record} (member : choice ∈ chosen)
    (own : choice.1.source.provides column = true) :
    start.extendAll chosen column = start.extend choice.1.source choice.2 column := by
  induction chosen generalizing start with
  | nil => simp at member
  | cons head rest induction =>
      rw [List.filter_cons] at sole
      rw [Binding.extendAll_cons]
      rcases List.mem_cons.1 member with rfl | among
      · rw [if_pos own, List.length_cons] at sole
        have empty : rest.filter (fun choice => choice.1.source.provides column) = [] :=
          List.length_eq_zero_iff.1 (by omega)
        rw [List.filter_eq_nil_iff] at empty
        apply Binding.extendAll_of_not_provides
        exact fun other isOther => Bool.eq_false_iff.2 (empty other isOther)
      · have later : (rest.filter fun choice => choice.1.source.provides column).length ≤ 1 := by
          split at sole
          · rw [List.length_cons] at sole
            omega
          · exact sole
        rw [induction later among]
        cases given : choice.2 with
        | some record => rw [Binding.extend_of_provides own, Binding.extend_of_provides own]
        | none => rw [Binding.extend_none own, Binding.extend_none own]

/-- A column of a joined table has the value of the record that was chosen for the table, and a
column of the page keeps its value. -/
theorem extendAll_eq_extend {start : Binding} {chosen : List (JoinedSource × Option Record)}
    (tables : (chosen.map Prod.fst).Sublist (plan.inner ++ plan.left))
    {choice : JoinedSource × Option Record} (member : choice ∈ chosen) {column : Column}
    (resolved : plan.resolves column = true)
    (own : choice.1.source.provides column = true ∨ plan.base.provides column = true) :
    start.extendAll chosen column = start.extend choice.1.source choice.2 column := by
  rcases own with own | own
  · refine extendAll_eq_of_sole ?_ member own
    have kept : ((chosen.map Prod.fst).map JoinedSource.source).Sublist plan.sources :=
      (tables.map JoinedSource.source).cons plan.base
    have atMost := (kept.filter fun source => source.provides column).length_le
    rw [List.map_map, List.filter_map, List.length_map] at atMost
    exact Nat.le_trans atMost (isSole_of_resolves resolved)
  · have others : ∀ other ∈ chosen, other.1.source.provides column = false := by
      intro other isOther
      exact not_provides_of_base resolved own (tables.subset (List.mem_map.2 ⟨other, isOther, rfl⟩))
    rw [Binding.extendAll_of_not_provides others,
      Binding.extend_of_not_provides (others choice member)]

theorem holds_extendAll {start : Binding} {chosen : List (JoinedSource × Option Record)}
    (tables : (chosen.map Prod.fst).Sublist (plan.inner ++ plan.left))
    {choice : JoinedSource × Option Record} (member : choice ∈ chosen) {filter : Filter}
    (alone : plan.IsLocal choice.1.source filter) :
    plan.holds (start.extendAll chosen) filter =
      plan.holds (start.extend choice.1.source choice.2) filter := by
  refine holds_congr fun column read => ?_
  obtain ⟨resolved, own⟩ := alone column read
  exact extendAll_eq_extend tables member resolved own

/-- The join of a table in a list of its own has the truth that it has beside the page alone. -/
theorem holds_join_extendAll {start : Binding} {inner : List (JoinedSource × Option Record)}
    (alone : ∀ joined ∈ plan.inner ++ plan.left, plan.IsLocal joined.source joined.join.on)
    (tables : inner.map Prod.fst = plan.inner) {choice : JoinedSource × Option Record}
    (member : choice ∈ inner) :
    plan.holds (start.extendAll inner) choice.1.join.on =
      plan.holds (start.extend choice.1.source choice.2) choice.1.join.on := by
  refine holds_extendAll (tables ▸ List.sublist_append_left ..) member (alone _ ?_)
  exact List.mem_append_left _ (tables ▸ List.mem_map.2 ⟨choice, member, rfl⟩)

/-- What the tables before give does not matter for a choice in the tables that keep rows. -/
theorem isLeftChoice_extendAll_iff {start : Binding}
    {inner left : List (JoinedSource × Option Record)}
    (alone : ∀ joined ∈ plan.inner ++ plan.left, plan.IsLocal joined.source joined.join.on)
    (innerTables : inner.map Prod.fst = plan.inner) (leftTables : left.map Prod.fst = plan.left) :
    plan.IsLeftChoice (start.extendAll inner) left ↔
      ∀ choice ∈ left, plan.IsMatch start choice.1 choice.2 := by
  have isLeft : ∀ choice ∈ left, choice.1 ∈ plan.inner ++ plan.left := fun choice isChoice =>
    List.mem_append_right _ (leftTables ▸ List.mem_map.2 ⟨choice, isChoice, rfl⟩)
  refine isLeftChoice_iff (AgreeOnPage.extendAll (fun _ _ _ => rfl) fun choice isChoice => ?_)
    isLeft fun choice isChoice => alone _ (isLeft choice isChoice)
  exact List.mem_append_left _ (innerTables ▸ List.mem_map.2 ⟨choice, isChoice, rfl⟩)

structure IsCombination (plan : Plan) (start : Binding)
    (inner left : List (JoinedSource × Option Record)) : Prop where
  innerTables : inner.map Prod.fst = plan.inner
  leftTables : left.map Prod.fst = plan.left
  matching : ∀ choice ∈ inner ++ left, plan.IsMatch start choice.1 choice.2
  records : ∀ choice ∈ inner, choice.2.isSome = true

theorem mem_joinAll_of_isLocal {page : Record} {binding : Binding}
    (alone : ∀ joined ∈ plan.inner ++ plan.left, plan.IsLocal joined.source joined.join.on) :
    binding ∈ plan.joinAll page ↔
      ∃ inner left, plan.IsCombination (plan.pageBinding page) inner left ∧
        binding = (plan.pageBinding page).extendAll (inner ++ left) := by
  rw [mem_joinAll fun joined isJoined column read =>
    (alone joined (List.mem_append_left _ isJoined) column read).1]
  constructor
  · rintro ⟨inner, choice, hold, left, tables, isLeft, rfl⟩
    refine ⟨inner, left, ⟨choice.tables, tables, ?_, ?_⟩, rfl⟩
    · intro one member
      rcases List.mem_append.1 member with isInner | among
      · obtain ⟨record, isRecord, given⟩ := choice.records one isInner
        have holds := hold one.1 (choice.tables ▸ List.mem_map.2 ⟨one, isInner, rfl⟩)
        rw [holds_join_extendAll alone choice.tables isInner, given] at holds
        rw [given]
        exact ⟨isRecord, holds⟩
      · exact (isLeftChoice_extendAll_iff alone choice.tables tables).1 isLeft one among
    · intro one isInner
      obtain ⟨record, -, given⟩ := choice.records one isInner
      rw [given]
      rfl
  · rintro ⟨inner, left, combination, rfl⟩
    have innerMatch : ∀ choice ∈ inner, ∃ record ∈ choice.1.source.table.records,
        choice.2 = some record ∧
          choice.1.holdsFor plan.affinity (plan.pageBinding page) record = true := by
      intro choice isInner
      obtain ⟨record, given⟩ := Option.isSome_iff_exists.1 (combination.records choice isInner)
      have matching := combination.matching choice (List.mem_append_left _ isInner)
      rw [given] at matching
      exact ⟨record, matching.1, given, matching.2⟩
    refine ⟨inner, ⟨combination.innerTables, fun choice isInner => ?_⟩, ?_, left,
      combination.leftTables, ?_, rfl⟩
    · obtain ⟨record, isRecord, given, -⟩ := innerMatch choice isInner
      exact ⟨record, isRecord, given⟩
    · intro joined isJoined
      rw [← combination.innerTables] at isJoined
      obtain ⟨choice, isInner, rfl⟩ := List.mem_map.1 isJoined
      obtain ⟨record, -, given, holds⟩ := innerMatch choice isInner
      rw [holds_join_extendAll alone combination.innerTables isInner, given]
      exact holds
    · refine (isLeftChoice_extendAll_iff alone combination.innerTables
        combination.leftTables).2 fun choice isLeft => ?_
      exact combination.matching choice (List.mem_append_right _ isLeft)

theorem IsLeftChoice.isMatch {binding start : Binding} (agree : plan.AgreeOnPage binding start)
    {chosen : List (JoinedSource × Option Record)}
    (tables : ∀ choice ∈ chosen, choice.1 ∈ plan.inner ++ plan.left)
    (left : plan.IsLeftChoice binding chosen) {choice : JoinedSource × Option Record}
    (member : choice ∈ chosen) (alone : plan.IsLocal choice.1.source choice.1.join.on) :
    plan.IsMatch start choice.1 choice.2 := by
  induction chosen generalizing binding with
  | nil => cases member
  | cons head rest induction =>
      obtain ⟨first, later⟩ := left
      rw [List.forall_mem_cons] at tables
      rcases List.mem_cons.1 member with rfl | among
      · exact (isMatch_congr agree alone _).1 first
      · exact induction (agree.extend tables.1 head.2) tables.2 later among

/-- A joined row shows a match with the page of every table whose join reads the page alone beside
it, whatever the other joins read. -/
theorem exists_isMatch_of_mem_joinAll {page : Record} {binding : Binding}
    (resolved : ∀ joined ∈ plan.inner, ∀ column ∈ Filter.columns joined.join.on,
      plan.resolves column = true)
    (isRow : binding ∈ plan.joinAll page) {joined : JoinedSource}
    (isJoined : joined ∈ plan.inner ++ plan.left)
    (alone : plan.IsLocal joined.source joined.join.on) :
    ∃ record, plan.IsMatch (plan.pageBinding page) joined record ∧
      (joined ∉ plan.left → record.isSome = true) ∧
      ∀ column, plan.resolves column = true → joined.source.provides column = true →
        binding column = (plan.pageBinding page).extend joined.source record column := by
  obtain ⟨inner, choices, holds, left, tables, leftChoice, rfl⟩ := (mem_joinAll resolved).1 isRow
  have whole : (inner ++ left).map Prod.fst = plan.inner ++ plan.left := by
    rw [List.map_append, choices.tables, tables]
  have reads {choice : JoinedSource × Option Record} (member : choice ∈ inner ++ left)
      (column : Column) (own : plan.resolves column = true)
      (provided : choice.1.source.provides column = true) :
      (plan.pageBinding page).extendAll (inner ++ left) column =
        (plan.pageBinding page).extend choice.1.source choice.2 column :=
    extendAll_eq_extend (whole ▸ List.Sublist.refl _) member own (.inl provided)
  by_cases keeps : joined ∈ plan.left
  · obtain ⟨choice, isChoice, rfl⟩ := List.mem_map.1 (tables ▸ keeps)
    refine ⟨choice.2, ?_, fun none => absurd keeps none, reads (List.mem_append_right _ isChoice)⟩
    refine IsLeftChoice.isMatch (AgreeOnPage.extendAll (fun _ _ _ => rfl) fun other isOther => ?_)
      (fun other isOther => ?_) leftChoice isChoice alone
    · exact List.mem_append_left _ (choices.tables ▸ List.mem_map_of_mem isOther)
    · exact List.mem_append_right _ (tables ▸ List.mem_map_of_mem isOther)
  · have drops := (List.mem_append.1 isJoined).resolve_right keeps
    obtain ⟨choice, isChoice, rfl⟩ := List.mem_map.1 (choices.tables ▸ drops)
    obtain ⟨record, isRecord, given⟩ := choices.records choice isChoice
    have matching := holds choice.1 drops
    rw [holds_extendAll (choices.tables ▸ List.sublist_append_left ..) isChoice alone] at matching
    rw [given] at matching
    refine ⟨choice.2, ?_, fun _ => given ▸ rfl, reads (List.mem_append_left _ isChoice)⟩
    rw [given]
    exact ⟨isRecord, matching⟩

/-- What can be had for each of some tables can be had for all of them together. -/
theorem exists_choice {tables : List JoinedSource} {q : JoinedSource → Option Record → Prop}
    (each : ∀ joined ∈ tables, ∃ record, q joined record) :
    ∃ chosen : List (JoinedSource × Option Record), chosen.map Prod.fst = tables ∧
      ∀ choice ∈ chosen, q choice.1 choice.2 := by
  induction tables with
  | nil => exact ⟨[], rfl, by simp⟩
  | cons joined rest induction =>
      rw [List.forall_mem_cons] at each
      obtain ⟨record, first⟩ := each.1
      obtain ⟨chosen, tables, others⟩ := induction each.2
      refine ⟨(joined, record) :: chosen, by rw [List.map_cons, tables], ?_⟩
      exact List.forall_mem_cons.2 ⟨first, others⟩

end Plan

end PageTree
