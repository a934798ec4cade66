import PageTree.Proofs.Store.Members

/-!
Groups of members in a plan. A group of one member without blanks drops rows by its join; any other
keeps rows by its joins and drops them by the filter. Main statement: a page has a joined row that
fulfils all groups just when it satisfies a member of every group.
-/

namespace PageTree

open Sql

namespace Store

theorem Joins.join_eq {store : Store} {join : Join} {joined : JoinedSource}
    (joins : store.Joins join joined) : joined.join = join := by
  obtain ⟨source, -, rfl⟩ := Option.map_eq_some_iff.1 joins
  rfl

theorem Joins.aliasName_eq {store : Store} {join : Join} {joined : JoinedSource}
    (joins : store.Joins join joined) : joined.source.aliasName = join.aliasName := by
  obtain ⟨source, isSource, rfl⟩ := Option.map_eq_some_iff.1 joins
  obtain ⟨table, -, rfl⟩ := Option.map_eq_some_iff.1 isSource
  rfl

theorem Joins.eq {store : Store} {join : Join} {joined : JoinedSource}
    (joins : store.Joins join joined) {table : Table}
    (found : store.source? join.table = some table) :
    joined.join = join ∧ joined.source = { aliasName := join.aliasName, table } := by
  rw [Joins, joinSource?, found, Option.map_some, Option.map_some, Option.some.injEq] at joins
  rw [← joins]
  exact ⟨rfl, rfl⟩

end Store

theorem MemberGroup.isLone_iff {group : MemberGroup} :
    group.isLone = true ↔ ∃ member, group = [member] ∧ member.blank = false := by
  unfold isLone
  split
  · next member => simp
  · next other =>
    simp only [Bool.false_eq_true, false_iff, not_exists, not_and]
    exact fun member lone => absurd lone (other member)

namespace Plan

variable {plan : Plan} {store : Store}

theorem isLocal_iff {source : Source} {filter : Filter} :
    plan.IsLocal source filter ↔
      Condition.Forall (fun test : Test => ∀ column ∈ test.columns, plan.resolves column = true ∧
        (source.provides column = true ∨ plan.base.provides column = true)) filter := by
  rw [IsLocal, Filter.columns, List.forall_mem_flatMap]
  rfl

namespace Reads

variable {member : Member} {table : FieldTable} (reads : plan.Reads store member table)

include reads

theorem isLocal_pageLink : plan.IsLocal (member.source table) (pageLink member.aliasName) := by
  rw [isLocal_iff, pageLink, Condition.forall_test]
  intro column read
  rcases List.mem_pair.1 read with rfl | rfl
  · exact ⟨reads.page, .inl (member.provides_page table)⟩
  · exact ⟨reads.id, .inr reads.provides_id⟩

theorem isLocal_link (alone : plan.IsLocal (member.source table) member.condition) :
    plan.IsLocal (member.source table) member.link := by
  rw [isLocal_iff, Member.link, Condition.forall_conj]
  intro part isPart
  rcases List.mem_pair.1 isPart with rfl | rfl
  · exact isLocal_iff.1 reads.isLocal_pageLink
  · exact isLocal_iff.1 alone

theorem isLocal_leftJoin (alone : plan.IsLocal (member.source table) member.condition) :
    plan.IsLocal (member.source table) member.leftJoin.on := by
  unfold Member.leftJoin
  split
  · exact reads.isLocal_pageLink
  · exact reads.isLocal_link alone

end Reads

namespace Asks

variable {now : Date.Moment} {term : Term} {field : Field} {member : Member} {kind : FieldKind}
  {table : FieldTable} (asks : plan.Asks store now term field member kind table)

include asks

theorem isLocal_condition : plan.IsLocal (member.source table) member.condition := by
  obtain ⟨branches, memberOf⟩ := asks.memberOf
  rw [isLocal_iff, memberOf.condition, Condition.forall_disj]
  intro filter isFilter
  obtain ⟨branch, isBranch, among⟩ := List.mem_flatMap.1 isFilter
  obtain ⟨value, -, branched⟩ := exists_of_mem_forall₂ memberOf.branched isBranch
  have page : ∀ column ∈ [member.page], plan.resolves column = true ∧
      ((member.source table).provides column = true ∨ plan.base.provides column = true) :=
    List.forall_mem_singleton.2 ⟨asks.reads.page, .inl (member.provides_page table)⟩
  unfold Member.branch at branched
  split at branched
  · cases branched
    rw [List.mem_singleton.1 among]
    unfold Member.rowFilter
    split
    · exact (Condition.forall_test _).2 page
    · exact (Condition.forall_test _).2 page
  · obtain ⟨matching, matched, rfl⟩ := map_eq_ok.1 branched
    have isOn := FieldKind.isOn_matching? (FieldKind.matching_eq_ok matched)
    rw [Member.Branch.filters] at among
    split at among
    · simp at among
    · rw [List.mem_singleton.1 among, Condition.forall_conj]
      intro part isPart
      obtain ⟨test, isTest, rfl⟩ := List.mem_map.1 isPart
      refine (Condition.forall_fragment test).2 fun column read => ?_
      rw [(isOn.tests test isTest).eq_of_mem_columns read]
      exact ⟨asks.reads.data, .inl (member.provides_data table)⟩

theorem innerJoin_eq (filled : member.blank = false) {joined : JoinedSource}
    (joins : store.Joins member.innerJoin joined) :
    joined.join.on = member.leftJoin.on ∧ joined.source = member.source table := by
  obtain ⟨join, source⟩ := joins.eq asks.source
  rw [join, source, Member.leftJoin, filled]
  exact ⟨rfl, rfl⟩

end Asks

/-- The conjunct of the groups holds where every group that is no join alone has a member whose
condition holds. -/
theorem holds_conjuncts_iff {groups : List MemberGroup} {binding : Binding} :
    (∀ conjunct ∈ MemberGroup.conjuncts groups, plan.holds binding conjunct.filter = true) ↔
      ∀ group ∈ groups, group.isLone = false →
        ∃ member ∈ group, plan.holds binding member.condition = true := by
  have whole : (∀ conjunct ∈ MemberGroup.conjuncts groups,
      plan.holds binding conjunct.filter = true) ↔
        ∀ filter ∈ groups.filterMap MemberGroup.filter?, plan.holds binding filter = true := by
    unfold MemberGroup.conjuncts
    split
    · next empty => simp [empty]
    · rw [List.forall_mem_singleton, Conjunct.filter, holds_conj, List.all_eq_true]
  rw [whole]
  constructor
  · intro all group isGroup several
    have isFilter : .disj (group.map Member.condition) ∈ groups.filterMap MemberGroup.filter? := by
      refine List.mem_filterMap.2 ⟨group, isGroup, ?_⟩
      rw [MemberGroup.filter?, several, if_neg Bool.false_ne_true]
    have holds := all _ isFilter
    rw [holds_disj, List.any_map] at holds
    exact List.any_eq_true.1 holds
  · intro all filter isFilter
    obtain ⟨group, isGroup, given⟩ := List.mem_filterMap.1 isFilter
    unfold MemberGroup.filter? at given
    split at given
    · cases given
    · next several =>
      cases given
      rw [holds_disj, List.any_map]
      exact List.any_eq_true.2 (all group isGroup (Bool.eq_false_iff.2 several))

/-! ### Plans of groups -/

/-- The page satisfies a value that the member asks for. -/
def IsFulfilled (plan : Plan) (store : Store) (now : Date.Moment) (page : Page) (member : Member) :
    Prop :=
  ∃ term field kind table, plan.Asks store now term field member kind table ∧
    ∃ value ∈ term.values, store.satisfiesValue now field term.operator page value = true

theorem Asks.isFulfilled_iff {now : Date.Moment} {term : Term} {field : Field} {member : Member}
    {kind : FieldKind} {table : FieldTable}
    (asks : plan.Asks store now term field member kind table) {page : Page} :
    plan.IsFulfilled store now page member ↔
      ∃ value ∈ term.values, store.satisfiesValue now field term.operator page value = true := by
  constructor
  · rintro ⟨otherTerm, otherField, otherKind, otherTable, others, value, isValue, satisfied⟩
    have same : member.source table = member.source otherTable := by
      unfold Member.source
      rw [Option.some.inj (asks.source.symm.trans others.source)]
    obtain ⟨record, matching, holds⟩ := others.exists_match_of_satisfies
      (by rfl : (JoinedSource.of member.leftJoin (member.source table)).join.on = _) same isValue
      satisfied
    exact asks.exists_satisfied_of_match rfl rfl matching holds
  · rintro ⟨value, isValue, satisfied⟩
    exact ⟨term, field, kind, table, asks, value, isValue, satisfied⟩

/-- The plan joins the tables of the members as their groups say. -/
structure Serves (plan : Plan) (store : Store) (now : Date.Moment) (groups : List MemberGroup) :
    Prop where
  asks : ∀ group ∈ groups, ∀ member ∈ group, ∃ term field kind table,
    plan.Asks store now term field member kind table
  apart : ∀ group ∈ groups, ∀ member ∈ group, ∀ other ∈ groups, ∀ second ∈ other,
    member.aliasName = second.aliasName → member = second
  inner : ∀ joined ∈ plan.inner, ∃ group ∈ groups, group.isLone = true ∧
    ∃ member ∈ group, store.Joins member.innerJoin joined
  left : ∀ joined ∈ plan.left, ∃ group ∈ groups, group.isLone = false ∧
    ∃ member ∈ group, store.Joins member.leftJoin joined
  innerOf : ∀ group ∈ groups, group.isLone = true → ∀ member ∈ group,
    ∃ joined ∈ plan.inner, store.Joins member.innerJoin joined
  leftOf : ∀ group ∈ groups, group.isLone = false → ∀ member ∈ group,
    ∃ joined ∈ plan.left, store.Joins member.leftJoin joined

theorem exists_isMatch (start : Binding) (joined : JoinedSource) :
    ∃ record, plan.IsMatch start joined record := by
  by_cases some : ∃ record ∈ joined.source.table.records,
      joined.holdsFor plan.affinity start record = true
  · obtain ⟨record, isRecord, holds⟩ := some
    exact ⟨.some record, isRecord, holds⟩
  · refine ⟨none, fun record isRecord => Bool.eq_false_iff.2 fun holds => some ?_⟩
    exact ⟨record, isRecord, holds⟩

namespace Serves

variable {now : Date.Moment} {groups : List MemberGroup} (serves : plan.Serves store now groups)

include serves

theorem isLocal : ∀ joined ∈ plan.inner ++ plan.left,
    plan.IsLocal joined.source joined.join.on := by
  intro joined isJoined
  rcases List.mem_append.1 isJoined with inner | left
  · obtain ⟨group, isGroup, -, member, isMember, joins⟩ := serves.inner joined inner
    obtain ⟨term, field, kind, table, asks⟩ := serves.asks group isGroup member isMember
    obtain ⟨join, source⟩ := joins.eq asks.source
    rw [join, source]
    exact asks.reads.isLocal_link asks.isLocal_condition
  · obtain ⟨group, isGroup, -, member, isMember, joins⟩ := serves.left joined left
    obtain ⟨term, field, kind, table, asks⟩ := serves.asks group isGroup member isMember
    obtain ⟨join, source⟩ := joins.eq asks.source
    rw [join, source]
    exact asks.reads.isLocal_leftJoin asks.isLocal_condition

/-- A row that fulfils the groups shows a member of every group that the page satisfies. -/
theorem exists_isFulfilled {page : Page} {binding : Binding}
    (isRow : binding ∈ plan.joinAll page.record)
    (filtered : ∀ group ∈ groups, group.isLone = false →
      ∃ member ∈ group, plan.holds binding member.condition = true) :
    ∀ group ∈ groups, ∃ member ∈ group, plan.IsFulfilled store now page member := by
  obtain ⟨inner, left, combination, rfl⟩ := (mem_joinAll_of_isLocal serves.isLocal).1 isRow
  intro group isGroup
  cases lone : group.isLone with
  | true =>
      obtain ⟨member, rfl, filled⟩ := MemberGroup.isLone_iff.1 lone
      have isMember : member ∈ [member] := List.mem_singleton_self _
      obtain ⟨term, field, kind, table, asks⟩ := serves.asks _ isGroup member isMember
      obtain ⟨joined, isJoined, joins⟩ := serves.innerOf _ isGroup lone member isMember
      obtain ⟨on, source⟩ := asks.innerJoin_eq filled joins
      rw [← combination.innerTables] at isJoined
      obtain ⟨choice, isChoice, rfl⟩ := List.mem_map.1 isJoined
      have matching := combination.matching choice (List.mem_append_left _ isChoice)
      obtain ⟨record, given⟩ := Option.isSome_iff_exists.1 (combination.records choice isChoice)
      rw [given] at matching
      exact ⟨member, isMember, term, field, kind, table, asks,
        asks.exists_satisfied_of_match on source matching
          (asks.holds_of_match on source filled matching)⟩
  | false =>
      obtain ⟨member, isMember, holds⟩ := filtered group isGroup lone
      obtain ⟨term, field, kind, table, asks⟩ := serves.asks group isGroup member isMember
      obtain ⟨joined, isJoined, joins⟩ := serves.leftOf group isGroup lone member isMember
      obtain ⟨join, source⟩ := joins.eq asks.source
      rw [← combination.leftTables] at isJoined
      obtain ⟨choice, isChoice, rfl⟩ := List.mem_map.1 isJoined
      have among := List.mem_append_right inner isChoice
      have tables : (inner ++ left).map Prod.fst = plan.inner ++ plan.left := by
        rw [List.map_append, combination.innerTables, combination.leftTables]
      have alone : plan.IsLocal choice.1.source member.condition := source ▸ asks.isLocal_condition
      rw [holds_extendAll (tables ▸ List.Sublist.refl _) among alone] at holds
      exact ⟨member, isMember, term, field, kind, table, asks,
        asks.exists_satisfied_of_match (congrArg Join.on join) source
          (combination.matching choice among) holds⟩

/-- The table of a group of its own has a row for a page that satisfies the group. -/
theorem exists_inner_match {page : Page}
    (fulfilled : ∀ group ∈ groups, ∃ member ∈ group, plan.IsFulfilled store now page member)
    {joined : JoinedSource} (isJoined : joined ∈ plan.inner) :
    ∃ record : Option Record,
      plan.IsMatch (plan.pageBinding page.record) joined record ∧ record.isSome = true := by
  obtain ⟨group, isGroup, lone, member, isMember, joins⟩ := serves.inner joined isJoined
  obtain ⟨sole, rfl, filled⟩ := MemberGroup.isLone_iff.1 lone
  obtain rfl := List.mem_singleton.1 isMember
  obtain ⟨other, isOther, term, field, kind, table, asks, value, isValue, satisfied⟩ :=
    fulfilled _ isGroup
  obtain rfl := List.mem_singleton.1 isOther
  obtain ⟨on, source⟩ := asks.innerJoin_eq filled joins
  obtain ⟨record, matching, holds⟩ := asks.exists_match_of_satisfies on source isValue satisfied
  cases record with
  | some record => exact ⟨some record, matching, rfl⟩
  | none =>
      rw [source, asks.not_holds_none filled] at holds
      cases holds

/-- A table that keeps rows has a match that fulfils its member where the page satisfies it. -/
theorem exists_left_match (page : Page) {joined : JoinedSource} (isJoined : joined ∈ plan.left) :
    ∃ record, plan.IsMatch (plan.pageBinding page.record) joined record ∧
      ∀ group ∈ groups, ∀ member ∈ group, store.Joins member.leftJoin joined →
        plan.IsFulfilled store now page member →
          plan.holds ((plan.pageBinding page.record).extend joined.source record)
            member.condition = true := by
  obtain ⟨group, isGroup, -, member, isMember, joins⟩ := serves.left joined isJoined
  have only : ∀ other ∈ groups, ∀ second ∈ other, store.Joins second.leftJoin joined →
      second = member := by
    intro other isOther second isSecond joinsToo
    refine serves.apart other isOther second isSecond group isGroup member isMember ?_
    exact congrArg Join.aliasName (joinsToo.join_eq.symm.trans joins.join_eq)
  by_cases full : plan.IsFulfilled store now page member
  · obtain ⟨term, field, kind, table, asks, value, isValue, satisfied⟩ := full
    obtain ⟨join, source⟩ := joins.eq asks.source
    obtain ⟨record, matching, holds⟩ :=
      asks.exists_match_of_satisfies (congrArg Join.on join) source isValue satisfied
    refine ⟨record, matching, fun other isOther second isSecond joinsToo _ => ?_⟩
    rw [only other isOther second isSecond joinsToo]
    exact holds
  · obtain ⟨record, matching⟩ := exists_isMatch (plan.pageBinding page.record) joined
    refine ⟨record, matching, fun other isOther second isSecond joinsToo fullToo => ?_⟩
    rw [only other isOther second isSecond joinsToo] at fullToo
    exact absurd fullToo full

/-- A page that satisfies a member of every group has a row that fulfils the groups. -/
theorem exists_mem_joinAll {page : Page}
    (fulfilled : ∀ group ∈ groups, ∃ member ∈ group, plan.IsFulfilled store now page member) :
    ∃ binding ∈ plan.joinAll page.record, ∀ group ∈ groups, group.isLone = false →
      ∃ member ∈ group, plan.holds binding member.condition = true := by
  obtain ⟨inner, innerTables, inners⟩ :=
    exists_choice fun joined isJoined => serves.exists_inner_match fulfilled isJoined
  obtain ⟨left, leftTables, lefts⟩ :=
    exists_choice fun joined isJoined => serves.exists_left_match page isJoined
  have combination : plan.IsCombination (plan.pageBinding page.record) inner left := by
    refine ⟨innerTables, leftTables, fun choice isChoice => ?_, fun choice isInner =>
      (inners choice isInner).2⟩
    rcases List.mem_append.1 isChoice with isInner | isLeft
    · exact (inners choice isInner).1
    · exact (lefts choice isLeft).1
  refine ⟨_, (mem_joinAll_of_isLocal serves.isLocal).2 ⟨inner, left, combination, rfl⟩, ?_⟩
  intro group isGroup lone
  obtain ⟨member, isMember, full⟩ := fulfilled group isGroup
  obtain ⟨joined, isJoined, joins⟩ := serves.leftOf group isGroup lone member isMember
  have isLeft := isJoined
  rw [← leftTables] at isLeft
  obtain ⟨choice, isChoice, rfl⟩ := List.mem_map.1 isLeft
  have holds := (lefts choice isChoice).2 group isGroup member isMember joins full
  obtain ⟨term, field, kind, table, asks, -⟩ := full
  have alone : plan.IsLocal choice.1.source member.condition :=
    (joins.eq asks.source).2 ▸ asks.isLocal_condition
  have tables : (inner ++ left).map Prod.fst = plan.inner ++ plan.left := by
    rw [List.map_append, innerTables, leftTables]
  refine ⟨member, isMember, ?_⟩
  rw [holds_extendAll (tables ▸ List.Sublist.refl _) (List.mem_append_right inner isChoice) alone]
  exact holds

end Serves

end Plan

end PageTree
