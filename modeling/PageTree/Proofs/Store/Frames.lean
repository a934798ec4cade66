import PageTree.Proofs.Store.Alternatives

/-!
Queries in a frame. The members of terms on attached fields read their own tables, and the rest of a
query, its frame, reads none of these. Main statements: such a query has a plan just when its frame
has one and all members find their columns; then a page has a joined row just when it has one in the
frame and satisfies every group of members.
-/

namespace PageTree

open Sql

/-! ### Plans that read more -/

namespace Plan

/-- The plan reads what the other one reads, and some tables more. -/
structure Adds (plan frame : Plan) (extra : List JoinedSource) : Prop where
  base : plan.base = frame.base
  tables : (plan.inner ++ plan.left).Perm (frame.inner ++ frame.left ++ extra)

namespace Adds

variable {plan frame : Plan} {extra : List JoinedSource} (adds : plan.Adds frame extra)

include adds

theorem sources : plan.sources.Perm (frame.sources ++ extra.map JoinedSource.source) := by
  rw [Plan.sources, Plan.sources, adds.base, List.cons_append, ← List.map_append]
  exact (adds.tables.map _).cons _

theorem resolves_of_source {column : Column} (resolved : plan.resolves column = true)
    {source : Source} (isSource : source ∈ frame.sources) (own : source.provides column = true) :
    frame.resolves column = true := by
  rw [resolves, decide_eq_true_eq] at resolved ⊢
  have counted := (adds.sources.filter fun source => source.provides column).length_eq
  have among : source ∈ frame.sources.filter fun source => source.provides column :=
    List.mem_filter.2 ⟨isSource, own⟩
  have some := List.length_pos_of_mem among
  rw [resolved, List.filter_append, List.length_append] at counted
  omega

variable {column : Column} (resolved : plan.resolves column = true)
  (framed : frame.resolves column = true)

include resolved framed

theorem not_provides {joined : JoinedSource} (isExtra : joined ∈ extra) :
    joined.source.provides column = false := by
  obtain ⟨source, isSource, own⟩ := exists_of_resolves framed
  have sole := (isSole_of_resolves resolved).perm adds.sources
  exact sole.not_provides isSource own (List.mem_map_of_mem isExtra)

theorem affinity_eq : plan.affinity column = frame.affinity column := by
  obtain ⟨source, isSource, own⟩ := exists_of_resolves framed
  have isSourceToo : source ∈ plan.sources :=
    adds.sources.mem_iff.2 (List.mem_append_left _ isSource)
  rw [affinity_of_resolves framed isSource own, affinity_of_resolves resolved isSourceToo own]

theorem extendAll_eq {chosen : List (JoinedSource × Option Record)}
    (tables : ∀ choice ∈ chosen, choice.1 ∈ extra) (start : Binding) :
    start.extendAll chosen column = start column :=
  Binding.extendAll_of_not_provides fun choice isChoice =>
    adds.not_provides resolved framed (tables choice isChoice)

omit resolved framed in
theorem holds_eq {filter : Filter} {binding other : Binding}
    (read : ∀ column ∈ filter.columns, plan.resolves column = true ∧
      frame.resolves column = true ∧ binding column = other column) :
    plan.holds binding filter = frame.holds other filter := by
  have same : filter.eval (Test.truth plan.affinity binding) =
      filter.eval (Test.truth frame.affinity other) := by
    refine Condition.eval_congr filter fun test isTest => Test.truth_congr fun column isColumn => ?_
    obtain ⟨resolved, framed, equal⟩ := read column (List.mem_flatMap.2 ⟨test, isTest, isColumn⟩)
    exact ⟨adds.affinity_eq resolved framed, equal⟩
  rw [holds, holds, same]

end Adds

end Plan

/-! ### Members in a store -/

theorem Member.StandsByName.forall_aliasName {catalog : Catalog} {term : Term} {name : String}
    {member : Member} (stands : member.StandsByName catalog term name) :
    Condition.Forall (fun test : Test =>
      ∀ column ∈ test.columns, column.aliasName = member.aliasName) member.condition := by
  obtain ⟨field, kind, branches, isFor⟩ := stands
  intro test isTest column read
  rcases isFor.forall_tests test isTest with isOn | ⟨-, rfl | rfl⟩
  · rw [isOn.eq_of_mem_columns read]
    rfl
  · rw [List.mem_singleton.1 read]
  · rw [List.mem_singleton.1 read]

/-- The store has a table under the name that the member gives, and queries read it. -/
def Store.HasTableOf (store : Store) (member : Member) : Prop :=
  ∃ table, store.table? member.table = some table ∧
    store.source? member.table = some table.asTable

theorem Member.StandsByName.exists_table {catalog : Catalog} {term : Term} {name : String}
    {member : Member} (stands : member.StandsByName catalog term name) {store : Store}
    (reached : Store.Reachable catalog.schema store) (apart : catalog.schema.HasApartNames)
    (default : catalog.schema.HasDefaultTables) : store.HasTableOf member := by
  obtain ⟨field, kind, branches, isFor⟩ := stands
  have isField := Schema.mem_fields_of_field? isFor.isField
  have held := reached.holds (Schema.hasOwnTables_of_default apart default) isField
  obtain ⟨other, table, -, found, -⟩ := held.table
  rw [Store.HasTableOf, isFor.table]
  refine ⟨table, found, Store.source?_eq found ?_⟩
  rw [default field isField]
  exact Schema.prefix_foldName_defaultTable field.name

namespace MemberGroup

variable {p : Test → Prop} {group : MemberGroup}

theorem forall_joins (links : ∀ member ∈ group, Condition.Forall p (pageLink member.aliasName))
    (conditions : ∀ member ∈ group, Condition.Forall p member.condition) :
    ∀ join ∈ group.joins, Condition.Forall p join.on := by
  have link : ∀ member ∈ group, Condition.Forall p member.link := by
    intro member isMember
    rw [Member.link, Condition.forall_conj, List.forall_mem_cons, List.forall_mem_singleton]
    exact ⟨links member isMember, conditions member isMember⟩
  intro join isJoin
  unfold joins at isJoin
  split at isJoin
  · obtain ⟨member, isMember, rfl⟩ := List.mem_map.1 isJoin
    exact link member isMember
  · obtain ⟨member, isMember, rfl⟩ := List.mem_map.1 isJoin
    unfold Member.leftJoin
    split
    · exact links member isMember
    · exact link member isMember

theorem forall_condition {groups : List MemberGroup}
    (ofJoins : ∀ join ∈ groups.flatMap joins, Condition.Forall p join.on)
    (ofConjuncts : ∀ conjunct ∈ conjuncts groups, Condition.Forall p conjunct.filter) :
    ∀ member ∈ groups.flatten, Condition.Forall p member.condition := by
  intro member isOne
  obtain ⟨group, isGroup, isMember⟩ := List.mem_flatten.1 isOne
  cases lone : isLone group with
  | true =>
      have link := ofJoins member.innerJoin (List.mem_flatMap.2 ⟨group, isGroup, by
        rw [joins, if_pos lone]
        exact List.mem_map_of_mem isMember⟩)
      rw [Member.innerJoin, Member.link, Condition.forall_conj] at link
      exact link _ (List.mem_cons_of_mem _ (List.mem_singleton_self _))
  | false =>
      have isFilter : .disj (group.map Member.condition) ∈ groups.filterMap filter? := by
        refine List.mem_filterMap.2 ⟨group, isGroup, ?_⟩
        rw [filter?, lone, if_neg Bool.false_ne_true]
      unfold conjuncts at ofConjuncts
      split at ofConjuncts
      · next empty =>
        rw [empty] at isFilter
        cases isFilter
      · rw [List.forall_mem_singleton, Conjunct.filter, Condition.forall_conj] at ofConjuncts
        have whole := ofConjuncts _ isFilter
        rw [Condition.forall_disj, List.forall_mem_map] at whole
        exact whole member isMember

end MemberGroup

/-- Do the tables of the store have all columns that a member reads? -/
def Store.Fits (store : Store) (member : Member) : Prop :=
  ∃ table, store.table? member.table = some table ∧
    member.condition.ReadsOnly fun name => table.asTable.hasColumn name = true

def Store.Selects (store : Store) (group : MemberGroup) (page : Page) : Prop :=
  ∃ member ∈ group, ∃ table, store.table? member.table = some table ∧
    member.Picks group.isLone table page

/-! ### Plans in a frame -/

namespace Plan

/-- A record for each table that drops rows, so that all conditions hold. -/
structure IsInnerChoice (plan : Plan) (page : Record)
    (chosen : List (JoinedSource × Option Record)) : Prop extends IsChoice plan.inner chosen where
  holds : ∀ joined ∈ plan.inner,
    plan.holds ((plan.pageBinding page).extendAll chosen) joined.join.on = true

/-- The plan reads the tables of the frame first and then those of members, as their groups say. -/
structure IsFramed (plan frame : Plan) (store : Store) (groups : List MemberGroup)
    (inner : List JoinedSource) : Prop where
  base : plan.base = frame.base
  innerTables : plan.inner = frame.inner ++ inner
  frameLeft : frame.left = []
  resolves : ∀ joined ∈ frame.inner, ∀ column ∈ Filter.columns joined.join.on,
    plan.resolves column = true ∧ frame.resolves column = true
  carries : ∀ member ∈ groups.flatten, ∃ table, plan.Carries store member table
  apart : ∀ member ∈ groups.flatten, ∀ other ∈ groups.flatten,
    member.aliasName = other.aliasName → member = other
  joined : ∀ joined ∈ inner, ∃ group ∈ groups, group.isLone = true ∧
    ∃ member ∈ group, store.Joins member.innerJoin joined
  left : ∀ joined ∈ plan.left, ∃ group ∈ groups, group.isLone = false ∧
    ∃ member ∈ group, store.Joins member.leftJoin joined
  innerOf : ∀ group ∈ groups, group.isLone = true → ∀ member ∈ group,
    ∃ joined ∈ inner, store.Joins member.innerJoin joined
  leftOf : ∀ group ∈ groups, group.isLone = false → ∀ member ∈ group,
    ∃ joined ∈ plan.left, store.Joins member.leftJoin joined

namespace IsFramed

variable {plan frame : Plan} {store : Store} {groups : List MemberGroup}
  {inner : List JoinedSource} (framed : plan.IsFramed frame store groups inner)

include framed

theorem adds : plan.Adds frame (inner ++ plan.left) := by
  refine ⟨framed.base, ?_⟩
  rw [framed.innerTables, framed.frameLeft, List.append_nil, List.append_assoc]

theorem pageBinding_eq (page : Record) : plan.pageBinding page = frame.pageBinding page := by
  rw [pageBinding, pageBinding, framed.base]

theorem isLocal_inner {joined : JoinedSource} (isJoined : joined ∈ inner) :
    plan.IsLocal joined.source joined.join.on := by
  obtain ⟨group, isGroup, -, member, isMember, joins⟩ := framed.joined joined isJoined
  obtain ⟨table, carries⟩ := framed.carries member (List.mem_flatten.2 ⟨group, isGroup, isMember⟩)
  obtain ⟨join, source⟩ := joins.eq carries.kept
  rw [join, source]
  exact carries.isLocal_link carries.isLocal_condition

theorem isLocal_left {joined : JoinedSource} (isJoined : joined ∈ plan.left) :
    plan.IsLocal joined.source joined.join.on := by
  obtain ⟨group, isGroup, -, member, isMember, joins⟩ := framed.left joined isJoined
  obtain ⟨table, carries⟩ := framed.carries member (List.mem_flatten.2 ⟨group, isGroup, isMember⟩)
  obtain ⟨join, source⟩ := joins.eq carries.kept
  rw [join, source]
  exact carries.isLocal_leftJoin carries.isLocal_condition

theorem holds_frame_eq {page : Record} {first more : List (JoinedSource × Option Record)}
    (tables : ∀ choice ∈ more, choice.1 ∈ inner ++ plan.left) {filter : Filter}
    (read : ∀ column ∈ filter.columns, plan.resolves column = true ∧
      frame.resolves column = true) :
    plan.holds ((plan.pageBinding page).extendAll (first ++ more)) filter =
      frame.holds ((frame.pageBinding page).extendAll first) filter := by
  refine framed.adds.holds_eq fun column isColumn => ?_
  obtain ⟨inPlan, inFrame⟩ := read column isColumn
  refine ⟨inPlan, inFrame, ?_⟩
  rw [Binding.extendAll_append, framed.pageBinding_eq]
  exact framed.adds.extendAll_eq inPlan inFrame tables _

theorem resolves_inner : ∀ joined ∈ plan.inner, ∀ column ∈ Filter.columns joined.join.on,
    plan.resolves column = true := by
  rw [framed.innerTables, List.forall_mem_append]
  exact ⟨fun joined isJoined column read => (framed.resolves joined isJoined column read).1,
    fun joined isJoined column read => (framed.isLocal_inner isJoined column read).1⟩

theorem holds_inner_eq {page : Record} {first more : List (JoinedSource × Option Record)}
    (firstTables : first.map Prod.fst = frame.inner) (moreTables : more.map Prod.fst = inner)
    {choice : JoinedSource × Option Record} (isChoice : choice ∈ more) :
    plan.holds ((plan.pageBinding page).extendAll (first ++ more)) choice.1.join.on =
      plan.holds ((plan.pageBinding page).extend choice.1.source choice.2) choice.1.join.on := by
  have local' := framed.isLocal_inner (moreTables ▸ List.mem_map_of_mem isChoice)
  refine holds_extendAll ?_ (List.mem_append_right first isChoice) local'
  rw [List.map_append, firstTables, moreTables, ← framed.innerTables]
  exact List.sublist_append_left ..

/-- The tables that drop rows: those of the frame, and each of the others with a match of its
own. -/
theorem isInnerChoice_append_iff {page : Record}
    {first more : List (JoinedSource × Option Record)}
    (firstTables : first.map Prod.fst = frame.inner) (moreTables : more.map Prod.fst = inner) :
    plan.IsInnerChoice page (first ++ more) ↔
      frame.IsInnerChoice page first ∧ ∀ choice ∈ more, choice.2.isSome = true ∧
        plan.IsMatch (plan.pageBinding page) choice.1 choice.2 := by
  have among : ∀ choice ∈ more, choice.1 ∈ inner ++ plan.left := fun choice isChoice =>
    List.mem_append_left _ (moreTables ▸ List.mem_map_of_mem isChoice)
  have frameHolds {joined : JoinedSource} (isJoined : joined ∈ frame.inner) :
      plan.holds ((plan.pageBinding page).extendAll (first ++ more)) joined.join.on =
        frame.holds ((frame.pageBinding page).extendAll first) joined.join.on :=
    framed.holds_frame_eq among (framed.resolves joined isJoined)
  constructor
  · rintro ⟨⟨-, records⟩, holds⟩
    rw [List.forall_mem_append] at records
    rw [framed.innerTables, List.forall_mem_append] at holds
    refine ⟨⟨⟨firstTables, records.1⟩, fun joined isJoined => ?_⟩, fun choice isChoice => ?_⟩
    · rw [← frameHolds isJoined]
      exact holds.1 joined isJoined
    · obtain ⟨record, isRecord, given⟩ := records.2 choice isChoice
      have matching := holds.2 choice.1 (moreTables ▸ List.mem_map_of_mem isChoice)
      rw [framed.holds_inner_eq firstTables moreTables isChoice, given] at matching
      rw [given]
      exact ⟨rfl, isRecord, matching⟩
  · rintro ⟨⟨⟨-, records⟩, holds⟩, matching⟩
    have given : ∀ choice ∈ more, ∃ record ∈ choice.1.source.table.records,
        choice.2 = some record ∧ choice.1.holdsFor plan.affinity (plan.pageBinding page) record =
          true := by
      intro choice isChoice
      obtain ⟨isSome, isMatch⟩ := matching choice isChoice
      obtain ⟨record, given⟩ := Option.isSome_iff_exists.1 isSome
      rw [given] at isMatch
      exact ⟨record, isMatch.1, given, isMatch.2⟩
    refine ⟨⟨?_, ?_⟩, ?_⟩
    · rw [List.map_append, firstTables, moreTables, framed.innerTables]
    · refine List.forall_mem_append.2 ⟨records, fun choice isChoice => ?_⟩
      obtain ⟨record, isRecord, isSome, -⟩ := given choice isChoice
      exact ⟨record, isRecord, isSome⟩
    · rw [framed.innerTables]
      refine List.forall_mem_append.2 ⟨fun joined isJoined => ?_, fun joined isJoined => ?_⟩
      · rw [frameHolds isJoined]
        exact holds joined isJoined
      · rw [← moreTables] at isJoined
        obtain ⟨choice, isChoice, rfl⟩ := List.mem_map.1 isJoined
        obtain ⟨record, -, isSome, holdsFor⟩ := given choice isChoice
        rw [framed.holds_inner_eq firstTables moreTables isChoice, isSome]
        exact holdsFor

theorem isLeftChoice_iff {page : Record} {chosen left : List (JoinedSource × Option Record)}
    (tables : chosen.map Prod.fst = plan.inner) (leftTables : left.map Prod.fst = plan.left) :
    plan.IsLeftChoice ((plan.pageBinding page).extendAll chosen) left ↔
      ∀ choice ∈ left, plan.IsMatch (plan.pageBinding page) choice.1 choice.2 := by
  have isLeft : ∀ choice ∈ left, choice.1 ∈ plan.left := fun choice isChoice =>
    leftTables ▸ List.mem_map_of_mem isChoice
  refine Plan.isLeftChoice_iff (AgreeOnPage.extendAll (fun _ _ _ => rfl) fun choice isChoice => ?_)
    (fun choice isChoice => List.mem_append_right _ (isLeft choice isChoice))
    fun choice isChoice => framed.isLocal_left (isLeft choice isChoice)
  exact List.mem_append_left _ (tables ▸ List.mem_map_of_mem isChoice)

/-! ### Pages -/

variable {page : Page}

/-- What a joined row of the plan says: it has one of the frame in it, and a match for each group
of which some condition holds. -/
theorem selects_of_mem_joinAll {first more left : List (JoinedSource × Option Record)}
    (firstTables : first.map Prod.fst = frame.inner) (moreTables : more.map Prod.fst = inner)
    (matching : ∀ choice ∈ more, choice.2.isSome = true ∧
      plan.IsMatch (plan.pageBinding page.record) choice.1 choice.2)
    (leftTables : left.map Prod.fst = plan.left)
    (leftMatching : ∀ choice ∈ left,
      plan.IsMatch (plan.pageBinding page.record) choice.1 choice.2)
    {group : MemberGroup} (isGroup : group ∈ groups)
    (filtered : group.isLone = false → ∃ member ∈ group,
      plan.holds ((plan.pageBinding page.record).extendAll (first ++ more ++ left))
        member.condition = true) :
    store.Selects group page := by
  cases lone : group.isLone with
  | true =>
      obtain ⟨member, rfl, -⟩ := MemberGroup.isLone_iff.1 lone
      have isMember : member ∈ [member] := List.mem_singleton_self _
      obtain ⟨table, carries⟩ := framed.carries member (List.mem_flatten.2 ⟨_, isGroup, isMember⟩)
      obtain ⟨joined, isJoined, joins⟩ := framed.innerOf _ isGroup lone member isMember
      obtain ⟨join, source⟩ := joins.eq carries.kept
      rw [← moreTables] at isJoined
      obtain ⟨choice, isChoice, rfl⟩ := List.mem_map.1 isJoined
      obtain ⟨isSome, isMatch⟩ := matching choice isChoice
      obtain ⟨record, given⟩ := Option.isSome_iff_exists.1 isSome
      rw [given] at isMatch
      refine ⟨member, isMember, table, carries.found, ?_⟩
      rw [lone]
      exact (carries.exists_isMatch_iff_picks source (congrArg Join.on join) page).1
        ⟨record, isMatch⟩
  | false =>
      obtain ⟨member, isMember, holds⟩ := filtered lone
      obtain ⟨table, carries⟩ := framed.carries member (List.mem_flatten.2 ⟨_, isGroup, isMember⟩)
      obtain ⟨joined, isJoined, joins⟩ := framed.leftOf _ isGroup lone member isMember
      obtain ⟨join, source⟩ := joins.eq carries.kept
      rw [← leftTables] at isJoined
      obtain ⟨choice, isChoice, rfl⟩ := List.mem_map.1 isJoined
      have tables : (first ++ more ++ left).map Prod.fst = plan.inner ++ plan.left := by
        rw [List.map_append, List.map_append, firstTables, moreTables, leftTables,
          framed.innerTables]
      rw [holds_extendAll (tables ▸ List.Sublist.refl _) (List.mem_append_right _ isChoice)
        (source ▸ carries.isLocal_condition)] at holds
      refine ⟨member, isMember, table, carries.found, ?_⟩
      rw [lone]
      exact (carries.exists_match_iff_picks source (congrArg Join.on join) page).1
        ⟨choice.2, leftMatching choice isChoice, holds⟩

/-- The table of a lone member has a match for a page that the member selects. -/
theorem exists_inner_match (selects : ∀ group ∈ groups, store.Selects group page)
    {joined : JoinedSource} (isJoined : joined ∈ inner) :
    ∃ record : Option Record, record.isSome = true ∧
      plan.IsMatch (plan.pageBinding page.record) joined record := by
  obtain ⟨group, isGroup, lone, member, isMember, joins⟩ := framed.joined joined isJoined
  obtain ⟨table, carries⟩ := framed.carries member (List.mem_flatten.2 ⟨group, isGroup, isMember⟩)
  obtain ⟨join, source⟩ := joins.eq carries.kept
  obtain ⟨other, isOther, otherTable, found, picks⟩ := selects group isGroup
  obtain ⟨sole, rfl, -⟩ := MemberGroup.isLone_iff.1 lone
  obtain rfl := List.mem_singleton.1 isMember
  obtain rfl := List.mem_singleton.1 isOther
  obtain rfl : table = otherTable := Option.some.inj (carries.found.symm.trans found)
  rw [lone] at picks
  obtain ⟨record, isMatch⟩ :=
    (carries.exists_isMatch_iff_picks source (congrArg Join.on join) page).2 picks
  exact ⟨some record, rfl, isMatch⟩

/-- A table that keeps rows has a match that fulfils the condition of its member, where the member
picks the page. -/
theorem exists_left_match (page : Page) {joined : JoinedSource} (isJoined : joined ∈ plan.left) :
    ∃ record, plan.IsMatch (plan.pageBinding page.record) joined record ∧
      ∀ member ∈ groups.flatten, ∀ table, store.Joins member.leftJoin joined →
        store.table? member.table = some table → member.Picks false table page →
          plan.holds ((plan.pageBinding page.record).extend joined.source record)
            member.condition = true := by
  obtain ⟨group, isGroup, -, member, isMember, joins⟩ := framed.left joined isJoined
  have isOne := List.mem_flatten.2 ⟨group, isGroup, isMember⟩
  obtain ⟨table, carries⟩ := framed.carries member isOne
  obtain ⟨join, source⟩ := joins.eq carries.kept
  have only : ∀ other ∈ groups.flatten, store.Joins other.leftJoin joined → other = member :=
    fun other isOther joinsToo => framed.apart other isOther member isOne
      (congrArg Join.aliasName (joinsToo.join_eq.symm.trans joins.join_eq))
  have found (other : FieldTable) (given : store.table? member.table = some other) :
      other = table := Option.some.inj (given.symm.trans carries.found)
  by_cases picks : member.Picks false table page
  · obtain ⟨record, isMatch, holds⟩ :=
      (carries.exists_match_iff_picks source (congrArg Join.on join) page).2 picks
    refine ⟨record, isMatch, fun other isOther _ joinsToo _ _ => ?_⟩
    rw [only other isOther joinsToo]
    exact holds
  · obtain ⟨record, isMatch⟩ := exists_isMatch (plan.pageBinding page.record) joined
    refine ⟨record, isMatch, fun other isOther otherTable joinsToo given picksToo => ?_⟩
    obtain rfl := only other isOther joinsToo
    rw [found otherTable given] at picksToo
    exact absurd picksToo picks

/-- In a group of several members the condition of one holds, with the matches of its table, where
the group selects the page. -/
theorem exists_holds_of_selects {chosen left : List (JoinedSource × Option Record)}
    (tables : chosen.map Prod.fst = plan.inner) (leftTables : left.map Prod.fst = plan.left)
    (matching : ∀ choice ∈ left, ∀ member ∈ groups.flatten, ∀ table,
      store.Joins member.leftJoin choice.1 → store.table? member.table = some table →
        member.Picks false table page →
          plan.holds ((plan.pageBinding page.record).extend choice.1.source choice.2)
            member.condition = true)
    {group : MemberGroup} (isGroup : group ∈ groups) (several : group.isLone = false)
    (selects : store.Selects group page) :
    ∃ member ∈ group,
      plan.holds ((plan.pageBinding page.record).extendAll (chosen ++ left)) member.condition =
        true := by
  obtain ⟨member, isMember, table, found, picks⟩ := selects
  rw [several] at picks
  have isOne := List.mem_flatten.2 ⟨group, isGroup, isMember⟩
  obtain ⟨same, carries⟩ := framed.carries member isOne
  obtain ⟨joined, isJoined, joins⟩ := framed.leftOf group isGroup several member isMember
  obtain ⟨-, source⟩ := joins.eq carries.kept
  rw [← leftTables] at isJoined
  obtain ⟨choice, isChoice, rfl⟩ := List.mem_map.1 isJoined
  have all : (chosen ++ left).map Prod.fst = plan.inner ++ plan.left := by
    rw [List.map_append, tables, leftTables]
  refine ⟨member, isMember, ?_⟩
  rw [holds_extendAll (all ▸ List.Sublist.refl _) (List.mem_append_right _ isChoice)
    (source ▸ carries.isLocal_condition)]
  exact matching choice isChoice member isOne table joins found picks

theorem mem_frame_joinAll {page : Record} {binding : Binding} :
    binding ∈ frame.joinAll page ↔ ∃ first, frame.IsInnerChoice page first ∧
      binding = (frame.pageBinding page).extendAll first := by
  have resolved : ∀ joined ∈ frame.inner, ∀ column ∈ Filter.columns joined.join.on,
      frame.resolves column = true := fun joined isJoined column read =>
    (framed.resolves joined isJoined column read).2
  rw [mem_joinAll resolved]
  constructor
  · rintro ⟨first, choice, holds, left, tables, -, rfl⟩
    rw [framed.frameLeft, List.map_eq_nil_iff] at tables
    exact ⟨first, ⟨choice, holds⟩, by rw [tables, List.append_nil]⟩
  · rintro ⟨first, ⟨choice, holds⟩, rfl⟩
    exact ⟨first, choice, holds, [], framed.frameLeft.symm, trivial, by rw [List.append_nil]⟩

/-- A page has a joined row in the plan just when it has one in the frame and satisfies every
group. -/
theorem pageRows_ne_nil_iff {query frameQuery : Query}
    (conjuncts : query.conjuncts = frameQuery.conjuncts ++ MemberGroup.conjuncts groups)
    (read : ∀ conjunct ∈ frameQuery.conjuncts, ∀ column ∈ Filter.columns conjunct.filter,
      plan.resolves column = true ∧ frame.resolves column = true) :
    plan.pageRows query page.record ≠ [] ↔
      frame.pageRows frameQuery page.record ≠ [] ∧ ∀ group ∈ groups, store.Selects group page := by
  have extra {more left : List (JoinedSource × Option Record)}
      (moreTables : more.map Prod.fst = inner) (leftTables : left.map Prod.fst = plan.left) :
      ∀ choice ∈ more ++ left, choice.1 ∈ inner ++ plan.left := by
    intro choice isChoice
    rw [← moreTables, ← leftTables, ← List.map_append]
    exact List.mem_map_of_mem isChoice
  rw [Plan.pageRows_ne_nil_iff, Plan.pageRows_ne_nil_iff, conjuncts]
  simp only [List.forall_mem_append, holds_conjuncts_iff]
  constructor
  · rintro ⟨binding, isRow, kept, filtered⟩
    obtain ⟨chosen, choice, holds, left, leftTables, isLeft, rfl⟩ :=
      (mem_joinAll framed.resolves_inner).1 isRow
    have tables := choice.tables
    rw [framed.innerTables, List.map_eq_append_iff] at tables
    obtain ⟨first, more, rfl, firstTables, moreTables⟩ := tables
    obtain ⟨isFirst, matching⟩ :=
      (framed.isInnerChoice_append_iff firstTables moreTables).1 ⟨choice, holds⟩
    refine ⟨⟨_, framed.mem_frame_joinAll.2 ⟨first, isFirst, rfl⟩, fun conjunct isConjunct => ?_⟩,
      fun group isGroup => ?_⟩
    · rw [← framed.holds_frame_eq (extra moreTables leftTables) (read conjunct isConjunct),
        ← List.append_assoc]
      exact kept conjunct isConjunct
    · exact framed.selects_of_mem_joinAll firstTables moreTables matching leftTables
        ((framed.isLeftChoice_iff choice.tables leftTables).1 isLeft) isGroup
        (filtered group isGroup)
  · rintro ⟨⟨row, isRow, kept⟩, selects⟩
    obtain ⟨first, isFirst, rfl⟩ := framed.mem_frame_joinAll.1 isRow
    obtain ⟨more, moreTables, matching⟩ :=
      exists_choice fun joined isJoined => framed.exists_inner_match selects isJoined
    obtain ⟨left, leftTables, lefts⟩ :=
      exists_choice fun joined isJoined => framed.exists_left_match page isJoined
    have isInner := (framed.isInnerChoice_append_iff isFirst.tables moreTables).2
      ⟨isFirst, matching⟩
    refine ⟨_, (mem_joinAll framed.resolves_inner).2 ⟨first ++ more, isInner.toIsChoice,
      isInner.holds, left, leftTables, ?_, rfl⟩, fun conjunct isConjunct => ?_,
      fun group isGroup several => ?_⟩
    · exact (framed.isLeftChoice_iff isInner.tables leftTables).2 fun choice isChoice =>
        (lefts choice isChoice).1
    · rw [List.append_assoc,
        framed.holds_frame_eq (extra moreTables leftTables) (read conjunct isConjunct)]
      exact kept conjunct isConjunct
    · exact framed.exists_holds_of_selects isInner.tables leftTables
        (fun choice isChoice => (lefts choice isChoice).2) isGroup several (selects group isGroup)

end IsFramed

end Plan

/-! ### Queries in a frame -/

/-- A query has one plan at most. -/
theorem Store.IsPlanned.eq {store : Store} {query : Query} {plan other : Plan}
    (planned : store.IsPlanned query plan) (again : store.IsPlanned query other) :
    plan = other := by
  have unique : Relator.RightUnique store.Joins := fun _ _ _ first second =>
    Option.some.inj (first.symm.trans second)
  obtain ⟨inner, left, base⟩ := plan
  obtain ⟨otherInner, otherLeft, otherBase⟩ := other
  have same := planned.base.trans again.base.symm
  rw [Plan.mk.injEq]
  exact ⟨List.right_unique_forall₂' unique planned.inner again.inner,
    List.right_unique_forall₂' unique planned.left again.left, same⟩

/-- The query asks what its frame asks and, of the tables of members, what their groups ask. -/
structure Query.IsFramed (query : Query) (store : Store) (frame : Query)
    (groups : List MemberGroup) : Prop where
  joins : query.joins = frame.joins ++ groups.flatMap MemberGroup.joins
  conjuncts : query.conjuncts = frame.conjuncts ++ MemberGroup.conjuncts groups
  kinds : ∀ join ∈ frame.joins, join.kind = .inner
  unscored : frame.scores = []
  unordered : frame.orders = []
  joinsApart : query.JoinsApart store
  tables : ∀ member ∈ groups.flatten, store.HasTableOf member
  own : ∀ member ∈ groups.flatten, member.condition.Forall fun test : Test =>
    ∀ column ∈ test.columns, column.aliasName = member.aliasName
  apart : ∀ column ∈ frame.columns, ∀ member ∈ groups.flatten,
    sameName member.aliasName column.aliasName = false
  scored : ∀ score ∈ query.scores, ∃ member ∈ groups.flatten,
    ∃ test ∈ member.condition.tests, score.subject ∈ test.columns
  orders : query.orders = query.scores.map Order.ofScore

namespace Query.IsFramed

variable {store : Store} {frame query : Query} {groups : List MemberGroup}
  (framed : query.IsFramed store frame groups)

include framed

theorem frameApart : frame.JoinsApart store where
  isAlias join isJoin := framed.joinsApart.isAlias join
    (framed.joins ▸ List.mem_append_left _ isJoin)
  joined join isJoin := framed.joinsApart.joined join
    (framed.joins ▸ List.mem_append_left _ isJoin)
  nodup := by
    have nodup := framed.joinsApart.nodup
    rw [framed.joins, List.map_append] at nodup
    exact nodup.of_append_left

/-- What holds of the columns of the frame and of those that members read holds of all columns. -/
theorem forall_columns {p : Column → Prop} (ofFrame : ∀ column ∈ frame.columns, p column)
    (links : ∀ member ∈ groups.flatten, p member.page)
    (conditions : ∀ member ∈ groups.flatten, member.condition.Forall fun test : Test =>
      ∀ column ∈ test.columns, p column) : ∀ column ∈ query.columns, p column := by
  obtain ⟨base, joins, conjuncts, -⟩ := Query.forall_columns_iff.1 ofFrame
  have each {group : MemberGroup} (isGroup : group ∈ groups) {member : Member}
      (isMember : member ∈ group) : member ∈ groups.flatten :=
    List.mem_flatten.2 ⟨group, isGroup, isMember⟩
  have link : ∀ member ∈ groups.flatten, Condition.Forall (fun test : Test =>
      ∀ column ∈ test.columns, p column) (pageLink member.aliasName) := by
    intro member isMember
    rw [pageLink, Condition.forall_test]
    refine List.forall_mem_cons.2 ⟨links member isMember, List.forall_mem_singleton.2 ?_⟩
    exact (List.forall_mem_cons.1 base).1
  refine Query.forall_columns_iff.2 ⟨base, ?_, ?_, fun score isScore => ?_,
    fun order isOrder column named => ?_⟩
  · rw [framed.joins, List.forall_mem_append]
    refine ⟨joins, List.forall_mem_flatMap.2 fun group isGroup => ?_⟩
    exact MemberGroup.forall_joins (fun member isMember => link member (each isGroup isMember))
      fun member isMember => conditions member (each isGroup isMember)
  · rw [framed.conjuncts, List.forall_mem_append]
    exact ⟨conjuncts, MemberGroup.forall_conjuncts fun group isGroup member isMember =>
      conditions member (each isGroup isMember)⟩
  · obtain ⟨member, isMember, test, isTest, read⟩ := framed.scored score isScore
    exact conditions member isMember test isTest _ read
  · rw [framed.orders] at isOrder
    obtain ⟨score, -, rfl⟩ := List.mem_map.1 isOrder
    cases named

theorem frame_columns_subset : ∀ column ∈ frame.columns, column ∈ query.columns := by
  obtain ⟨base, joins, conjuncts, -⟩ :=
    Query.forall_columns_iff.1 (fun column isColumn => isColumn : ∀ column ∈ query.columns, _)
  rw [framed.joins, List.forall_mem_append] at joins
  rw [framed.conjuncts, List.forall_mem_append] at conjuncts
  refine Query.forall_columns_iff.2 ⟨base, joins.1, conjuncts.1, ?_, ?_⟩
  · simp [framed.unscored]
  · simp [framed.unordered]

theorem forall_condition {p : Column → Prop} (all : ∀ column ∈ query.columns, p column) :
    ∀ member ∈ groups.flatten, member.condition.Forall fun test : Test =>
      ∀ column ∈ test.columns, p column := by
  obtain ⟨-, joins, conjuncts, -⟩ := Query.forall_columns_iff.1 all
  rw [framed.joins, List.forall_mem_append] at joins
  rw [framed.conjuncts, List.forall_mem_append] at conjuncts
  exact MemberGroup.forall_condition joins.2 conjuncts.2

/-! ### Tables of members -/

variable {plan framePlan : Plan} (planned : store.IsPlanned query plan)

include planned

theorem reads {member : Member} (isMember : member ∈ groups.flatten) {table : FieldTable}
    (kept : store.source? member.table = some table.asTable) : plan.Reads store member table := by
  obtain ⟨group, isGroup, among⟩ := List.mem_flatten.1 isMember
  obtain ⟨join, isJoin, aliasName, name⟩ := MemberGroup.exists_mem_joins among
  refine framed.joinsApart.reads planned ?_ aliasName name kept
  rw [framed.joins]
  exact List.mem_append_right _ (List.mem_flatMap.2 ⟨group, isGroup, isJoin⟩)

theorem carries_of_fits {member : Member} (isMember : member ∈ groups.flatten)
    (fits : store.Fits member) : ∃ table, plan.Carries store member table := by
  obtain ⟨table, found, columns⟩ := fits
  obtain ⟨again, foundAgain, kept⟩ := framed.tables member isMember
  obtain rfl : table = again := Option.some.inj (found.symm.trans foundAgain)
  have reads := framed.reads planned isMember kept
  have own : member.condition.Forall fun test : Test => ∀ column ∈ test.columns,
      plan.resolves column = true ∧ (member.source table).provides column = true := by
    intro test isTest column read
    have own : (member.source table).provides column = true :=
      member.provides_of_hasColumn table (framed.own member isMember test isTest column read)
        (columns test isTest column read)
    exact ⟨framed.joinsApart.resolves_of_source planned reads.mem_sources own, own⟩
  exact ⟨table, { toReads := reads, found, kept, own }⟩

theorem fits_of_resolves (resolved : ∀ column ∈ query.columns, plan.resolves column = true) :
    ∀ member ∈ groups.flatten, store.Fits member := by
  intro member isMember
  obtain ⟨table, found, kept⟩ := framed.tables member isMember
  have reads := framed.reads planned isMember kept
  have resolved := framed.forall_condition resolved member isMember
  refine ⟨table, found, fun test isTest column read => ?_⟩
  -- The column belongs to one source, and the alias it is asked for by is that of this table alone.
  obtain ⟨source, isSource, own⟩ := Plan.exists_of_resolves (resolved test isTest column read)
  rw [Source.provides, Bool.and_eq_true] at own
  have sameAlias : foldName source.aliasName = foldName (member.source table).aliasName := by
    rw [of_decide_eq_true own.1, framed.own member isMember test isTest column read]
    rfl
  obtain rfl := List.inj_on_of_nodup_map (framed.joinsApart.nodup_sources planned) isSource
    reads.mem_sources sameAlias
  exact own.2

/-! ### Plans -/

variable (framePlanned : store.IsPlanned frame framePlan)

include framePlanned

/-- The plan takes the tables of the frame first. -/
theorem exists_inner : ∃ inner, plan.inner = framePlan.inner ++ inner ∧ framePlan.left = [] ∧
    List.Forall₂ store.Joins
      ((groups.flatMap MemberGroup.joins).filter fun join => join.kind = .inner) inner ∧
    List.Forall₂ store.Joins
      ((groups.flatMap MemberGroup.joins).filter fun join => join.kind = .left) plan.left := by
  have ofInner : frame.joinsOf .inner = frame.joins :=
    List.filter_eq_self.2 fun join isJoin => decide_eq_true (framed.kinds join isJoin)
  have ofLeft : frame.joinsOf .left = [] := by
    refine List.filter_eq_nil_iff.2 fun join isJoin => ?_
    simp [framed.kinds join isJoin]
  have joinsOf (kind : JoinKind) : query.joinsOf kind = frame.joinsOf kind ++
      (groups.flatMap MemberGroup.joins).filter fun join => join.kind = kind := by
    rw [Query.joinsOf, framed.joins, List.filter_append]
    rfl
  have noLeft := framePlanned.left
  rw [ofLeft, List.forall₂_nil_left_iff] at noLeft
  have left := planned.left
  rw [joinsOf, ofLeft, List.nil_append] at left
  have joined : ∀ join ∈ (groups.flatMap MemberGroup.joins).filter (fun join => join.kind = .inner),
      ∃ joined, store.Joins join joined := fun join isJoin => by
    refine framed.joinsApart.joined join ?_
    rw [framed.joins]
    exact List.mem_append_right _ (List.mem_filter.1 isJoin).1
  obtain ⟨inner, isInner⟩ := exists_forall₂ joined
  refine ⟨inner, ?_, noLeft, isInner, left⟩
  have whole : store.IsPlanned query
      { inner := framePlan.inner ++ inner, left := plan.left, base := plan.base } := by
    refine ⟨?_, planned.left, planned.base⟩
    rw [joinsOf]
    exact List.rel_append framePlanned.inner isInner
  exact congrArg Plan.inner (planned.eq whole)

theorem exists_adds : ∃ inner, plan.Adds framePlan (inner ++ plan.left) ∧
    ∀ joined ∈ inner ++ plan.left, ∃ member ∈ groups.flatten,
      joined.source.aliasName = member.aliasName := by
  obtain ⟨inner, innerTables, frameLeft, isInner, isLeft⟩ :=
    framed.exists_inner planned framePlanned
  refine ⟨inner, ⟨planned.base.trans framePlanned.base.symm, ?_⟩, fun joined isJoined => ?_⟩
  · rw [innerTables, frameLeft, List.append_nil, List.append_assoc]
  · have isExtra : ∃ join ∈ groups.flatMap MemberGroup.joins, store.Joins join joined := by
      rcases List.mem_append.1 isJoined with ofInner | ofLeft
      · obtain ⟨join, isJoin, joins⟩ := exists_of_mem_forall₂ isInner ofInner
        exact ⟨join, (List.mem_filter.1 isJoin).1, joins⟩
      · obtain ⟨join, isJoin, joins⟩ := exists_of_mem_forall₂ isLeft ofLeft
        exact ⟨join, (List.mem_filter.1 isJoin).1, joins⟩
    obtain ⟨join, isJoin, joins⟩ := isExtra
    have isAlias := List.mem_map_of_mem (f := Join.aliasName) isJoin
    rw [MemberGroup.map_aliasName_flatMap_joins] at isAlias
    obtain ⟨member, isMember, same⟩ := List.mem_map.1 isAlias
    exact ⟨member, isMember, joins.aliasName_eq.trans same.symm⟩

/-- The columns of the frame belong to its own tables. -/
theorem frame_resolves (resolved : ∀ column ∈ query.columns, plan.resolves column = true) :
    ∀ column ∈ frame.columns, framePlan.resolves column = true := by
  intro column isColumn
  obtain ⟨inner, adds, extra⟩ := framed.exists_adds planned framePlanned
  have inPlan := resolved column (framed.frame_columns_subset column isColumn)
  obtain ⟨source, isSource, own⟩ := Plan.exists_of_resolves inPlan
  rcases List.mem_append.1 (adds.sources.mem_iff.1 isSource) with ofFrame | isExtra
  · exact adds.resolves_of_source inPlan ofFrame own
  · obtain ⟨joined, isJoined, rfl⟩ := List.mem_map.1 isExtra
    obtain ⟨member, isMember, aliasName⟩ := extra joined isJoined
    rw [Source.provides, Bool.and_eq_true, aliasName, framed.apart column isColumn member isMember]
      at own
    exact absurd own.1 Bool.false_ne_true

theorem resolves_of_frame (resolved : ∀ column ∈ frame.columns, framePlan.resolves column = true)
    (fits : ∀ member ∈ groups.flatten, store.Fits member) :
    ∀ column ∈ query.columns, plan.resolves column = true := by
  obtain ⟨inner, adds, -⟩ := framed.exists_adds planned framePlanned
  refine framed.forall_columns (fun column isColumn => ?_) (fun member isMember => ?_)
    fun member isMember test isTest column read => ?_
  · obtain ⟨source, isSource, own⟩ := Plan.exists_of_resolves (resolved column isColumn)
    exact framed.joinsApart.resolves_of_source planned
      (adds.sources.mem_iff.2 (List.mem_append_left _ isSource)) own
  · obtain ⟨table, carries⟩ := framed.carries_of_fits planned isMember (fits member isMember)
    exact carries.page
  · obtain ⟨table, carries⟩ := framed.carries_of_fits planned isMember (fits member isMember)
    exact (carries.own test isTest column read).1

omit planned framePlanned

/-- The query has a plan just when its frame has one and all members find their columns. -/
theorem exists_boundPlan?_iff : (∃ plan, store.boundPlan? query = some plan) ↔
    (∃ plan, store.boundPlan? frame = some plan) ∧
      ∀ member ∈ groups.flatten, store.Fits member := by
  obtain ⟨plan, planned⟩ := framed.joinsApart.exists_isPlanned
  obtain ⟨framePlan, framePlanned⟩ := framed.frameApart.exists_isPlanned
  constructor
  · rintro ⟨other, bound⟩
    obtain ⟨again, resolved⟩ := Store.boundPlan?_eq_some_iff_isPlanned.1 bound
    obtain rfl := planned.eq again
    exact ⟨⟨framePlan, Store.boundPlan?_eq_some_iff_isPlanned.2 ⟨framePlanned,
      framed.frame_resolves planned framePlanned resolved⟩⟩,
      framed.fits_of_resolves planned resolved⟩
  · rintro ⟨⟨other, bound⟩, fits⟩
    obtain ⟨again, resolved⟩ := Store.boundPlan?_eq_some_iff_isPlanned.1 bound
    obtain rfl := framePlanned.eq again
    exact ⟨plan, Store.boundPlan?_eq_some_iff_isPlanned.2 ⟨planned,
      framed.resolves_of_frame planned framePlanned resolved fits⟩⟩

variable (bound : store.boundPlan? query = some plan)
  (boundFrame : store.boundPlan? frame = some framePlan)

include bound boundFrame

theorem exists_isFramed : ∃ inner, plan.IsFramed framePlan store groups inner := by
  obtain ⟨planned, resolved⟩ := Store.boundPlan?_eq_some_iff_isPlanned.1 bound
  obtain ⟨framePlanned, frameResolved⟩ := Store.boundPlan?_eq_some_iff_isPlanned.1 boundFrame
  obtain ⟨inner, innerTables, frameLeft, isInner, isLeft⟩ :=
    framed.exists_inner planned framePlanned
  have fits := framed.fits_of_resolves planned resolved
  refine ⟨inner, planned.base.trans framePlanned.base.symm, innerTables, frameLeft, ?_,
    fun member isMember => framed.carries_of_fits planned isMember (fits member isMember), ?_, ?_,
    ?_, ?_, ?_⟩
  · intro joined isJoined column read
    obtain ⟨join, isJoin, joins⟩ := framePlanned.exists_join (List.mem_append_left _ isJoined)
    have isColumn : column ∈ frame.columns := by
      obtain ⟨-, ofJoins, -⟩ := Query.forall_columns_iff.1
        (fun column isColumn => isColumn : ∀ column ∈ frame.columns, _)
      obtain ⟨test, isTest, among⟩ := List.mem_flatMap.1 (joins.join_eq ▸ read)
      exact ofJoins join isJoin test isTest column among
    exact ⟨resolved column (framed.frame_columns_subset column isColumn),
      frameResolved column isColumn⟩
  · have nodup := framed.joinsApart.nodup
    rw [framed.joins, List.map_append] at nodup
    have folded := nodup.of_append_right
    have aliases : ((groups.flatMap MemberGroup.joins).map Join.aliasName).Nodup :=
      List.Nodup.of_map foldName (by rwa [List.map_map])
    rw [MemberGroup.map_aliasName_flatMap_joins] at aliases
    exact fun member isMember other isOther same =>
      List.inj_on_of_nodup_map aliases isMember isOther same
  · intro joined isJoined
    obtain ⟨join, isJoin, joins⟩ := exists_of_mem_forall₂ isInner isJoined
    obtain ⟨group, isGroup, lone, member, isMember, rfl⟩ :=
      MemberGroup.exists_inner_iff.1 (MemberGroup.mem_joinsOf_iff.1 isJoin)
    exact ⟨group, isGroup, lone, member, isMember, joins⟩
  · intro joined isJoined
    obtain ⟨join, isJoin, joins⟩ := exists_of_mem_forall₂ isLeft isJoined
    obtain ⟨group, isGroup, several, member, isMember, rfl⟩ :=
      MemberGroup.exists_left_iff.1 (MemberGroup.mem_joinsOf_iff.1 isJoin)
    exact ⟨group, isGroup, several, member, isMember, joins⟩
  · intro group isGroup lone member isMember
    exact exists_of_mem_left_forall₂ isInner (MemberGroup.mem_joinsOf_iff.2
      (MemberGroup.exists_inner_iff.2 ⟨group, isGroup, lone, member, isMember, rfl⟩))
  · intro group isGroup several member isMember
    exact exists_of_mem_left_forall₂ isLeft (MemberGroup.mem_joinsOf_iff.2
      (MemberGroup.exists_left_iff.2 ⟨group, isGroup, several, member, isMember, rfl⟩))

/-- A page has a joined row just when it has one in the frame and satisfies every group. -/
theorem pageRows_ne_nil_iff (page : Page) :
    plan.pageRows query page.record ≠ [] ↔
      framePlan.pageRows frame page.record ≠ [] ∧
        ∀ group ∈ groups, store.Selects group page := by
  obtain ⟨inner, isFramed⟩ := framed.exists_isFramed bound boundFrame
  have resolved := (Store.boundPlan?_eq_some_iff_isPlanned.1 bound).2
  have frameResolved := (Store.boundPlan?_eq_some_iff_isPlanned.1 boundFrame).2
  obtain ⟨-, -, conjuncts, -⟩ := Query.forall_columns_iff.1
    (fun column isColumn => isColumn : ∀ column ∈ frame.columns, _)
  refine isFramed.pageRows_ne_nil_iff framed.conjuncts fun conjunct isConjunct column read => ?_
  obtain ⟨test, isTest, among⟩ := List.mem_flatMap.1 read
  have isColumn := conjuncts conjunct isConjunct test isTest column among
  exact ⟨resolved column (framed.frame_columns_subset column isColumn),
    frameResolved column isColumn⟩

end Query.IsFramed

end PageTree
