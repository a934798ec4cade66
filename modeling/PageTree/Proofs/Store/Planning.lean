import PageTree.Proofs.Compile.Words
import PageTree.Proofs.Store.Groups
import PageTree.Proofs.Store.Tables

/-!
Plans of queries that filter alone. In a store that a site can come to, the tables of all fields are
there, their aliases are words that mean nothing else, and every column belongs to one table. Main
statement: such a query has a plan, and the plan joins the tables of its members.
-/

namespace PageTree

open Sql

/-! ### Tests at the beginning of conditions -/

namespace Sql.Condition

universe u

variable {α : Type u} {a : α}

mutual

theorem mem_tests_of_lead? : {c : Condition α} → c.lead? = some a → a ∈ c.tests
  | .test _, lead => by
      cases lead
      exact List.mem_singleton_self _
  | .fragment _, lead => by
      cases lead
      exact List.mem_singleton_self _
  | .all _, lead => mem_testsEach_of_leadEach? lead
  | .any _, lead => mem_testsEach_of_leadEach? lead

theorem mem_testsEach_of_leadEach? : {cs : List (Condition α)} → leadEach? cs = some a →
    a ∈ testsEach cs
  | _ :: _, lead => by
      rw [leadEach?] at lead
      split at lead
      · exact List.mem_append_left _ (mem_tests_of_lead? lead)
      · cases lead

end

mutual

theorem mem_tests_of_mem_enclosedLeads : {c : Condition α} → a ∈ c.enclosedLeads → a ∈ c.tests
  | .all _, lead => mem_testsEach_of_mem_enclosedLeadsEach lead
  | .any _, lead => mem_testsEach_of_mem_enclosedLeadsEach lead
  | .not c, lead => by
      change a ∈ c.tests
      rcases List.mem_append.1 lead with first | later
      · exact mem_tests_of_lead? (Option.mem_toList.1 first)
      · exact mem_tests_of_mem_enclosedLeads later

theorem mem_testsEach_of_mem_enclosedLeadsEach {several : Bool} : {cs : List (Condition α)} →
    a ∈ enclosedLeadsEach several cs → a ∈ testsEach cs
  | _ :: _, lead => by
      rw [enclosedLeadsEach, List.mem_append, List.mem_append] at lead
      rcases lead with (first | later) | others
      · split at first
        · exact List.mem_append_left _ (mem_tests_of_lead? (Option.mem_toList.1 first))
        · simp at first
      · exact List.mem_append_left _ (mem_tests_of_mem_enclosedLeads later)
      · exact List.mem_append_right _ (mem_testsEach_of_mem_enclosedLeadsEach others)

end

end Sql.Condition

/-! ### Columns of one table -/

theorem Source.provides_own {source : Source} {name : String}
    (isColumn : source.table.hasColumn name = true) :
    source.provides ⟨source.aliasName, name⟩ = true := by
  rw [provides, Bool.and_eq_true]
  exact ⟨sameName_refl _, isColumn⟩

namespace Plan

theorem exists_of_resolves {plan : Plan} {column : Column}
    (resolved : plan.resolves column = true) :
    ∃ source ∈ plan.sources, source.provides column = true := by
  rw [resolves, decide_eq_true_eq] at resolved
  obtain ⟨source, among⟩ := List.exists_mem_of_length_pos (resolved ▸ Nat.one_pos)
  exact ⟨source, List.mem_filter.1 among⟩

theorem resolves_of_nodup {plan : Plan}
    (nodup : (plan.sources.map fun source => foldName source.aliasName).Nodup) {source : Source}
    (isSource : source ∈ plan.sources) {column : Column} (own : source.provides column = true) :
    plan.resolves column = true := by
  have same {other : Source} (provided : other.provides column = true) :
      foldName other.aliasName = foldName column.aliasName := by
    rw [Source.provides, Bool.and_eq_true] at provided
    exact of_decide_eq_true provided.1
  have kept := nodup.sublist
    ((plan.sources.filter_sublist (p := fun source => source.provides column)).map _)
  have isKept : source ∈ plan.sources.filter fun source => source.provides column :=
    List.mem_filter.2 ⟨isSource, own⟩
  rw [resolves, decide_eq_true_eq]
  cases found : plan.sources.filter fun source => source.provides column with
  | nil => rw [found] at isKept; simp at isKept
  | cons first rest =>
      cases rest with
      | nil => rfl
      | cons second others =>
          rw [found, List.map_cons, List.map_cons, List.nodup_cons] at kept
          have members : first ∈ plan.sources.filter (fun source => source.provides column) ∧
              second ∈ plan.sources.filter (fun source => source.provides column) := by
            simp [found]
          refine absurd (List.mem_cons.2 (.inl ?_)) kept.1
          rw [same (List.mem_filter.1 members.1).2, same (List.mem_filter.1 members.2).2]

end Plan

/-! ### Joins of groups -/

theorem Query.perm_joinsOf (query : Query) :
    (query.joinsOf .inner ++ query.joinsOf .left).Perm query.joins := by
  have others : query.joinsOf .left =
      query.joins.filter fun join => !decide (join.kind = .inner) := by
    refine List.filter_congr fun join _ => ?_
    cases join.kind <;> rfl
  rw [others]
  exact List.filter_append_perm _ _

namespace MemberGroup

variable {groups : List MemberGroup} {join : Join}

theorem mem_joinsOf_iff {kind : JoinKind} :
    join ∈ (groups.flatMap joins).filter (fun join => join.kind = kind) ↔
      ∃ group ∈ groups, join ∈ group.joins ∧ join.kind = kind := by
  rw [List.mem_filter, List.mem_flatMap, decide_eq_true_eq]
  exact ⟨fun ⟨⟨group, isGroup, among⟩, same⟩ => ⟨group, isGroup, among, same⟩,
    fun ⟨group, isGroup, among, same⟩ => ⟨⟨group, isGroup, among⟩, same⟩⟩

theorem exists_inner_iff :
    (∃ group ∈ groups, join ∈ group.joins ∧ join.kind = .inner) ↔
      ∃ group ∈ groups, group.isLone = true ∧ ∃ member ∈ group, join = member.innerJoin := by
  constructor
  · rintro ⟨group, isGroup, among, kind⟩
    unfold joins at among
    split at among
    · next lone =>
      obtain ⟨member, isMember, rfl⟩ := List.mem_map.1 among
      exact ⟨group, isGroup, lone, member, isMember, rfl⟩
    · obtain ⟨member, isMember, rfl⟩ := List.mem_map.1 among
      cases kind
  · rintro ⟨group, isGroup, lone, member, isMember, rfl⟩
    refine ⟨group, isGroup, ?_, rfl⟩
    rw [joins, if_pos lone]
    exact List.mem_map.2 ⟨member, isMember, rfl⟩

theorem exists_left_iff :
    (∃ group ∈ groups, join ∈ group.joins ∧ join.kind = .left) ↔
      ∃ group ∈ groups, group.isLone = false ∧ ∃ member ∈ group, join = member.leftJoin := by
  constructor
  · rintro ⟨group, isGroup, among, kind⟩
    unfold joins at among
    split at among
    · obtain ⟨member, isMember, rfl⟩ := List.mem_map.1 among
      cases kind
    · next several =>
      obtain ⟨member, isMember, rfl⟩ := List.mem_map.1 among
      exact ⟨group, isGroup, Bool.eq_false_iff.2 several, member, isMember, rfl⟩
  · rintro ⟨group, isGroup, several, member, isMember, rfl⟩
    refine ⟨group, isGroup, ?_, rfl⟩
    rw [joins, several, if_neg Bool.false_ne_true]
    exact List.mem_map.2 ⟨member, isMember, rfl⟩

end MemberGroup

namespace Query.IsOf

variable {catalog : Catalog} {blocks : Blocks} {query : Query} (isOf : query.IsOf catalog blocks)

include isOf

theorem mem_joins_iff {kind : JoinKind} {join : Join} :
    join ∈ query.joinsOf kind ↔
      ∃ group ∈ blocks.groups, join ∈ group.joins ∧ join.kind = kind := by
  rw [joinsOf, isOf.joins]
  exact MemberGroup.mem_joinsOf_iff

theorem mem_inner_iff {join : Join} :
    join ∈ query.joinsOf .inner ↔
      ∃ group ∈ blocks.groups, group.isLone = true ∧ ∃ member ∈ group, join = member.innerJoin :=
  isOf.mem_joins_iff.trans MemberGroup.exists_inner_iff

theorem mem_left_iff {join : Join} :
    join ∈ query.joinsOf .left ↔
      ∃ group ∈ blocks.groups, group.isLone = false ∧ ∃ member ∈ group, join = member.leftJoin :=
  isOf.mem_joins_iff.trans MemberGroup.exists_left_iff

theorem map_aliasName_joins :
    query.joins.map Join.aliasName = blocks.members.map Member.aliasName := by
  rw [isOf.joins, blocks.map_aliasName_joins]

end Query.IsOf

/-! ### Joins of field tables -/

/-- The tables of the query are there, each under its alias. -/
structure Store.IsPlanned (store : Store) (query : Query) (plan : Plan) : Prop where
  inner : List.Forall₂ store.Joins (query.joinsOf .inner) plan.inner
  left : List.Forall₂ store.Joins (query.joinsOf .left) plan.left
  base : plan.base = store.baseSource

theorem Store.boundPlan?_eq_some_iff_isPlanned {store : Store} {query : Query} {plan : Plan} :
    store.boundPlan? query = some plan ↔
      store.IsPlanned query plan ∧ ∀ column ∈ query.columns, plan.resolves column = true :=
  boundPlan?_eq_some.trans
    ⟨fun ⟨inner, left, base, resolved⟩ => ⟨⟨inner, left, base⟩, resolved⟩,
      fun ⟨planned, resolved⟩ => ⟨planned.inner, planned.left, planned.base, resolved⟩⟩

theorem Store.IsPlanned.exists_joined {store : Store} {query : Query} {plan : Plan}
    (planned : store.IsPlanned query plan) {join : Join} (isJoin : join ∈ query.joins) :
    ∃ joined ∈ plan.inner ++ plan.left, store.Joins join joined := by
  rcases List.mem_append.1 (query.perm_joinsOf.mem_iff.2 isJoin) with inner | left
  · obtain ⟨joined, isJoined, joins⟩ := exists_of_mem_left_forall₂ planned.inner inner
    exact ⟨joined, List.mem_append_left _ isJoined, joins⟩
  · obtain ⟨joined, isJoined, joins⟩ := exists_of_mem_left_forall₂ planned.left left
    exact ⟨joined, List.mem_append_right _ isJoined, joins⟩

theorem Store.IsPlanned.exists_join {store : Store} {query : Query} {plan : Plan}
    (planned : store.IsPlanned query plan) {joined : JoinedSource}
    (isJoined : joined ∈ plan.inner ++ plan.left) :
    ∃ join ∈ query.joins, store.Joins join joined := by
  rcases List.mem_append.1 isJoined with inner | left
  · obtain ⟨join, isJoin, joins⟩ := exists_of_mem_forall₂ planned.inner inner
    exact ⟨join, (List.mem_filter.1 isJoin).1, joins⟩
  · obtain ⟨join, isJoin, joins⟩ := exists_of_mem_forall₂ planned.left left
    exact ⟨join, (List.mem_filter.1 isJoin).1, joins⟩

theorem Store.exists_joins {store : Store} {join : Join} {table : Table}
    (found : store.source? join.table = some table) : ∃ joined, store.Joins join joined := by
  refine ⟨JoinedSource.of join { aliasName := join.aliasName, table }, ?_⟩
  rw [Joins, joinSource?, found]
  rfl

theorem MemberGroup.exists_table_of_mem_joins {group : MemberGroup} {join : Join}
    (among : join ∈ group.joins) : ∃ member ∈ group, join.table = member.table := by
  unfold joins at among
  split at among
  · obtain ⟨member, isMember, rfl⟩ := List.mem_map.1 among
    exact ⟨member, isMember, rfl⟩
  · obtain ⟨member, isMember, rfl⟩ := List.mem_map.1 among
    exact ⟨member, isMember, rfl⟩

theorem MemberGroup.exists_mem_joins {group : MemberGroup} {member : Member}
    (isMember : member ∈ group) :
    ∃ join ∈ group.joins, join.aliasName = member.aliasName ∧ join.table = member.table := by
  unfold joins
  split
  · exact ⟨member.innerJoin, List.mem_map_of_mem isMember, rfl, rfl⟩
  · exact ⟨member.leftJoin, List.mem_map_of_mem isMember, rfl, rfl⟩

/-- Joins that read tables of the store, each under an alias of its own. -/
structure Join.AreApart (store : Store) (joins : List Join) : Prop where
  isAlias : ∀ join ∈ joins, IsFreeAlias join.aliasName
  joined : ∀ join ∈ joins, ∃ joined, store.Joins join joined
  nodup : (joins.map fun join => foldName join.aliasName).Nodup

theorem Join.AreApart.append {store : Store} {joins others : List Join}
    (apart : AreApart store joins) (apartToo : AreApart store others)
    (differ : ∀ join ∈ joins, ∀ other ∈ others,
      foldName join.aliasName ≠ foldName other.aliasName) :
    AreApart store (joins ++ others) where
  isAlias := List.forall_mem_append.2 ⟨apart.isAlias, apartToo.isAlias⟩
  joined := List.forall_mem_append.2 ⟨apart.joined, apartToo.joined⟩
  nodup := by
    rw [List.map_append]
    refine apart.nodup.append apartToo.nodup fun name here there => ?_
    obtain ⟨join, isJoin, rfl⟩ := List.mem_map.1 here
    obtain ⟨other, isOther, same⟩ := List.mem_map.1 there
    exact differ join isJoin other isOther same.symm

/-- The joins of the query read tables of the store, each under an alias of its own. -/
structure Query.JoinsApart (store : Store) (query : Query) : Prop where
  isAlias : ∀ join ∈ query.joins, IsFreeAlias join.aliasName
  joined : ∀ join ∈ query.joins, ∃ joined, store.Joins join joined
  nodup : (query.joins.map fun join => foldName join.aliasName).Nodup

/-- The joins of the query read tables of fields, each under an alias of its own. -/
structure Query.JoinsFields (store : Store) (query : Query) : Prop where
  isAlias : ∀ join ∈ query.joins, IsFieldAlias join.aliasName
  joined : ∀ join ∈ query.joins, ∃ joined, store.Joins join joined
  nodup : (query.joins.map fun join => foldName join.aliasName).Nodup

theorem Join.AreApart.joinsApart {store : Store} {query : Query}
    (apart : AreApart store query.joins) : query.JoinsApart store where
  isAlias := apart.isAlias
  joined := apart.joined
  nodup := apart.nodup

theorem Query.JoinsFields.joinsApart {store : Store} {query : Query}
    (joinsFields : query.JoinsFields store) : query.JoinsApart store where
  isAlias join isJoin := (joinsFields.isAlias join isJoin).isFree
  joined := joinsFields.joined
  nodup := joinsFields.nodup

namespace Query.JoinsApart

variable {store : Store} {query : Query} (joinsApart : query.JoinsApart store)

include joinsApart

theorem isPlain (comment : query.statement.hasPlainComment = true) : query.isPlain = true := by
  rw [Query.isPlain, comment, Bool.true_and, List.all_eq_true]
  intro join isJoin
  have qualifier := (joinsApart.isAlias join isJoin).isQualifier
  rw [isQualifier, Bool.and_eq_true] at qualifier
  exact isWord_of_isBareName qualifier.1

theorem exists_isPlanned : ∃ plan, store.IsPlanned query plan := by
  have sourced (kind : JoinKind) :
      ∃ sources, List.Forall₂ store.Joins (query.joinsOf kind) sources :=
    exists_forall₂ fun join isJoin => joinsApart.joined join (List.mem_filter.1 isJoin).1
  obtain ⟨inner, isInner⟩ := sourced .inner
  obtain ⟨left, isLeft⟩ := sourced .left
  exact ⟨{ inner, left, base := store.baseSource }, isInner, isLeft, rfl⟩

variable {plan : Plan} (planned : store.IsPlanned query plan)

include planned

theorem nodup_sources : (plan.sources.map fun source => foldName source.aliasName).Nodup := by
  have aliases {joins : List Join} {sources : List JoinedSource}
      (related : List.Forall₂ store.Joins joins sources) :
      sources.map (fun joined => foldName joined.source.aliasName) =
        joins.map fun join => foldName join.aliasName := by
    induction related with
    | nil => rfl
    | cons first rest induction =>
        rw [List.map_cons, List.map_cons, induction, first.aliasName_eq]
  have joined : (plan.inner ++ plan.left).map (fun joined => foldName joined.source.aliasName) =
      (query.joinsOf .inner ++ query.joinsOf .left).map fun join => foldName join.aliasName := by
    rw [List.map_append, List.map_append, aliases planned.inner, aliases planned.left]
  simp only [Plan.sources, List.map_cons, List.map_map, List.nodup_cons, Function.comp_def]
  have perm := query.perm_joinsOf.map fun join => foldName join.aliasName
  rw [joined, perm.nodup_iff, perm.mem_iff, planned.base]
  refine ⟨fun repeated => ?_, joinsApart.nodup⟩
  obtain ⟨join, isJoin, same⟩ := List.mem_map.1 repeated
  exact (joinsApart.isAlias join isJoin).ne_pages same

theorem resolves_of_source {source : Source} (isSource : source ∈ plan.sources) {column : Column}
    (own : source.provides column = true) : plan.resolves column = true :=
  Plan.resolves_of_nodup (joinsApart.nodup_sources planned) isSource own

theorem resolves_of_base {column : Column} (own : plan.base.provides column = true) :
    plan.resolves column = true :=
  joinsApart.resolves_of_source planned (List.mem_cons_self ..) own

/-- The plan reads the table of a member that the query joins. -/
theorem reads {join : Join} (isJoin : join ∈ query.joins) {member : Member}
    (aliasName : join.aliasName = member.aliasName) (name : join.table = member.table)
    {table : FieldTable} (found : store.source? member.table = some table.asTable) :
    plan.Reads store member table := by
  obtain ⟨joined, isJoined, joins⟩ := planned.exists_joined isJoin
  have same : joined.source = member.source table := by
    rw [(joins.eq (name ▸ found)).2, aliasName]
    rfl
  have isSource : member.source table ∈ plan.sources :=
    List.mem_cons_of_mem _ (List.mem_map.2 ⟨joined, isJoined, same⟩)
  refine ⟨planned.base, ⟨joined, isJoined, same⟩, ?_, ?_, ?_⟩
  · exact joinsApart.resolves_of_source planned isSource (member.provides_data table)
  · exact joinsApart.resolves_of_source planned isSource (member.provides_page table)
  · refine joinsApart.resolves_of_base planned ?_
    exact planned.base ▸ store.provides_of_pageColumn (by decide)

theorem not_beginsQuery_of_resolves {column : Column} (resolved : plan.resolves column = true) :
    beginsQuery column.aliasName = false := by
  obtain ⟨source, isSource, own⟩ := Plan.exists_of_resolves resolved
  rw [Source.provides, Bool.and_eq_true] at own
  have same : beginsQuery column.aliasName = beginsQuery source.aliasName := by
    rw [beginsQuery, beginsQuery, of_decide_eq_true own.1]
  rw [same]
  rcases List.mem_cons.1 isSource with rfl | isJoined
  · rw [planned.base]
    exact (by decide : beginsQuery "pages" = false)
  · obtain ⟨joined, among, rfl⟩ := List.mem_map.1 isJoined
    obtain ⟨join, isJoin, joins⟩ := planned.exists_join among
    rw [joins.aliasName_eq]
    exact (joinsApart.isAlias join isJoin).not_beginsQuery

/-- A statement whose columns are all there says what the query says. -/
theorem isReadable (resolved : ∀ column ∈ query.columns, plan.resolves column = true) :
    query.isReadable = true := by
  obtain ⟨-, joins, conjuncts, -⟩ := Query.forall_columns_iff.1 resolved
  have leads : ∀ test ∈ query.enclosedLeads, ∀ column ∈ test.columns,
      plan.resolves column = true := by
    intro test isLead
    rcases List.mem_append.1 isLead with ofJoin | ofConjunct
    · obtain ⟨join, isJoin, lead⟩ := List.mem_flatMap.1 ofJoin
      exact joins join isJoin test (Condition.mem_tests_of_mem_enclosedLeads lead)
    · obtain ⟨conjunct, isConjunct, lead⟩ := List.mem_flatMap.1 ofConjunct
      refine conjuncts conjunct isConjunct test ?_
      cases conjunct with
      | plain test => simp [Conjunct.enclosedLeads] at lead
      | enclosed filter =>
          rcases List.mem_append.1 lead with first | later
          · exact Condition.mem_tests_of_lead? (Option.mem_toList.1 first)
          · exact Condition.mem_tests_of_mem_enclosedLeads later
  rw [Query.isReadable, Bool.and_eq_true, List.all_eq_true, List.all_eq_true]
  refine ⟨fun join isJoin => (joinsApart.isAlias join isJoin).isQualifier, fun test isLead => ?_⟩
  cases head : test.columns.head? with
  | none => rfl
  | some column =>
      rw [Option.all_some, joinsApart.not_beginsQuery_of_resolves planned
        (leads test isLead column (List.mem_of_mem_head? head))]
      rfl

end Query.JoinsApart

/-! ### Members in a store -/

theorem Store.source?_of_table? {store : Store} {name : String} {table : FieldTable}
    (found : store.table? name = some table) (ordinary : hasName systemTables name = false) :
    store.source? name = some table.asTable := by
  have other : ∀ word ∈ systemTables, sameName name word = false := by
    intro word isWord
    rw [hasName, List.any_eq_false] at ordinary
    exact Bool.eq_false_iff.2 fun same => ordinary word isWord (sameName_symm same)
  simp only [systemTables, List.forall_mem_cons] at other
  rw [source?, other.2.1, other.2.2.1, other.1, found]
  rfl

/-- Queries read the table of every field. -/
theorem Store.Reachable.exists_source? {schema : Schema} {store : Store}
    (reached : Reachable schema store) {field : Field} (isField : field ∈ schema.fields) :
    ∃ table, store.table? field.table = some table ∧
      store.source? field.table = some table.asTable := by
  obtain ⟨table, found, ordinary⟩ := reached.exists_table? isField
  exact ⟨table, found, source?_of_table? found ordinary⟩

namespace Store

variable {store : Store} {catalog : Catalog} (reached : Reachable catalog.schema store)
  (apart : catalog.schema.HasApartNames) (default : catalog.schema.HasDefaultTables)

include reached apart default

theorem exists_keeps {term : Term} (filters : term.IsAttachedFilter) {name : String}
    {member : Member} (stands : member.StandsFor catalog term name) :
    ∃ field kind table, catalog.schema.field? name = some field ∧
      store.Keeps catalog.now term field member kind table ∧ store.Holds field := by
  obtain ⟨field, kind, branches, isField, memberOf⟩ := stands
  have isMember := Schema.mem_fields_of_field? isField
  have held := reached.holds (Schema.hasOwnTables_of_default apart default) isMember
  obtain ⟨other, table, isKind, found, converted⟩ := held.table
  obtain rfl : kind = other := Except.ok.inj (memberOf.isKind.symm.trans isKind)
  refine ⟨field, kind, table, isField, ⟨filters, ⟨branches, memberOf⟩, ?_, found, converted⟩, held⟩
  rw [memberOf.table]
  refine source?_eq found ?_
  rw [default field isMember]
  exact Schema.prefix_foldName_defaultTable field.name

theorem isFieldAlias_of_field {field : Field} (isField : field ∈ catalog.schema.fields)
    (used : List String) : IsFieldAlias (nextAlias used field.table) := by
  have held := reached.holds (Schema.hasOwnTables_of_default apart default) isField
  refine isFieldAlias_nextAlias held.isTable ?_
  rw [default field isField]
  exact Schema.prefix_foldName_defaultTable field.name

theorem isFieldAlias_of_mem_nextAliases {tables used : List String}
    (ofFields : ∀ table ∈ tables, ∃ field ∈ catalog.schema.fields, table = field.table)
    {aliasName : String} (isAlias : aliasName ∈ nextAliases used tables) :
    IsFieldAlias aliasName := by
  obtain ⟨table, isTable, before, -, rfl⟩ := exists_nextAlias_of_mem isAlias
  obtain ⟨field, isField, rfl⟩ := ofFields table isTable
  exact isFieldAlias_of_field reached apart default isField before

variable {blocks : Blocks} {query : Query} (isOf : query.IsOf catalog blocks)

include isOf

theorem exists_keeps_of_mem {member : Member} (isMember : member ∈ blocks.members) :
    ∃ term field kind table, store.Keeps catalog.now term field member kind table := by
  obtain ⟨block, isBlock, among⟩ := List.mem_flatMap.1 isMember
  have has := isOf.has block isBlock
  obtain ⟨term, members⟩ := block
  dsimp only at has among
  cases has with
  | native native => simp at among
  | attached filters stand =>
      obtain ⟨name, -, stands⟩ := exists_of_mem_forall₂ stand among
      obtain ⟨field, kind, table, -, keeps, -⟩ := exists_keeps reached apart default filters stands
      exact ⟨term, field, kind, table, keeps⟩

theorem isFieldAlias_of_mem {member : Member} (isMember : member ∈ blocks.members) :
    IsFieldAlias member.aliasName := by
  have isAlias : member.aliasName ∈ nextAliases [] (blocks.members.map Member.table) :=
    isOf.aliases ▸ List.mem_map.2 ⟨member, isMember, rfl⟩
  refine isFieldAlias_of_mem_nextAliases reached apart default (fun table isTable => ?_) isAlias
  obtain ⟨other, isOther, rfl⟩ := List.mem_map.1 isTable
  obtain ⟨block, isBlock, among⟩ := List.mem_flatMap.1 isOther
  exact (isOf.has block isBlock).exists_table among

theorem joinsFields : query.JoinsFields store where
  isAlias join isJoin := by
    have isAlias : join.aliasName ∈ blocks.members.map Member.aliasName :=
      isOf.map_aliasName_joins ▸ List.mem_map.2 ⟨join, isJoin, rfl⟩
    obtain ⟨member, isMember, same⟩ := List.mem_map.1 isAlias
    exact same ▸ isFieldAlias_of_mem reached apart default isOf isMember
  joined join isJoin := by
    rw [isOf.joins] at isJoin
    obtain ⟨group, isGroup, among⟩ := List.mem_flatMap.1 isJoin
    obtain ⟨member, isMember, sameTable⟩ := MemberGroup.exists_table_of_mem_joins among
    have isOne : member ∈ blocks.members := Blocks.mem_groups.1 ⟨group, isGroup, isMember⟩
    obtain ⟨term, field, kind, table, keeps⟩ :=
      exists_keeps_of_mem reached apart default isOf isOne
    exact exists_joins (sameTable ▸ keeps.source)
  nodup := by
    have nodup := isOf.nodup
    rwa [← isOf.map_aliasName_joins, List.map_map] at nodup

theorem isPlain (comment : query.statement.hasPlainComment = true) : query.isPlain = true :=
  (joinsFields reached apart default isOf).joinsApart.isPlain comment

theorem exists_isPlanned : ∃ plan, store.IsPlanned query plan :=
  (joinsFields reached apart default isOf).joinsApart.exists_isPlanned

variable {plan : Plan} (planned : store.IsPlanned query plan)

include planned

theorem resolves_of_base {column : Column} (own : plan.base.provides column = true) :
    plan.resolves column = true :=
  (joinsFields reached apart default isOf).joinsApart.resolves_of_base planned own

theorem reads_of_mem {member : Member} (isMember : member ∈ blocks.members) {term : Term}
    {field : Field} {kind : FieldKind} {table : FieldTable}
    (keeps : store.Keeps catalog.now term field member kind table) :
    plan.Reads store member table := by
  obtain ⟨group, isGroup, among⟩ := Blocks.mem_groups.2 isMember
  obtain ⟨join, isJoin, aliasName, name⟩ := MemberGroup.exists_mem_joins among
  refine (joinsFields reached apart default isOf).joinsApart.reads planned ?_ aliasName name keeps.source
  exact isOf.joins ▸ List.mem_flatMap.2 ⟨group, isGroup, isJoin⟩

theorem exists_asks {member : Member} (isMember : member ∈ blocks.members) :
    ∃ term field kind table, plan.Asks store catalog.now term field member kind table := by
  obtain ⟨term, field, kind, table, keeps⟩ :=
    exists_keeps_of_mem reached apart default isOf isMember
  exact ⟨term, field, kind, table,
    { keeps with reads := reads_of_mem reached apart default isOf planned isMember keeps }⟩

theorem serves : plan.Serves store catalog.now blocks.groups := by
  have isOne {group : MemberGroup} (isGroup : group ∈ blocks.groups) {member : Member}
      (isMember : member ∈ group) : member ∈ blocks.members :=
    Blocks.mem_groups.1 ⟨group, isGroup, isMember⟩
  constructor
  · intro group isGroup member isMember
    exact exists_asks reached apart default isOf planned (isOne isGroup isMember)
  · intro group isGroup member isMember other isOther second isSecond same
    exact List.inj_on_of_nodup_map (List.Nodup.of_map _ isOf.nodup) (isOne isGroup isMember)
      (isOne isOther isSecond) same
  · intro joined isJoined
    obtain ⟨join, isJoin, joins⟩ := exists_of_mem_forall₂ planned.inner isJoined
    obtain ⟨group, isGroup, lone, member, isMember, rfl⟩ := isOf.mem_inner_iff.1 isJoin
    exact ⟨group, isGroup, lone, member, isMember, joins⟩
  · intro joined isJoined
    obtain ⟨join, isJoin, joins⟩ := exists_of_mem_forall₂ planned.left isJoined
    obtain ⟨group, isGroup, several, member, isMember, rfl⟩ := isOf.mem_left_iff.1 isJoin
    exact ⟨group, isGroup, several, member, isMember, joins⟩
  · intro group isGroup lone member isMember
    exact exists_of_mem_left_forall₂ planned.inner
      (isOf.mem_inner_iff.2 ⟨group, isGroup, lone, member, isMember, rfl⟩)
  · intro group isGroup several member isMember
    exact exists_of_mem_left_forall₂ planned.left
      (isOf.mem_left_iff.2 ⟨group, isGroup, several, member, isMember, rfl⟩)

theorem resolves_of_filter {conjunct : Conjunct} (isConjunct : conjunct ∈ query.conjuncts) :
    Condition.Forall (fun test : Test => ∀ column ∈ test.columns, plan.resolves column = true)
      conjunct.filter := by
  obtain ⟨filters, related, conjuncts⟩ := isOf.conjuncts
  rw [conjuncts, List.mem_append, List.mem_flatten] at isConjunct
  rcases isConjunct with ⟨given, isGiven, among⟩ | isGroup
  · obtain ⟨term, isTerm, filters⟩ := exists_of_mem_forall₂ related isGiven
    unfold Term.Filters at filters
    split at filters
    · next native =>
      obtain ⟨filter, filtered, rfl⟩ := filters
      rw [List.mem_singleton.1 among]
      intro test isTest column read
      rw [Term.forall_columns_nativeFilter filtered test isTest column read]
      exact resolves_of_base reached apart default isOf planned
        (Plan.provides_nativeColumn planned.base (Term.isNativeName_of_kind native))
    · rw [filters] at among
      simp at among
  · refine MemberGroup.forall_conjuncts (fun group isGroup member isMember => ?_) conjunct isGroup
    obtain ⟨term, field, kind, table, asks⟩ := exists_asks reached apart default isOf planned
      (Blocks.mem_groups.1 ⟨group, isGroup, isMember⟩)
    intro test isTest column read
    exact (Plan.isLocal_iff.1 asks.isLocal_condition test isTest column read).1

theorem resolves_of_join {join : Join} (isJoin : join ∈ query.joins) :
    Condition.Forall (fun test : Test => ∀ column ∈ test.columns, plan.resolves column = true)
      join.on := by
  have alone := (serves reached apart default isOf planned).isLocal
  obtain ⟨joined, isJoined, joins⟩ := planned.exists_joined isJoin
  rw [← joins.join_eq]
  intro test isTest column read
  exact (Plan.isLocal_iff.1 (alone joined isJoined) test isTest column read).1

theorem resolves_columns : ∀ column ∈ query.columns, plan.resolves column = true := by
  have own {name : String} (isPageColumn : Page.columns.any (fun other => sameName other.1 name) =
      true) : plan.resolves ⟨"pages", name⟩ = true :=
    resolves_of_base reached apart default isOf planned
      (planned.base ▸ store.provides_of_pageColumn isPageColumn)
  refine Query.forall_columns_iff.2 ⟨?_,
    fun join isJoin => resolves_of_join reached apart default isOf planned isJoin,
    fun conjunct isConjunct => resolves_of_filter reached apart default isOf planned isConjunct,
    fun score isScore => ?_, fun order isOrder column named => ?_⟩
  · exact List.forall_mem_cons.2 ⟨own (by decide), List.forall_mem_singleton.2 (own (by decide))⟩
  · obtain ⟨member, isMember, subject⟩ := isOf.scored score isScore
    obtain ⟨term, field, kind, table, asks⟩ :=
      exists_asks reached apart default isOf planned isMember
    rw [subject]
    exact asks.reads.data
  · rw [isOf.orders] at isOrder
    obtain ⟨score, -, rfl⟩ := List.mem_map.1 isOrder
    cases named

theorem boundPlan?_of_isPlanned : store.boundPlan? query = some plan :=
  boundPlan?_eq_some_iff_isPlanned.2
    ⟨planned, resolves_columns reached apart default isOf planned⟩

theorem isReadable : query.isReadable = true :=
  (joinsFields reached apart default isOf).joinsApart.isReadable planned
    (resolves_columns reached apart default isOf planned)

end Store

end PageTree
