import Mathlib.Data.List.Nodup
import PageTree.Proofs.Compile.Alias
import PageTree.Proofs.Compile.Windowless
import PageTree.Proofs.Field.Matching
import PageTree.Proofs.Selector.Writing

/-!
The shape of a query that filters alone. Terms on page columns become conjuncts; every field name of
a term on attached fields becomes a member with a join of its own. Main statement: groups of members
are the terms, but for neighbours with one text, which are one term written twice.
-/

namespace PageTree

open Sql Text

/-! ### Terms that filter -/

namespace Term

/-- Is this a term on one column of the page table? -/
def isNativeFilter (term : Term) : Bool :=
  term.fields = [term.field] && isNativeName term.field

/-- Is this a term on attached fields as a whole, without a negation, that asks for something? -/
def isAttachedFilter (term : Term) : Bool :=
  term.kind = .attached && !term.negated
    && (term.fields.all fun name => !name.toList.contains '.')
    && (term.operator ≠ .containsWords
      || term.values.all fun value => !(words value.toList).isEmpty)

theorem kind_of_isNativeFilter {term : Term} (native : term.isNativeFilter = true) :
    term.kind = .native := by
  have named := (Bool.and_eq_true_iff.1 native).2
  unfold kind
  split
  case h_7 => exact if_pos named
  all_goals
    next special =>
    rw [special] at named
    exact absurd named (by decide)

structure IsAttachedFilter (term : Term) : Prop where
  kind : term.kind = .attached
  negated : term.negated = false
  whole : ∀ name ∈ term.fields, '.' ∉ name.toList
  asking : term.operator = .containsWords → ∀ value ∈ term.values, words value.toList ≠ []

theorem isAttachedFilter_iff {term : Term} :
    term.isAttachedFilter = true ↔ term.IsAttachedFilter := by
  simp only [isAttachedFilter, Bool.and_eq_true, decide_eq_true_eq, Bool.not_eq_true',
    List.all_eq_true, Bool.or_eq_true, List.contains_eq_mem, decide_eq_false_iff_not,
    List.isEmpty_eq_false_iff]
  constructor
  · rintro ⟨⟨⟨kind, negated⟩, whole⟩, asking⟩
    exact ⟨kind, negated, whole, fun words => asking.resolve_left fun other => other words⟩
  · rintro ⟨kind, negated, whole, asking⟩
    refine ⟨⟨⟨kind, negated⟩, whole⟩, ?_⟩
    by_cases words : term.operator = .containsWords
    · exact .inr (asking words)
    · exact .inl words

/-- Other terms say nothing about order and window. -/
theorem field_ne_of_kind {term : Term} (unsorted : term.kind ≠ .sort)
    (unlimited : term.kind ≠ .window) : term.field ≠ "sort" ∧ term.field ≠ "limit" := by
  constructor
  · intro same
    rw [kind, same] at unsorted
    exact unsorted rfl
  · intro same
    rw [kind, same] at unlimited
    exact unlimited rfl

end Term

/-! ### Members -/

namespace Member

/-- The column of the values of the member's table. -/
def data (member : Member) : Column :=
  ⟨member.aliasName, "data"⟩

/-- The member asks for one of the values of a term in one field. -/
structure IsMemberOf (now : Date.Moment) (term : Term) (field : Field) (kind : FieldKind)
    (branches : List Branch) (member : Member) : Prop where
  isKind : field.kind? = .ok kind
  branched : List.Forall₂ (fun value found =>
    branch now kind member.data term.operator value = .ok found) term.values branches
  table : member.table = field.table
  condition : member.condition = .disj (branches.flatMap Branch.filters)
  blank : member.blank = branches.any Branch.isBlank

/-- The member asks for one of the values of a term in the field with a name. -/
def StandsFor (catalog : Catalog) (term : Term) (name : String) (member : Member) : Prop :=
  ∃ field kind branches, catalog.schema.field? name = some field ∧
    member.IsMemberOf catalog.now term field kind branches

theorem splitName_of_whole {name : String} (whole : '.' ∉ name.toList) :
    splitName name = (name, "data") := by
  unfold splitName
  split
  · next found =>
    rw [(splitFirst?_eq_some found).1] at whole
    simp at whole
  · rfl

theorem filters_ne_nil {now : Date.Moment} {kind : FieldKind} {target : Column} {term : Term}
    (filters : term.IsAttachedFilter) {value : String} (member : value ∈ term.values)
    {found : Branch} (branched : branch now kind target term.operator value = .ok found) :
    found.filters ≠ [] := by
  unfold branch at branched
  split at branched
  · cases branched
    exact List.cons_ne_nil _ _
  · obtain ⟨matching, matched, rfl⟩ := map_eq_ok.1 branched
    have tests := FieldKind.tests_ne_nil (fun words => filters.asking words value member)
      (FieldKind.matching_eq_ok matched)
    rw [Branch.filters, if_neg]
    · exact List.cons_ne_nil _ _
    · rw [List.isEmpty_iff]
      exact tests

theorem subject_of_mem_scores {now : Date.Moment} {kind : FieldKind} {target : Column}
    {operator : Operator} {value : String} {found : Branch}
    (branched : branch now kind target operator value = .ok found) {score : Score}
    (member : score ∈ found.scores) : score.subject = target := by
  unfold branch at branched
  split at branched
  · cases branched
    simp [Branch.scores] at member
  · obtain ⟨matching, matched, rfl⟩ := map_eq_ok.1 branched
    exact (FieldKind.isOn_matching? (FieldKind.matching_eq_ok matched)).scores score member

/-- What a contribution is when it has a member. -/
structure Gives (catalog : Catalog) (used : List String) (term : Term) (name : String)
    (found : Contribution) (member : Member) : Prop where
  given : found.member = some member
  stands : member.StandsFor catalog term name
  table : found.table = member.table
  aliasName : member.aliasName = nextAlias used member.table
  scores : ∀ score ∈ found.scores, score.subject = member.data

theorem exists_of_contribution {catalog : Catalog} {used : List String} {term : Term}
    (filters : term.IsAttachedFilter) (valued : term.values ≠ []) {name : String}
    (isName : name ∈ term.fields) {found : Contribution}
    (compiled : contribution catalog used term name = .ok found) :
    ∃ member, Gives catalog used term name found member := by
  simp only [contribution, splitName_of_whole (filters.whole name isName)] at compiled
  cases isField : catalog.schema.field? name with
  | none =>
      rw [isField] at compiled
      cases compiled
  | some field =>
  rw [isField] at compiled
  obtain ⟨kind, isKind, compiled⟩ := bind_eq_ok.1 compiled
  obtain ⟨branches, each, equality⟩ := bind_eq_ok.1 compiled
  rw [mapM_eq_ok] at each
  have asks : (branches.flatMap Branch.filters).isEmpty = false := by
    obtain ⟨value, values, isValues⟩ := List.exists_cons_of_ne_nil valued
    have first := each
    rw [isValues, List.forall₂_cons_left_iff] at first
    obtain ⟨branch, rest, branched, -, rfl⟩ := first
    have given := filters_ne_nil filters (isValues ▸ List.mem_cons_self ..) branched
    rw [List.isEmpty_eq_false_iff, List.flatMap_cons]
    exact List.append_ne_nil_of_left_ne_nil given _
  cases equality
  rw [asks, filters.negated]
  refine ⟨_, rfl, ⟨field, kind, branches, isField, isKind, each, rfl, rfl, rfl⟩, rfl, rfl, ?_⟩
  intro score among
  obtain ⟨branch, isBranch, isScore⟩ := List.mem_flatMap.1 among
  obtain ⟨value, -, branched⟩ := exists_of_mem_forall₂ each isBranch
  exact subject_of_mem_scores branched isScore

theorem exists_of_contributions {catalog : Catalog} {term : Term}
    (filters : term.IsAttachedFilter) (valued : term.values ≠ []) {names : List String}
    (among : ∀ name ∈ names, name ∈ term.fields) {used : List String}
    {found : List Contribution} (compiled : contributions catalog term used names = .ok found) :
    ∃ members : List Member, found.filterMap Contribution.member = members ∧
      found.map Contribution.table = members.map Member.table ∧
        List.Forall₂ (StandsFor catalog term) names members ∧
          members.map Member.aliasName = nextAliases used (members.map Member.table) ∧
            ∀ score ∈ found.flatMap Contribution.scores,
              ∃ member ∈ members, score.subject = member.data := by
  induction names generalizing used found with
  | nil =>
      cases compiled
      exact ⟨[], rfl, rfl, .nil, rfl, by simp⟩
  | cons name names induction =>
      rw [contributions] at compiled
      obtain ⟨first, isFirst, compiled⟩ := bind_eq_ok.1 compiled
      obtain ⟨rest, areRest, equality⟩ := bind_eq_ok.1 compiled
      cases equality
      rw [List.forall_mem_cons] at among
      obtain ⟨member, gives⟩ := exists_of_contribution filters valued among.1 isFirst
      obtain ⟨members, given, tables, stand, aliases, scores⟩ := induction among.2 areRest
      refine ⟨member :: members, ?_, ?_, .cons gives.stands stand, ?_, fun score isScore => ?_⟩
      · rw [List.filterMap_cons, gives.given, given]
      · rw [List.map_cons, List.map_cons, gives.table, tables]
      · rw [List.map_cons, List.map_cons, nextAliases, aliases, gives.aliasName, gives.table]
      · rcases List.mem_append.1 isScore with here | later
        · exact ⟨member, List.mem_cons_self .., gives.scores score here⟩
        · obtain ⟨other, isOther, subject⟩ := scores score later
          exact ⟨other, List.mem_cons_of_mem _ isOther, subject⟩

end Member

/-! ### Parts -/

/-- The members that a term gives: none when it is about a column of the page table. -/
inductive Term.Has (catalog : Catalog) (term : Term) : List Member → Prop
  | native (native : term.isNativeFilter = true) : Has catalog term []
  | attached {members : List Member} (filters : term.IsAttachedFilter)
      (stand : List.Forall₂ (Member.StandsFor catalog term) term.fields members) :
      Has catalog term members

def Term.Filters (catalog : Catalog) (term : Term) (conjuncts : List Conjunct) : Prop :=
  if term.kind = .native then
    ∃ filter, term.nativeFilter catalog = .ok filter ∧ conjuncts = [.enclosed filter]
  else
    conjuncts = []

namespace Part

structure IsOf (catalog : Catalog) (used : List String) (term : Term) (members : List Member)
    (part : Part) : Prop where
  has : term.Has catalog members
  filters : term.Filters catalog part.conjuncts
  joins : part.joins = []
  entries : part.members = members.map fun member => (term.text, member)
  tables : part.used = members.map Member.table
  aliases : members.map Member.aliasName = nextAliases used (members.map Member.table)
  scored : ∀ score ∈ part.scores, ∃ member ∈ members, score.subject = member.data

theorem exists_of_ofTerm {catalog : Catalog} {used : List String} {term : Term}
    (filters : term.isNativeFilter = true ∨ term.isAttachedFilter = true)
    (valued : term.values ≠ []) {part : Part}
    (compiled : ofTerm catalog used term = .ok part) :
    ∃ members, IsOf catalog used term members part := by
  rcases filters with native | attached
  · have kind := Term.kind_of_isNativeFilter native
    rw [ofTerm, kind] at compiled
    obtain ⟨filter, filtered, equality⟩ := bind_eq_ok.1 compiled
    cases equality
    refine ⟨[], .native native, ?_, rfl, rfl, rfl, rfl, by simp [nothing]⟩
    rw [Term.Filters, if_pos kind]
    exact ⟨filter, filtered, rfl⟩
  · have filters := Term.isAttachedFilter_iff.1 attached
    rw [ofTerm, filters.kind] at compiled
    obtain ⟨found, contributed, equality⟩ := bind_eq_ok.1 compiled
    cases equality
    obtain ⟨members, given, tables, stand, aliases, scores⟩ :=
      Member.exists_of_contributions filters valued (fun _ isName => isName) contributed
    refine ⟨members, .attached filters stand, ?_, rfl, ?_, tables, aliases, scores⟩
    · rw [Term.Filters, if_neg (by simp [filters.kind])]
      rfl
    · rw [ofContributions, given]

end Part

/-- Terms with their members. -/
abbrev Blocks := List (Term × List Member)

namespace Blocks

def members (blocks : Blocks) : List Member :=
  blocks.flatMap Prod.snd

def entries (blocks : Blocks) : List (String × Member) :=
  blocks.flatMap fun block => block.2.map fun member => (block.1.text, member)

def groups (blocks : Blocks) : List MemberGroup :=
  MemberGroup.ofRuns blocks.entries

theorem flatten_groups (blocks : Blocks) : blocks.groups.flatten = blocks.members := by
  rw [groups, MemberGroup.flatten_ofRuns, entries, members, List.map_flatMap]
  simp only [List.map_map, Function.comp_def, List.map_id']

theorem mem_groups {blocks : Blocks} {member : Member} :
    (∃ group ∈ blocks.groups, member ∈ group) ↔ member ∈ blocks.members := by
  rw [← flatten_groups, List.mem_flatten]

end Blocks

structure Part.AreOf (catalog : Catalog) (used : List String) (blocks : Blocks)
    (parts : List Part) : Prop where
  has : ∀ block ∈ blocks, block.1.Has catalog block.2
  filters : List.Forall₂ (Term.Filters catalog) (blocks.map Prod.fst) (parts.map Part.conjuncts)
  joins : parts.flatMap Part.joins = []
  entries : parts.flatMap Part.members = blocks.entries
  aliases : blocks.members.map Member.aliasName =
    nextAliases used (blocks.members.map Member.table)
  scored : ∀ score ∈ parts.flatMap Part.scores,
    ∃ member ∈ blocks.members, score.subject = member.data

theorem Part.exists_of_ofTerms {catalog : Catalog} {selector : Selector}
    (filters : ∀ term ∈ selector, term.isNativeFilter = true ∨ term.isAttachedFilter = true)
    (valued : ∀ term ∈ selector, term.values ≠ []) {used : List String} {parts : List Part}
    (compiled : ofTerms catalog used selector = .ok parts) :
    ∃ blocks : Blocks, blocks.map Prod.fst = selector ∧ AreOf catalog used blocks parts := by
  induction selector generalizing used parts with
  | nil =>
      cases compiled
      exact ⟨[], rfl, by simp, .nil, rfl, rfl, rfl, by simp⟩
  | cons term terms induction =>
      rw [ofTerms] at compiled
      obtain ⟨first, isFirst, compiled⟩ := bind_eq_ok.1 compiled
      obtain ⟨rest, areRest, equality⟩ := bind_eq_ok.1 compiled
      cases equality
      rw [List.forall_mem_cons] at filters valued
      obtain ⟨members, one⟩ := exists_of_ofTerm filters.1 valued.1 isFirst
      obtain ⟨blocks, isTerms, others⟩ := induction filters.2 valued.2 areRest
      refine ⟨(term, members) :: blocks, by rw [List.map_cons, isTerms], ?_⟩
      constructor
      · exact List.forall_mem_cons.2 ⟨one.has, others.has⟩
      · exact .cons one.filters others.filters
      · rw [List.flatMap_cons, one.joins, others.joins, List.append_nil]
      · rw [List.flatMap_cons, one.entries, others.entries]
        rfl
      · have split : Blocks.members ((term, members) :: blocks) = members ++ blocks.members := rfl
        rw [split, List.map_append, List.map_append, nextAliases_append, one.aliases,
          others.aliases, one.tables]
      · intro score isScore
        rcases List.mem_append.1 isScore with here | later
        · obtain ⟨member, isMember, subject⟩ := one.scored score here
          exact ⟨member, List.mem_append_left _ isMember, subject⟩
        · obtain ⟨member, isMember, subject⟩ := others.scored score later
          exact ⟨member, List.mem_append_right _ isMember, subject⟩

/-! ### Queries -/

theorem Join.addTo_of_notMem {join : Join} {joins : List Join}
    (fresh : join.aliasName ∉ joins.map Join.aliasName) : join.addTo joins = joins ++ [join] := by
  induction joins with
  | nil => rfl
  | cons other rest induction =>
      rw [List.map_cons, List.mem_cons, not_or] at fresh
      rw [addTo, if_neg (Ne.symm fresh.1), induction fresh.2, List.cons_append]

theorem Join.foldl_addTo {joins merged : List Join}
    (nodup : ((merged ++ joins).map Join.aliasName).Nodup) :
    joins.foldl (fun merged join => join.addTo merged) merged = merged ++ joins := by
  induction joins generalizing merged with
  | nil => rw [List.foldl_nil, List.append_nil]
  | cons join rest induction =>
      have fresh : join.aliasName ∉ merged.map Join.aliasName := by
        rw [List.map_append, List.map_cons, List.nodup_append] at nodup
        exact fun repeated => nodup.2.2 _ repeated _ (List.mem_cons_self ..) rfl
      rw [List.foldl_cons, addTo_of_notMem fresh, induction, List.append_assoc,
        List.singleton_append]
      rwa [List.append_assoc, List.singleton_append]

/-- Joins under aliases of their own are not merged. -/
theorem Join.merge_eq_self {joins : List Join} (nodup : (joins.map Join.aliasName).Nodup) :
    Join.merge joins = joins :=
  foldl_addTo nodup

theorem MemberGroup.map_aliasName_joins (group : MemberGroup) :
    group.joins.map Join.aliasName = group.map Member.aliasName := by
  unfold joins
  split
  · rw [List.map_map]
    rfl
  · rw [List.map_map]
    rfl

theorem MemberGroup.map_aliasName_flatMap_joins (groups : List MemberGroup) :
    (groups.flatMap joins).map Join.aliasName = groups.flatten.map Member.aliasName := by
  rw [List.map_flatMap, List.map_flatten, ← List.flatMap_def]
  simp only [map_aliasName_joins]

theorem MemberGroup.map_aliasName_ofRuns (entries : List (String × Member)) :
    ((ofRuns entries).flatMap joins).map Join.aliasName =
      entries.map fun entry => entry.2.aliasName := by
  rw [map_aliasName_flatMap_joins, flatten_ofRuns, List.map_map]
  rfl

theorem Blocks.map_aliasName_joins (blocks : Blocks) :
    (blocks.groups.flatMap MemberGroup.joins).map Join.aliasName =
      blocks.members.map Member.aliasName := by
  rw [MemberGroup.map_aliasName_flatMap_joins, blocks.flatten_groups]

structure Query.IsOf (catalog : Catalog) (blocks : Blocks) (query : Query) : Prop where
  has : ∀ block ∈ blocks, block.1.Has catalog block.2
  conjuncts : ∃ filters, List.Forall₂ (Term.Filters catalog) (blocks.map Prod.fst) filters ∧
    query.conjuncts = filters.flatten ++ MemberGroup.conjuncts blocks.groups
  joins : query.joins = blocks.groups.flatMap MemberGroup.joins
  aliases : blocks.members.map Member.aliasName =
    nextAliases [] (blocks.members.map Member.table)
  nodup : ((blocks.members.map Member.aliasName).map foldName).Nodup
  scored : ∀ score ∈ query.scores, ∃ member ∈ blocks.members, score.subject = member.data
  orders : query.orders = query.scores.map Order.ofScore
  window : query.window = none

theorem Term.Has.exists_table {catalog : Catalog} {term : Term} {members : List Member}
    (has : term.Has catalog members) {member : Member} (isMember : member ∈ members) :
    ∃ field ∈ catalog.schema.fields, member.table = field.table := by
  cases has with
  | native native => simp at isMember
  | attached filters stand =>
      obtain ⟨name, -, field, fieldKind, branches, isField, memberOf⟩ :=
        exists_of_mem_forall₂ stand isMember
      exact ⟨field, Schema.mem_fields_of_field? isField, memberOf.table⟩

theorem Part.AreOf.nodup_aliases {catalog : Catalog} (apart : catalog.schema.HasApartNames)
    (default : catalog.schema.HasDefaultTables) {blocks : Blocks} {parts : List Part}
    (areOf : AreOf catalog [] blocks parts) :
    ((blocks.members.map Member.aliasName).map foldName).Nodup := by
  rw [areOf.aliases]
  apply nodup_nextAliases
  have fromField : ∀ table ∈ blocks.members.map Member.table,
      ∃ field ∈ catalog.schema.fields, table = field.table := by
    intro table isTable
    obtain ⟨member, isMember, rfl⟩ := List.mem_map.1 isTable
    obtain ⟨block, isBlock, among⟩ := List.mem_flatMap.1 isMember
    exact (areOf.has block isBlock).exists_table among
  intro table isTable other isOther different
  obtain ⟨field, isField, rfl⟩ := fromField table isTable
  obtain ⟨otherField, isOtherField, rfl⟩ := fromField other isOther
  exact Schema.areApart_tables apart default isField isOtherField different

theorem Selector.sortKeys_eq_nil {selector : Selector}
    (others : ∀ term ∈ selector, term.field ≠ "sort") (schema : Schema) :
    selector.sortKeys schema = [] := by
  have unsorted : selector.filter (fun term => term.field = "sort") = [] :=
    List.filter_eq_nil_iff.2 fun term isTerm => by simp [others term isTerm]
  rw [sortKeys, unsorted]
  rfl

/-- Other terms than those of order and window order nothing and cut nothing off. -/
theorem Selector.sortKeys_eq_nil_and_window?_eq_none_of_kind {selector : Selector}
    (kinds : ∀ term ∈ selector, term.kind ≠ .sort ∧ term.kind ≠ .window) (catalog : Catalog) :
    selector.sortKeys catalog.schema = [] ∧ selector.window? catalog.pageNumber = none := by
  have fields {term : Term} (isTerm : term ∈ selector) :=
    Term.field_ne_of_kind (kinds term isTerm).1 (kinds term isTerm).2
  exact ⟨sortKeys_eq_nil (fun term isTerm => (fields isTerm).1) _,
    window?_eq_none (fun term isTerm => (fields isTerm).2) _⟩

theorem Selector.sortKeys_eq_nil_and_window?_eq_none {selector : Selector}
    (filters : ∀ term ∈ selector, term.isNativeFilter = true ∨ term.isAttachedFilter = true)
    (catalog : Catalog) :
    selector.sortKeys catalog.schema = [] ∧ selector.window? catalog.pageNumber = none := by
  refine sortKeys_eq_nil_and_window?_eq_none_of_kind (fun term isTerm => ?_) catalog
  rcases filters term isTerm with native | attached
  · simp [Term.kind_of_isNativeFilter native]
  · simp [(Term.isAttachedFilter_iff.1 attached).kind]

theorem Selector.exists_of_compile {catalog : Catalog} (apart : catalog.schema.HasApartNames)
    (default : catalog.schema.HasDefaultTables) {selector : Selector}
    (filters : ∀ term ∈ selector, term.isNativeFilter = true ∨ term.isAttachedFilter = true)
    (valued : ∀ term ∈ selector, term.values ≠ []) {query : Query}
    (compiled : selector.compile catalog = .ok query) :
    ∃ blocks : Blocks, blocks.map Prod.fst = selector ∧ query.IsOf catalog blocks := by
  obtain ⟨parts, areParts, rfl⟩ := map_eq_ok.1 compiled
  obtain ⟨blocks, isTerms, areOf⟩ := Part.exists_of_ofTerms filters valued areParts
  have nodup := areOf.nodup_aliases apart default
  obtain ⟨unordered, unlimited⟩ :=
    Selector.sortKeys_eq_nil_and_window?_eq_none filters catalog
  have grouped : MemberGroup.ofRuns (parts.flatMap Part.members) = blocks.groups :=
    congrArg MemberGroup.ofRuns areOf.entries
  have unmerged : Join.merge (blocks.groups.flatMap MemberGroup.joins) =
      blocks.groups.flatMap MemberGroup.joins := by
    apply Join.merge_eq_self
    rw [blocks.map_aliasName_joins]
    exact List.Nodup.of_map _ nodup
  refine ⟨blocks, isTerms, areOf.has, ⟨_, areOf.filters, ?_⟩, ?_, areOf.aliases,
    nodup, areOf.scored, ?_, unlimited⟩
  · rw [← List.flatMap_def, ← grouped]
    rfl
  · simp only [assemble, grouped, unordered, areOf.joins, List.flatMap_nil, List.append_nil,
      List.nil_append, unmerged]
  · simp only [assemble, unordered, List.map_nil, List.reverse_nil, List.nil_append]

theorem Query.IsOf.withComment {catalog : Catalog} {blocks : Blocks} {query : Query}
    (isOf : query.IsOf catalog blocks) (comment : String) :
    ({ query with comment } : Query).IsOf catalog blocks :=
  { isOf with }

theorem Finder.exists_of_queryFor {catalog : Catalog} (apart : catalog.schema.HasApartNames)
    (default : catalog.schema.HasDefaultTables) {finder : Finder}
    (unchecked : finder.checkStatus = false) {selector : Selector}
    (filters : ∀ term ∈ selector, term.isNativeFilter = true ∨ term.isAttachedFilter = true)
    (valued : ∀ term ∈ selector, term.values ≠ []) {query : Query}
    (compiled : finder.queryFor catalog selector false = .ok query) :
    ∃ blocks : Blocks, blocks.map Prod.fst = selector ∧ query.IsOf catalog blocks := by
  obtain ⟨plain, isPlain, rfl⟩ := map_eq_ok.1 compiled
  rw [prepare, unchecked, if_neg Bool.false_ne_true, if_neg Bool.false_ne_true] at isPlain
  obtain ⟨blocks, isTerms, isOf⟩ :=
    Selector.exists_of_compile apart default filters valued isPlain
  refine ⟨blocks, isTerms, ?_⟩
  split
  · exact isOf.withComment _
  · exact isOf

/-! ### Groups and terms -/

theorem MemberGroup.ofRuns_ne_nil {entries : List (String × Member)} (nonempty : entries ≠ []) :
    ofRuns entries ≠ [] := by
  obtain ⟨entry, rest, rfl⟩ := List.exists_cons_of_ne_nil nonempty
  obtain ⟨text, member⟩ := entry
  rw [ofRuns.eq_def]
  dsimp only
  split
  · split <;> exact List.cons_ne_nil _ _
  · exact List.cons_ne_nil _ _

theorem MemberGroup.ofRuns_cons {text other : String} {member first : Member}
    {later : List (String × Member)} {group : MemberGroup} {groups : List MemberGroup}
    (runs : ofRuns ((other, first) :: later) = group :: groups) :
    ofRuns ((text, member) :: (other, first) :: later) =
      if text = other then (member :: group) :: groups else [member] :: group :: groups := by
  rw [ofRuns.eq_def]
  dsimp only
  rw [runs]

/-- Members with one text make a group, together with the first group after them where that has the
same text. -/
theorem MemberGroup.ofRuns_append (text : String) {members : List Member} (nonempty : members ≠ [])
    (rest : List (String × Member)) :
    (∃ group groups, ofRuns rest = group :: groups ∧ rest.head?.map Prod.fst = some text ∧
      ofRuns (members.map (fun member => (text, member)) ++ rest) = (members ++ group) :: groups) ∨
    ofRuns (members.map (fun member => (text, member)) ++ rest) = members :: ofRuns rest := by
  induction members with
  | nil => exact absurd rfl nonempty
  | cons member members induction =>
      rw [List.map_cons, List.cons_append]
      by_cases last : members = []
      · subst last
        rw [List.map_nil, List.nil_append]
        cases rest with
        | nil => exact .inr rfl
        | cons next later =>
            obtain ⟨group, groups, runs⟩ :=
              List.exists_cons_of_ne_nil (ofRuns_ne_nil (List.cons_ne_nil next later))
            obtain ⟨other, first⟩ := next
            rw [ofRuns_cons runs]
            split
            · next same => exact .inl ⟨group, groups, runs, congrArg Option.some same.symm, rfl⟩
            · exact .inr (congrArg _ runs.symm)
      · obtain ⟨second, others, rfl⟩ := List.exists_cons_of_ne_nil last
        have joined {group : MemberGroup} {groups : List MemberGroup}
            (runs : ofRuns ((second :: others).map (fun member => (text, member)) ++ rest) =
              group :: groups) :
            ofRuns ((text, member) ::
              ((second :: others).map (fun member => (text, member)) ++ rest)) =
                (member :: group) :: groups := by
          rw [List.map_cons, List.cons_append] at runs ⊢
          rw [ofRuns_cons runs, if_pos rfl]
        rcases induction last with ⟨group, groups, runs, head, whole⟩ | whole
        · exact .inl ⟨group, groups, runs, head, joined whole⟩
        · exact .inr (joined whole)

/-- Members with one text after other members stand in the last group. -/
theorem MemberGroup.exists_ofRuns_append (text : String) (front : List (String × Member)) :
    ∃ groups group, ∀ members : List Member, members ≠ [] →
      ofRuns (front ++ members.map fun member => (text, member)) = groups ++ [group ++ members] := by
  induction front with
  | nil =>
      refine ⟨[], [], fun members nonempty => ?_⟩
      have runs := ofRuns_append text nonempty []
      rw [List.append_nil] at runs
      rcases runs with ⟨group, groups, none, -⟩ | whole
      · cases none
      · exact whole
  | cons entry rest induction =>
      obtain ⟨before, first⟩ := entry
      obtain ⟨groups, group, runs⟩ := induction
      -- The text after the new member does not depend on the last members.
      let next := (rest.head?.map Prod.fst).getD text
      have step {members : List Member} (nonempty : members ≠ []) {other : MemberGroup}
          {others : List MemberGroup}
          (split : groups ++ [group ++ members] = other :: others) :
          ofRuns ((before, first) :: rest ++ members.map fun member => (text, member)) =
            if before = next then (first :: other) :: others else [first] :: other :: others := by
        have after := (runs members nonempty).trans split
        cases rest with
        | nil =>
            obtain ⟨member, later, rfl⟩ := List.exists_cons_of_ne_nil nonempty
            exact ofRuns_cons after
        | cons second later =>
            obtain ⟨second, member⟩ := second
            exact ofRuns_cons after
      by_cases same : before = next
      · cases groups with
        | nil =>
            refine ⟨[], first :: group, fun members nonempty => ?_⟩
            rw [step nonempty rfl, if_pos same]
            rfl
        | cons other groups =>
            refine ⟨(first :: other) :: groups, group, fun members nonempty => ?_⟩
            rw [step nonempty rfl, if_pos same]
            rfl
      · refine ⟨[first] :: groups, group, fun members nonempty => ?_⟩
        obtain ⟨other, others, split⟩ := List.exists_cons_of_ne_nil
          (List.append_ne_nil_of_right_ne_nil groups (List.cons_ne_nil (group ++ members) []))
        rw [step nonempty split, if_neg same, List.cons_append, split]

namespace Blocks

variable {blocks : Blocks} {p : Member → Prop} {q : String → Prop}

theorem groups_cons (term : Term) {members : List Member} (nonempty : members ≠ [])
    (rest : Blocks) :
    (∃ group groups, rest.groups = group :: groups ∧
      rest.entries.head?.map Prod.fst = some term.text ∧
        Blocks.groups ((term, members) :: rest) = (members ++ group) :: groups) ∨
    Blocks.groups ((term, members) :: rest) = members :: rest.groups :=
  MemberGroup.ofRuns_append term.text nonempty rest.entries

theorem entries_cons (term : Term) {members : List Member} (nonempty : members ≠ [])
    (rest : Blocks) :
    (Blocks.entries ((term, members) :: rest)).head?.map Prod.fst = some term.text := by
  obtain ⟨member, members, rfl⟩ := List.exists_cons_of_ne_nil nonempty
  rfl

/-- The first group has a member with a property just when its text says so. -/
theorem head_groups_iff
    (each : ∀ block ∈ blocks, block.2 ≠ [] → ((∃ member ∈ block.2, p member) ↔ q block.1.text))
    {group : MemberGroup} {groups : List MemberGroup} (runs : blocks.groups = group :: groups)
    {text : String} (head : blocks.entries.head?.map Prod.fst = some text) :
    (∃ member ∈ group, p member) ↔ q text := by
  induction blocks generalizing group groups with
  | nil => cases runs
  | cons block rest induction =>
      obtain ⟨term, members⟩ := block
      rw [List.forall_mem_cons] at each
      by_cases empty : members = []
      · subst empty
        exact induction each.2 runs head
      · rw [entries_cons term empty rest, Option.some.injEq] at head
        subst head
        have here := each.1 empty
        rcases groups_cons term empty rest with ⟨next, later, isNext, same, whole⟩ | whole
        · rw [whole] at runs
          obtain ⟨rfl, -⟩ := List.cons.inj runs
          have there := induction each.2 isNext same
          simp only [List.mem_append, or_and_right, exists_or, here, there, or_self]
        · rw [whole] at runs
          obtain ⟨rfl, -⟩ := List.cons.inj runs
          exact here

/-- Every group has a member with a property just when every term has one. Neighbours with one text
are a group, and say the same. -/
theorem groups_iff
    (each : ∀ block ∈ blocks, block.2 ≠ [] → ((∃ member ∈ block.2, p member) ↔ q block.1.text)) :
    (∀ group ∈ blocks.groups, ∃ member ∈ group, p member) ↔
      ∀ block ∈ blocks, block.2 ≠ [] → ∃ member ∈ block.2, p member := by
  induction blocks with
  | nil => simp [groups, entries, MemberGroup.ofRuns]
  | cons block rest induction =>
      obtain ⟨term, members⟩ := block
      rw [List.forall_mem_cons] at each
      rw [List.forall_mem_cons, ← induction each.2]
      by_cases empty : members = []
      · subst empty
        exact ⟨fun all => ⟨fun nonempty => absurd rfl nonempty, all⟩, fun both => both.2⟩
      · have here := each.1 empty
        dsimp only at here ⊢
        simp only [ne_eq, empty, not_false_eq_true, forall_const]
        rcases groups_cons term empty rest with ⟨next, later, isNext, same, whole⟩ | whole
        · have there := head_groups_iff each.2 isNext same
          rw [whole, isNext, List.forall_mem_cons, List.forall_mem_cons, here, there]
          simp only [List.mem_append, or_and_right, exists_or, here, there, or_self, and_self_left]
        · rw [whole, List.forall_mem_cons]

end Blocks

end PageTree
