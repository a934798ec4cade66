import PageTree.Proofs.Compile.Names
import PageTree.Proofs.Compile.SortSources
import PageTree.Proofs.Compile.Words

/-!
The frame of a compiled query: the joins and filters of its terms on the page itself, on its path
and on the pages above it. They read the page table and tables of the page tree, under aliases of
their own. Main statement: the joins of a compiled query are those of its frame, then those of its
sort keys, then those of its groups, each merged with its like alone.
-/

namespace PageTree

open Sql

/-! ### Merged joins -/

namespace Join

theorem addTo_append {join : Join} {joins : List Join}
    (fresh : join.aliasName ∉ joins.map Join.aliasName) (others : List Join) :
    join.addTo (joins ++ others) = joins ++ join.addTo others := by
  induction joins with
  | nil => rfl
  | cons other rest induction =>
      rw [List.map_cons, List.mem_cons, not_or] at fresh
      rw [List.cons_append, addTo, if_neg (Ne.symm fresh.1), induction fresh.2, List.cons_append]

theorem foldl_addTo_append {joins merged : List Join}
    (fresh : ∀ join ∈ joins, join.aliasName ∉ merged.map Join.aliasName) (others : List Join) :
    joins.foldl (fun merged join => join.addTo merged) (merged ++ others) =
      merged ++ joins.foldl (fun merged join => join.addTo merged) others := by
  induction joins generalizing others with
  | nil => rfl
  | cons join joins induction =>
      rw [List.forall_mem_cons] at fresh
      rw [List.foldl_cons, addTo_append fresh.1, induction fresh.2, List.foldl_cons]

/-- Joins under other aliases are merged by themselves. -/
theorem merge_append {joins others : List Join}
    (apart : ∀ join ∈ joins, ∀ other ∈ others, other.aliasName ≠ join.aliasName) :
    merge (joins ++ others) = merge joins ++ merge others := by
  have fresh : ∀ other ∈ others, other.aliasName ∉ (merge joins).map Join.aliasName := by
    intro other isOther repeated
    obtain ⟨join, isJoin, same⟩ := List.mem_map.1 (map_aliasName_merge_subset joins repeated)
    exact apart join isJoin other isOther same.symm
  have folded := foldl_addTo_append fresh []
  rw [List.append_nil] at folded
  rw [merge, List.foldl_append]
  exact folded

theorem nodup_addTo {joins : List Join} (nodup : (joins.map Join.aliasName).Nodup) (join : Join) :
    ((join.addTo joins).map Join.aliasName).Nodup := by
  by_cases used : join.aliasName ∈ joins.map Join.aliasName
  · have same : (join.addTo joins).map Join.aliasName = joins.map Join.aliasName := by
      clear nodup
      induction joins with
      | nil => simp at used
      | cons other rest induction =>
          rw [addTo]
          by_cases here : other.aliasName = join.aliasName
          · rw [if_pos here]
            split <;> rfl
          · rw [List.map_cons, List.mem_cons] at used
            rw [if_neg here, List.map_cons, List.map_cons,
              induction (used.resolve_left fun same => here same.symm)]
    rwa [same]
  · rw [addTo_of_notMem used, List.map_append, List.map_singleton, ← List.concat_eq_append]
    exact nodup.concat used

theorem nodup_merge (joins : List Join) : ((merge joins).map Join.aliasName).Nodup := by
  unfold merge
  refine List.foldlRecOn joins _
    (motive := fun merged : List Join => (merged.map Join.aliasName).Nodup) List.nodup_nil ?_
  exact fun merged nodup join _ => nodup_addTo nodup join

/-- What holds of joins holds of merged ones, when one more condition under an alias does not
change it. -/
theorem forall_merge {p : Join → Prop}
    (added : ∀ join other : Join, p join → p other → join.aliasName = other.aliasName →
      join.on.same other.on = false → p { join with on := .conj [join.on, other.on] })
    {joins : List Join} (each : ∀ join ∈ joins, p join) : ∀ join ∈ merge joins, p join := by
  have step {merged : List Join} {join : Join} (kept : ∀ other ∈ merged, p other) (one : p join) :
      ∀ other ∈ join.addTo merged, p other := by
    induction merged with
    | nil => simpa [addTo] using one
    | cons other rest induction =>
        rw [List.forall_mem_cons] at kept
        rw [addTo]
        split
        · next same =>
          split
          · exact List.forall_mem_cons.2 kept
          · next differ =>
            exact List.forall_mem_cons.2
              ⟨added other join kept.1 one same (Bool.eq_false_iff.2 differ), kept.2⟩
        · exact List.forall_mem_cons.2 ⟨kept.1, induction kept.2⟩
  unfold merge
  refine List.foldlRecOn joins _
    (motive := fun merged : List Join => ∀ join ∈ merged, p join) (by simp) ?_
  exact fun merged kept join isJoin => step kept (each join isJoin)

/-- Where an alias stands for one join, with a lone test, merging only drops repetitions. -/
theorem mem_merge_iff {joins : List Join}
    (alone : ∀ join ∈ joins, ∀ other ∈ joins, join.aliasName = other.aliasName → join = other)
    (tests : ∀ join ∈ joins, ∃ test, join.on = .test test) {join : Join} :
    join ∈ merge joins ↔ join ∈ joins := by
  have among : ∀ join ∈ merge joins, join ∈ joins := by
    refine forall_merge (fun join other isJoin isOther same differ => ?_) fun _ => id
    obtain rfl := alone join isJoin other isOther same
    obtain ⟨test, isTest⟩ := tests join isJoin
    rw [isTest, Condition.same, decide_eq_false_iff_not] at differ
    exact absurd rfl differ
  refine ⟨among join, fun isJoin => ?_⟩
  have isAlias := mem_map_aliasName_merge_iff.2 (List.mem_map_of_mem (f := Join.aliasName) isJoin)
  obtain ⟨kept, isKept, same⟩ := List.mem_map.1 isAlias
  exact alone kept (among kept isKept) join isJoin same ▸ isKept

end Join

/-! ### Aliases in the page tree -/

/-- The aliases of the pages above a page, and of lists of them. -/
def IsTreeAlias (aliasName : String) : Prop :=
  ∃ name ∈ ["rootparent", "parent", "pages_parents"], ∃ used, aliasName = nextAlias used name

namespace IsTreeAlias

theorem root : IsTreeAlias "rootparent" :=
  ⟨"rootparent", by decide, [], rfl⟩

theorem parent (n : Nat) : IsTreeAlias ("parent" ++ toString (n + 1)) := by
  refine ⟨"parent", by decide, List.replicate (n + 1) "parent", ?_⟩
  rw [nextAlias, List.count_replicate_self]

theorem ancestors (used : List String) : IsTreeAlias (nextAlias used "pages_parents") :=
  ⟨"pages_parents", by decide, used, rfl⟩

variable {aliasName : String} (isAlias : IsTreeAlias aliasName)

include isAlias

theorem isFree : IsFreeAlias aliasName := by
  have words : ∀ name ∈ ["rootparent", "parent", "pages_parents"],
      foldName name = name ∧ isWord name = true ∧
        (foldName "pages" :: queryWord :: (reservedWords ++ valueWords)).all
          (fun word => !name.toList.isPrefixOf word.toList) = true := by
    decide
  obtain ⟨name, isName, used, rfl⟩ := isAlias
  obtain ⟨lower, word, other⟩ := words name isName
  refine isFreeAlias_of_prefix (isWord_nextAlias word) ?_ other
  rw [toList_foldName_nextAlias, lower]
  exact List.prefix_append ..

theorem foldName_eq : foldName aliasName = aliasName := by
  obtain ⟨name, isName, used, rfl⟩ := isAlias
  have lower : foldName name = name := by
    revert name
    decide
  unfold nextAlias
  split
  · exact lower
  · next n _ =>
    apply String.ext
    rw [toList_foldName_append, lower, Nat.toString_eq_ofList_toDigits,
      toList_foldName_ofDigits Text.isDigit_of_mem_toDigits, String.toList_append,
      String.toList_ofList]

theorem head?_eq : aliasName.toList.head? = some 'p' ∨ aliasName.toList.head? = some 'r' := by
  obtain ⟨name, isName, used, rfl⟩ := isAlias
  have begins : name.toList.head? = some 'p' ∨ name.toList.head? = some 'r' := by
    revert name
    decide
  exact begins.imp head?_nextAlias head?_nextAlias

end IsTreeAlias

/-- The columns of a filter belong to the page itself or to tables of the page tree. -/
def ReadsTree (filter : Filter) : Prop :=
  filter.Forall fun test => ∀ column ∈ test.columns,
    column.aliasName = "pages" ∨ IsTreeAlias column.aliasName

/-- The join drops rows, and reads the page tree under an alias of it. -/
structure Join.IsOfTree (join : Join) : Prop where
  kind : join.kind = .inner
  table : join.table = "pages" ∨ join.table = "pages_parents"
  isAlias : IsTreeAlias join.aliasName
  on : ReadsTree join.on

theorem Join.isOfTree_merge {joins : List Join} (ofTree : ∀ join ∈ joins, join.IsOfTree) :
    ∀ join ∈ merge joins, join.IsOfTree := by
  refine forall_merge (fun join other one another _ _ => { one with on := ?_ }) ofTree
  rw [ReadsTree, Condition.forall_conj]
  exact List.forall_mem_cons.2 ⟨one.on, List.forall_mem_singleton.2 another.on⟩

/-! ### Terms -/

namespace Path

theorem isOfTree_joinsAbove (segments : List String) {below : String}
    (isBelow : below = "pages" ∨ IsTreeAlias below) :
    ∀ join ∈ joinsAbove below segments, join.IsOfTree := by
  induction segments generalizing below with
  | nil => simp [joinsAbove]
  | cons segment above induction =>
      rw [joinsAbove]
      split
      · refine List.forall_mem_cons.2 ⟨⟨rfl, .inl rfl, .root, ?_⟩, induction isBelow⟩
        simp [ReadsTree, rootJoin, parentOf, Test.columns, isBelow, IsTreeAlias.root]
      · have isAlias := IsTreeAlias.parent above.length
        refine List.forall_mem_cons.2 ⟨⟨rfl, .inl rfl, isAlias, ?_⟩, induction (.inr isAlias)⟩
        rw [ReadsTree, parentJoin, Condition.forall_conj, List.forall_mem_cons,
          List.forall_mem_singleton, Condition.forall_test, Condition.forall_test]
        exact ⟨List.forall_mem_cons.2 ⟨isBelow, List.forall_mem_singleton.2 (.inr isAlias)⟩,
          List.forall_mem_singleton.2 (.inr isAlias)⟩

theorem isOfTree_joins (path : String) : ∀ join ∈ joins path, join.IsOfTree := by
  unfold joins
  split
  · simp
  · exact isOfTree_joinsAbove _ (.inl rfl)

theorem readsTree_conjuncts (path : String) :
    ∀ conjunct ∈ conjuncts path, ReadsTree conjunct.filter := by
  unfold conjuncts
  split
  · simp [ReadsTree, Conjunct.filter, Test.columns, Query.idColumn]
  · rw [List.forall_mem_cons]
    constructor
    · simp [ReadsTree, Conjunct.filter, Test.columns, nameOf, Operand.ofText]
    · split
      · simp [ReadsTree, Conjunct.filter, Test.columns, parentOf]
      · simp

end Path

theorem Term.isOfTree_ancestorJoin (used : List String) (ids : List Int) :
    (ancestorJoin (nextAlias used "pages_parents") ids).IsOfTree := by
  have isAlias := IsTreeAlias.ancestors used
  refine ⟨rfl, .inr rfl, isAlias, ?_⟩
  rw [ReadsTree, ancestorJoin, Condition.forall_conj, List.forall_mem_cons,
    List.forall_mem_singleton, Condition.forall_disj, List.forall_mem_map]
  constructor
  · simp [Test.columns, Path.parentOf, isAlias]
  · intro id _
    simp [Test.columns, isAlias]

theorem nativeColumn_aliasName (name : String) : (nativeColumn name).aliasName = "pages" := by
  unfold nativeColumn
  split <;> rfl

/-- The page tree is all that a part reads outside of its members. -/
structure Part.IsFramed (part : Part) : Prop where
  joins : ∀ join ∈ part.joins, join.IsOfTree
  conjuncts : ∀ conjunct ∈ part.conjuncts, ReadsTree conjunct.filter

theorem Part.isFramed_ofTerm {catalog : Catalog} {used : List String} {term : Term} {part : Part}
    (compiled : ofTerm catalog used term = .ok part) : part.IsFramed := by
  have nothing : nothing.IsFramed := ⟨by simp [Part.nothing], by simp [Part.nothing]⟩
  unfold ofTerm at compiled
  split at compiled
  · cases compiled
    exact nothing
  · cases compiled
    exact nothing
  · cases compiled
    exact ⟨Path.isOfTree_joins term.value, Path.readsTree_conjuncts term.value⟩
  · obtain ⟨ids, -, equality⟩ := bind_eq_ok.1 compiled
    cases equality
    exact ⟨List.forall_mem_singleton.2 (Term.isOfTree_ancestorJoin used ids), nothing.conjuncts⟩
  · obtain ⟨filter, filtered, equality⟩ := bind_eq_ok.1 compiled
    cases equality
    refine ⟨nothing.joins, List.forall_mem_singleton.2 fun test isTest column read => .inl ?_⟩
    rw [Term.forall_columns_nativeFilter filtered test isTest column read, nativeColumn_aliasName]
  · obtain ⟨contributions, -, equality⟩ := bind_eq_ok.1 compiled
    cases equality
    exact ⟨nothing.joins, nothing.conjuncts⟩

/-- The members of a part stand for names of its term, and its relevance columns for theirs. -/
structure Part.HasNames (catalog : Catalog) (term : Term) (part : Part) : Prop where
  stand : ∀ entry ∈ part.members, entry.1 = term.text ∧
    ∃ name ∈ term.fields, entry.2.StandsByName catalog term name
  scored : ∀ score ∈ part.scores, ∃ entry ∈ part.members,
    ∃ test ∈ entry.2.condition.tests, score.subject ∈ test.columns

theorem Part.hasNames_ofTerm {catalog : Catalog} {used : List String} {term : Term} {part : Part}
    (compiled : ofTerm catalog used term = .ok part) : part.HasNames catalog term := by
  have nothing : nothing.HasNames catalog term := ⟨by simp [Part.nothing], by simp [Part.nothing]⟩
  unfold ofTerm at compiled
  split at compiled
  · cases compiled
    exact nothing
  · cases compiled
    exact nothing
  · cases compiled
    exact ⟨nothing.stand, nothing.scored⟩
  · obtain ⟨ids, -, equality⟩ := bind_eq_ok.1 compiled
    cases equality
    exact ⟨nothing.stand, nothing.scored⟩
  · obtain ⟨filter, -, equality⟩ := bind_eq_ok.1 compiled
    cases equality
    exact ⟨nothing.stand, nothing.scored⟩
  · obtain ⟨found, contributed, equality⟩ := bind_eq_ok.1 compiled
    cases equality
    cases asks : term.asks with
    | false =>
        obtain ⟨members, scores⟩ := Member.eq_nil_of_contributions asks contributed
        constructor
        · simp [ofContributions, members]
        · simp [ofContributions, scores]
    | true =>
        obtain ⟨members, given, stand, -, scored⟩ :=
          Member.exists_members_of_contributions asks contributed
        constructor
        · rw [ofContributions, given, List.forall_mem_map]
          exact fun member isMember => ⟨rfl, exists_of_mem_forall₂ stand isMember⟩
        · intro score isScore
          obtain ⟨member, isMember, test⟩ := scored score isScore
          refine ⟨(term.text, member), ?_, test⟩
          rw [ofContributions, given]
          exact List.mem_map_of_mem isMember

namespace Part

variable {catalog : Catalog} {used : List String} {selector others : Selector}

theorem ofTerms_append_eq_ok {parts : List Part} :
    ofTerms catalog used (selector ++ others) = .ok parts ↔
      ∃ first rest, ofTerms catalog used selector = .ok first ∧
        ofTerms catalog (used ++ first.flatMap Part.used) others = .ok rest ∧
          parts = first ++ rest := by
  induction selector generalizing used parts with
  | nil =>
      rw [List.nil_append]
      constructor
      · exact fun compiled => ⟨[], parts, rfl, by rwa [List.flatMap_nil, List.append_nil], rfl⟩
      · rintro ⟨first, rest, none, compiled, rfl⟩
        cases none
        rwa [List.flatMap_nil, List.append_nil] at compiled
  | cons term selector induction =>
      rw [List.cons_append, ofTerms, ofTerms]
      constructor
      · intro compiled
        obtain ⟨one, isOne, compiled⟩ := bind_eq_ok.1 compiled
        obtain ⟨more, areMore, equality⟩ := bind_eq_ok.1 compiled
        cases equality
        obtain ⟨first, rest, isFirst, isRest, rfl⟩ := induction.1 areMore
        refine ⟨one :: first, rest, bind_eq_ok.2 ⟨one, isOne, bind_eq_ok.2 ⟨first, isFirst, rfl⟩⟩,
          ?_, rfl⟩
        rwa [List.flatMap_cons, ← List.append_assoc]
      · rintro ⟨front, rest, isFront, isRest, rfl⟩
        obtain ⟨one, isOne, isFront⟩ := bind_eq_ok.1 isFront
        obtain ⟨first, isFirst, equality⟩ := bind_eq_ok.1 isFront
        cases equality
        rw [List.flatMap_cons, ← List.append_assoc] at isRest
        exact bind_eq_ok.2 ⟨one, isOne, bind_eq_ok.2 ⟨first ++ rest,
          induction.2 ⟨first, rest, isFirst, isRest, rfl⟩, rfl⟩⟩

/-- The part of a term on attached fields. A term that asks for nothing has no members. -/
structure IsAttached (catalog : Catalog) (term : Term) (members : List Member) (part : Part) :
    Prop where
  joins : part.joins = []
  conjuncts : part.conjuncts = []
  entries : part.members = members.map fun member => (term.text, member)
  stand : term.asks = true →
    List.Forall₂ (Member.StandsByName catalog term) term.fields members
  silent : term.asks = false → members = []

theorem exists_isAttached {term : Term} (attached : term.kind = .attached) {part : Part}
    (compiled : ofTerm catalog used term = .ok part) :
    ∃ members, part.IsAttached catalog term members := by
  rw [ofTerm, attached] at compiled
  obtain ⟨found, contributed, equality⟩ := bind_eq_ok.1 compiled
  cases equality
  refine ⟨found.filterMap Member.Contribution.member, rfl, rfl, rfl, fun asks => ?_,
    fun silent => (Member.eq_nil_of_contributions silent contributed).1⟩
  obtain ⟨members, given, stand, -⟩ := Member.exists_members_of_contributions asks contributed
  rwa [given]

/-- A term on attached fields that compiles does so again after it. -/
theorem exists_ofTerm_again {term : Term} (attached : term.kind = .attached) {part : Part}
    (compiled : ofTerm catalog used term = .ok part) (before : List String) :
    ∃ again, ofTerm catalog before term = .ok again := by
  rw [ofTerm, attached] at compiled ⊢
  obtain ⟨found, contributed, -⟩ := bind_eq_ok.1 compiled
  obtain ⟨others, again⟩ : ∃ again, Member.contributions catalog term before term.fields =
      .ok again :=
    Member.exists_contributions_of_subset rfl rfl (List.Subset.refl _) contributed
  exact ⟨_, bind_eq_ok.2 ⟨others, again, rfl⟩⟩

end Part

/-! ### Joins of a query -/

def Query.frame (parts : List Part) : Query :=
  { joins := Join.merge (parts.flatMap Part.joins), conjuncts := parts.flatMap Part.conjuncts
    scores := [], orders := [], window := none, comment := "" }

namespace Part

variable {catalog : Catalog} {used : List String} {selector : Selector} {parts : List Part}

theorem isFramed_ofTerms (compiled : ofTerms catalog used selector = .ok parts) :
    ∀ part ∈ parts, part.IsFramed := by
  intro part isPart
  obtain ⟨before, term, -, gives⟩ := exists_term_of_mem compiled isPart
  exact isFramed_ofTerm gives

theorem isOfTree_frame (compiled : ofTerms catalog used selector = .ok parts) :
    ∀ join ∈ (Query.frame parts).joins, join.IsOfTree := by
  refine Join.isOfTree_merge fun join isJoin => ?_
  obtain ⟨part, isPart, among⟩ := List.mem_flatMap.1 isJoin
  exact (isFramed_ofTerms compiled part isPart).joins join among

theorem readsTree_frame (compiled : ofTerms catalog used selector = .ok parts) :
    ∀ conjunct ∈ (Query.frame parts).conjuncts, ReadsTree conjunct.filter := by
  intro conjunct isConjunct
  obtain ⟨part, isPart, among⟩ := List.mem_flatMap.1 isConjunct
  exact (isFramed_ofTerms compiled part isPart).conjuncts conjunct among

theorem exists_stands_of_mem (compiled : ofTerms catalog used selector = .ok parts)
    {entry : String × Member} (isEntry : entry ∈ parts.flatMap Part.members) :
    ∃ term ∈ selector, entry.1 = term.text ∧
      ∃ name ∈ term.fields, entry.2.StandsByName catalog term name := by
  obtain ⟨part, isPart, among⟩ := List.mem_flatMap.1 isEntry
  obtain ⟨before, term, isTerm, gives⟩ := exists_term_of_mem compiled isPart
  exact ⟨term, isTerm, (hasNames_ofTerm gives).stand entry among⟩

theorem exists_test_of_mem_scores (compiled : ofTerms catalog used selector = .ok parts)
    {score : Score} (isScore : score ∈ parts.flatMap Part.scores) :
    ∃ entry ∈ parts.flatMap Part.members,
      ∃ test ∈ entry.2.condition.tests, score.subject ∈ test.columns := by
  obtain ⟨part, isPart, among⟩ := List.mem_flatMap.1 isScore
  obtain ⟨before, term, -, gives⟩ := exists_term_of_mem compiled isPart
  obtain ⟨entry, isEntry, test⟩ := (hasNames_ofTerm gives).scored score among
  exact ⟨entry, List.mem_flatMap.2 ⟨part, isPart, isEntry⟩, test⟩

/-- No two members stand under one alias, whatever the case of letters. -/
theorem nodup_foldName_aliases (compiled : ofTerms catalog [] selector = .ok parts)
    (apart : catalog.schema.HasApartTables) :
    ((parts.flatMap Part.members).map fun entry => foldName entry.2.aliasName).Nodup := by
  have numbered := areNumbered_of_ofTerms compiled
  have nodup : ((nextAliases [] (parts.flatMap Part.used)).map foldName).Nodup :=
    nodup_nextAliases fun table isTable other isOther =>
      apart table (numbered.tables table isTable) other (numbered.tables other isOther)
  have among := (((sublist_places parts).trans numbered.places).map Prod.snd).map foldName
  rw [map_snd_numbered, List.map_map, List.map_map] at among
  exact nodup.sublist among

theorem head?_groups (compiled : ofTerms catalog used selector = .ok parts)
    (default : catalog.schema.HasDefaultTables) {join : Join}
    (isJoin : join ∈ (MemberGroup.ofRuns (parts.flatMap Part.members)).flatMap MemberGroup.joins) :
    join.aliasName.toList.head? = some 'f' := by
  have isAlias := List.mem_map_of_mem (f := Join.aliasName) isJoin
  rw [MemberGroup.map_aliasName_ofRuns] at isAlias
  obtain ⟨entry, isEntry, same⟩ := List.mem_map.1 isAlias
  exact same ▸ Member.isFieldLike_of_isPlaced default
    ((areNumbered_of_ofTerms compiled).members entry isEntry)

end Part

namespace Selector

variable {catalog : Catalog} {selector : Selector} {parts : List Part}

theorem head?_sortKeys {join : Join}
    (isJoin : join ∈ (selector.sortKeys catalog.schema).flatMap Prod.snd) :
    join.aliasName.toList.head? = some '_' := by
  obtain ⟨value, -, source, -, rfl⟩ := mem_sortKeys_joins isJoin
  rw [SortSource.aliasName_join, SortSource.head?_aliasName]

/-- In default tables the joins of terms on the page tree, of sort keys and of members do not
meet. -/
theorem joins_assemble (compiled : Part.ofTerms catalog [] selector = .ok parts)
    (apart : catalog.schema.HasApartTables) (default : catalog.schema.HasDefaultTables) :
    (selector.assemble catalog parts).joins =
      (Query.frame parts).joins ++ Join.merge ((selector.sortKeys catalog.schema).flatMap Prod.snd)
        ++ (MemberGroup.ofRuns (parts.flatMap Part.members)).flatMap MemberGroup.joins := by
  let keyed := (selector.sortKeys catalog.schema).flatMap Prod.snd
  let grouped := (MemberGroup.ofRuns (parts.flatMap Part.members)).flatMap MemberGroup.joins
  have aliases : grouped.map Join.aliasName =
      (parts.flatMap Part.members).map fun entry => entry.2.aliasName :=
    MemberGroup.map_aliasName_ofRuns _
  have begins {join : Join} (isJoin : join ∈ parts.flatMap Part.joins) :
      join.aliasName.toList.head? = some 'p' ∨ join.aliasName.toList.head? = some 'r' := by
    obtain ⟨part, isPart, among⟩ := List.mem_flatMap.1 isJoin
    exact ((Part.isFramed_ofTerms compiled part isPart).joins join among).isAlias.head?_eq
  have grouping {join : Join} (isJoin : join ∈ grouped) : join.aliasName.toList.head? = some 'f' :=
    Part.head?_groups compiled default isJoin
  have unmerged : Join.merge grouped = grouped := by
    refine Join.merge_eq_self ?_
    have nodup := Part.nodup_foldName_aliases compiled apart
    rw [aliases]
    exact List.Nodup.of_map foldName (by rwa [List.map_map])
  have first : Join.merge (parts.flatMap Part.joins ++ keyed) =
      Join.merge (parts.flatMap Part.joins) ++ Join.merge keyed := by
    refine Join.merge_append fun join isJoin other isOther same => ?_
    have head := begins isJoin
    rw [← same, head?_sortKeys isOther] at head
    exact absurd head (by decide)
  have second : Join.merge (parts.flatMap Part.joins ++ keyed ++ grouped) =
      Join.merge (parts.flatMap Part.joins ++ keyed) ++ Join.merge grouped := by
    refine Join.merge_append fun join isJoin other isOther same => ?_
    have head := grouping isOther
    rw [same] at head
    rcases List.mem_append.1 isJoin with ofPart | ofKey
    · have other := begins ofPart
      rw [head] at other
      exact absurd other (by decide)
    · rw [head?_sortKeys ofKey] at head
      exact absurd head (by decide)
  rw [assemble]
  dsimp only
  rw [second, first, unmerged]
  rfl

end Selector

end PageTree
