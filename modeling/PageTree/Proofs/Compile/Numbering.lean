import PageTree.Proofs.Compile.Shape

/-!
The aliases that one compilation hands out: one for each name of an attached field and one for each
term on ancestors. Main statement: where no table is another one with digits after it, they all
differ; every condition on an attached field stands under its own for the table of its field, and in
default tables no other condition is merged into its join.
-/

namespace PageTree

open Sql

/-! ### Uses of tables -/

theorem length_nextAliases (used tables : List String) :
    (nextAliases used tables).length = tables.length := by
  induction tables generalizing used with
  | nil => rfl
  | cons table tables induction => rw [nextAliases, List.length_cons, induction, List.length_cons]

/-- Tables with the aliases for their uses, after the uses of the tables in `used`. -/
def numbered (used tables : List String) : List (String × String) :=
  tables.zip (nextAliases used tables)

theorem numbered_cons (used : List String) (table : String) (tables : List String) :
    numbered used (table :: tables) =
      (table, nextAlias used table) :: numbered (used ++ [table]) tables :=
  rfl

theorem numbered_append (used tables others : List String) :
    numbered used (tables ++ others) =
      numbered used tables ++ numbered (used ++ tables) others := by
  rw [numbered, nextAliases_append, List.zip_append (length_nextAliases used tables).symm]
  rfl

theorem map_snd_numbered (used tables : List String) :
    (numbered used tables).map Prod.snd = nextAliases used tables :=
  List.map_snd_zip (length_nextAliases used tables).le

namespace Schema

/-- The tables that may be joined more than once. -/
def joinedTables (schema : Schema) : List String :=
  "pages_parents" :: schema.fields.map Field.table

/-- Is no such table another one with digits after it, whatever the case of letters? -/
def HasApartTables (schema : Schema) : Prop :=
  ∀ table ∈ schema.joinedTables, ∀ other ∈ schema.joinedTables,
    table ≠ other → AreApart table other

instance (schema : Schema) : Decidable schema.HasApartTables :=
  inferInstanceAs (Decidable (∀ table ∈ schema.joinedTables, _))

theorem head?_eq_of_continuesByDigits {name other : String} (named : (foldName other).toList ≠ [])
    (continues : continuesByDigits name other = true) :
    (foldName name).toList.head? = (foldName other).toList.head? := by
  obtain ⟨digits, -, spelled⟩ := continuesByDigits_iff.1 continues
  rw [spelled, List.head?_append_of_ne_nil _ named]

theorem areApart_pagesParents (name : String) : AreApart "pages_parents" (defaultTable name) := by
  have first : (foldName "pages_parents").toList.head? = some 'p' := by decide
  have other : (foldName (defaultTable name)).toList.head? = some 'f' := by
    obtain ⟨rest, spelled⟩ := prefix_foldName_defaultTable name
    rw [← spelled, List.head?_append_of_ne_nil _ (by decide)]
    decide
  have named {text : String} {c : Char} (begins : (foldName text).toList.head? = some c) :
      (foldName text).toList ≠ [] := by
    intro empty
    rw [empty] at begins
    cases begins
  constructor
  · rw [Bool.eq_false_iff]
    intro continues
    have same := head?_eq_of_continuesByDigits (named other) continues
    rw [first, other] at same
    exact absurd same (by decide)
  · rw [Bool.eq_false_iff]
    intro continues
    have same := head?_eq_of_continuesByDigits (named first) continues
    rw [first, other] at same
    exact absurd same (by decide)

theorem hasApartTables {schema : Schema} (apart : schema.HasApartNames)
    (default : schema.HasDefaultTables) : schema.HasApartTables := by
  intro table isTable other isOther different
  rcases List.mem_cons.1 isTable with rfl | ofField
  · rcases List.mem_cons.1 isOther with rfl | ofOther
    · exact absurd rfl different
    · obtain ⟨field, isField, rfl⟩ := List.mem_map.1 ofOther
      rw [default field isField]
      exact areApart_pagesParents field.name
  · obtain ⟨field, isField, rfl⟩ := List.mem_map.1 ofField
    rcases List.mem_cons.1 isOther with rfl | ofOther
    · rw [default field isField]
      exact (areApart_pagesParents field.name).symm
    · obtain ⟨another, isAnother, rfl⟩ := List.mem_map.1 ofOther
      exact areApart_tables apart default isField isAnother different

end Schema

/-! ### Joins -/

namespace Join

variable {aliasName : String}

theorem filter_addTo (join : Join) (joins : List Join) :
    (join.addTo joins).filter (fun other => other.aliasName = aliasName) =
      if join.aliasName = aliasName then
        join.addTo (joins.filter fun other => other.aliasName = aliasName)
      else joins.filter fun other => other.aliasName = aliasName := by
  induction joins with
  | nil => by_cases here : join.aliasName = aliasName <;> simp [addTo, here]
  | cons other rest induction =>
      rw [addTo]
      by_cases same : other.aliasName = join.aliasName
      · rw [if_pos same]
        by_cases here : join.aliasName = aliasName
        · split <;> simp [addTo, *]
        · split <;> simp [same, here]
      · rw [if_neg same]
        by_cases there : other.aliasName = aliasName
        · have elsewhere : ¬ join.aliasName = aliasName := fun here => same (there.trans here.symm)
          simp [there, induction, elsewhere]
        · simp [there, induction]

theorem filter_foldl_addTo (joins merged : List Join) :
    (joins.foldl (fun merged join => join.addTo merged) merged).filter
        (fun other => other.aliasName = aliasName) =
      (joins.filter fun other => other.aliasName = aliasName).foldl
        (fun merged join => join.addTo merged)
        (merged.filter fun other => other.aliasName = aliasName) := by
  induction joins generalizing merged with
  | nil => rfl
  | cons join rest induction =>
      rw [List.foldl_cons, induction, filter_addTo]
      by_cases here : join.aliasName = aliasName
      · rw [if_pos here, List.filter_cons, if_pos (decide_eq_true here), List.foldl_cons]
      · rw [if_neg here, List.filter_cons, if_neg (by simpa using here)]

/-- What is merged under an alias are the joins under that alias. -/
theorem filter_merge (joins : List Join) :
    (merge joins).filter (fun other => other.aliasName = aliasName) =
      merge (joins.filter fun other => other.aliasName = aliasName) :=
  filter_foldl_addTo joins []

end Join

theorem filter_eq_singleton_of_nodup {α β : Type} [DecidableEq β] {f : α → β} {items : List α}
    (nodup : (items.map f).Nodup) {item : α} (member : item ∈ items) :
    items.filter (fun other => f other = f item) = [item] := by
  induction items with
  | nil => simp at member
  | cons first rest induction =>
      rw [List.map_cons, List.nodup_cons] at nodup
      rcases List.mem_cons.1 member with rfl | later
      · have others : rest.filter (fun other => f other = f item) = [] := by
          rw [List.filter_eq_nil_iff]
          intro other isOther same
          exact nodup.1 (of_decide_eq_true same ▸ List.mem_map_of_mem isOther)
        rw [List.filter_cons_of_pos (by simp), others]
      · have differs : f first ≠ f item := fun same =>
          nodup.1 (same ▸ List.mem_map_of_mem later)
        rw [List.filter_cons_of_neg (by simpa using differs), induction nodup.2 later]

/-! ### First letters -/

/-- The first letter tells the aliases of attached fields from all others. -/
def IsFieldLike (aliasName : String) : Prop :=
  aliasName.toList.head? = some 'f'

theorem head?_append {front : String} {c : Char} (begins : front.toList.head? = some c)
    (rest : String) : (front ++ rest).toList.head? = some c := by
  rw [String.toList_append, List.head?_append, begins]
  rfl

theorem head?_nextAlias {used : List String} {table : String} {c : Char}
    (begins : table.toList.head? = some c) : (nextAlias used table).toList.head? = some c := by
  unfold nextAlias
  split
  · exact begins
  · exact head?_append begins _

theorem not_isFieldLike {aliasName : String} {c : Char}
    (begins : aliasName.toList.head? = some c) (other : c ≠ 'f') : ¬ IsFieldLike aliasName := by
  intro like
  exact other (Option.some.inj (begins.symm.trans like))

/-- Aliases of pages above another one begin with the word for a parent or for the root. -/
theorem Path.head?_joinsAbove {segments : List String} {below : String} {join : Join}
    (member : join ∈ joinsAbove below segments) :
    join.aliasName.toList.head? = some 'p' ∨ join.aliasName.toList.head? = some 'r' := by
  induction segments generalizing below with
  | nil => simp [joinsAbove] at member
  | cons segment segments induction =>
      rw [joinsAbove] at member
      split at member <;> rcases List.mem_cons.1 member with rfl | above
      · exact .inr (by decide : "rootparent".toList.head? = some 'r')
      · exact induction above
      · exact .inl (head?_append (by decide : "parent".toList.head? = some 'p') _)
      · exact induction above

theorem Path.head?_joins {path : String} {join : Join} (member : join ∈ joins path) :
    join.aliasName.toList.head? = some 'p' ∨ join.aliasName.toList.head? = some 'r' := by
  unfold joins at member
  split at member
  · simp at member
  · exact head?_joinsAbove member

theorem Path.not_isFieldLike_joins {path : String} {join : Join} (member : join ∈ joins path) :
    ¬ IsFieldLike join.aliasName := by
  rcases head?_joins member with begins | begins
  · exact not_isFieldLike begins (by decide)
  · exact not_isFieldLike begins (by decide)

/-! ### Terms -/

/-- How many aliases a term asks for. -/
def Term.uses (term : Term) : Nat :=
  match term.kind with
  | .attached => term.fields.length
  | .ancestors => 1
  | _ => 0

namespace Member

/-- The table of a member, with the alias that it is joined under. -/
def place (member : Member) : String × String :=
  (member.table, member.aliasName)

variable {catalog : Catalog} {used : List String} {term : Term}

/-- The member is joined to the table of a field, under an alias for one of its uses. -/
def IsPlaced (schema : Schema) (member : Member) : Prop :=
  ∃ table ∈ schema.fields.map Field.table, ∃ before,
    member.place = (table, nextAlias before table)

theorem place_of_contribution {name : String} {found : Contribution}
    (compiled : contribution catalog used term name = .ok found) :
    found.table ∈ catalog.schema.fields.map Field.table ∧
      ∀ member ∈ found.member, member.place = (found.table, nextAlias used found.table) := by
  simp only [contribution] at compiled
  split at compiled
  · cases compiled
  next field isField =>
  obtain ⟨kind, -, compiled⟩ := bind_eq_ok.1 compiled
  obtain ⟨branches, -, equality⟩ := bind_eq_ok.1 compiled
  cases equality
  refine ⟨List.mem_map_of_mem (Schema.mem_fields_of_field? isField), fun member given => ?_⟩
  dsimp only at given
  split at given
  · cases given
  · cases given
    rfl

/-- A name without tests takes an alias and makes no use of it. -/
theorem numbers_of_contributions {names : List String} {found : List Contribution}
    (compiled : contributions catalog term used names = .ok found) :
    found.length = names.length ∧
      (∀ contribution ∈ found, contribution.table ∈ catalog.schema.fields.map Field.table) ∧
      (∀ member ∈ found.filterMap Contribution.member, member.IsPlaced catalog.schema) ∧
      ((found.filterMap Contribution.member).map place).Sublist
        (numbered used (found.map Contribution.table)) := by
  -- The aliases in use grow from name to name, so the statement is about all of them.
  induction names generalizing used found with
  | nil =>
      cases compiled
      exact ⟨rfl, by simp, by simp, .slnil⟩
  | cons name names induction =>
      rw [contributions] at compiled
      obtain ⟨first, isFirst, compiled⟩ := bind_eq_ok.1 compiled
      obtain ⟨rest, areRest, equality⟩ := bind_eq_ok.1 compiled
      cases equality
      obtain ⟨isTable, place⟩ := place_of_contribution isFirst
      obtain ⟨length, tables, placed, places⟩ := induction areRest
      refine ⟨congrArg Nat.succ length, List.forall_mem_cons.2 ⟨isTable, tables⟩, ?_⟩
      rw [List.map_cons, numbered_cons, List.filterMap_cons]
      split
      · exact ⟨placed, places.cons _⟩
      · next member given =>
        have here := place member given
        rw [List.map_cons, here, List.forall_mem_cons]
        exact ⟨⟨⟨_, isTable, used, here⟩, placed⟩, places.cons_cons _⟩

end Member

/-! ### Parts -/

theorem Path.table_of_mem_joinsAbove {segments : List String} {below : String} {join : Join}
    (member : join ∈ joinsAbove below segments) : join.table = "pages" := by
  induction segments generalizing below with
  | nil => simp [joinsAbove] at member
  | cons segment segments induction =>
      rw [joinsAbove] at member
      split at member <;> rcases List.mem_cons.1 member with rfl | above
      · rfl
      · exact induction above
      · rfl
      · exact induction above

theorem Path.table_of_mem_joins {path : String} {join : Join} (member : join ∈ joins path) :
    join.table = "pages" := by
  unfold joins at member
  split at member
  · simp at member
  · exact table_of_mem_joinsAbove member

namespace Part

/-- The joins of a part that stand under a new alias, with their tables. -/
def places (part : Part) : List (String × String) :=
  (part.joins.filter fun join => join.table = "pages_parents").map
      (fun join => (join.table, join.aliasName))
    ++ part.members.map fun entry => entry.2.place

structure Numbers (catalog : Catalog) (used : List String) (term : Term) (part : Part) : Prop where
  length : part.used.length = term.uses
  tables : ∀ table ∈ part.used, table ∈ catalog.schema.joinedTables
  places : part.places.Sublist (numbered used part.used)
  joins : ∀ join ∈ part.joins, ¬ IsFieldLike join.aliasName
  members : ∀ entry ∈ part.members, entry.2.IsPlaced catalog.schema

variable {catalog : Catalog} {used : List String}

theorem numbers_of_unused {term : Term} {part : Part} (unused : part.used = [])
    (none : term.uses = 0)
    (joins : ∀ join ∈ part.joins, join.table = "pages" ∧ ¬ IsFieldLike join.aliasName)
    (members : part.members = []) : Numbers catalog used term part where
  length := by rw [unused, none]; rfl
  tables := by simp [unused]
  places := by
    have other : part.joins.filter (fun join => join.table = "pages_parents") = [] := by
      rw [List.filter_eq_nil_iff]
      intro join member same
      rw [(joins join member).1] at same
      exact absurd same (by decide)
    rw [Part.places, other, members]
    exact List.nil_sublist _
  joins := fun join member => (joins join member).2
  members := by simp [members]

theorem numbers_of_ofTerm {term : Term} {part : Part}
    (compiled : ofTerm catalog used term = .ok part) : Numbers catalog used term part := by
  unfold ofTerm at compiled
  split at compiled
  · next kind =>
    cases compiled
    exact numbers_of_unused rfl (by rw [Term.uses, kind]) (by simp [nothing]) rfl
  · next kind =>
    cases compiled
    exact numbers_of_unused rfl (by rw [Term.uses, kind]) (by simp [nothing]) rfl
  · next kind =>
    cases compiled
    exact numbers_of_unused rfl (by rw [Term.uses, kind])
      (fun _ member => ⟨Path.table_of_mem_joins member, Path.not_isFieldLike_joins member⟩) rfl
  · next kind =>
    obtain ⟨ids, -, equality⟩ := bind_eq_ok.1 compiled
    cases equality
    refine ⟨by rw [Term.uses, kind]; rfl, by simp [Schema.joinedTables], List.Sublist.refl _, ?_,
      by simp [nothing]⟩
    intro join member
    rw [List.mem_singleton.1 member]
    exact not_isFieldLike
      (head?_nextAlias (by decide : "pages_parents".toList.head? = some 'p')) (by decide)
  · next kind =>
    obtain ⟨filter, -, equality⟩ := bind_eq_ok.1 compiled
    cases equality
    exact numbers_of_unused rfl (by rw [Term.uses, kind]) (by simp [nothing]) rfl
  · next kind =>
    obtain ⟨contributions, contributed, equality⟩ := bind_eq_ok.1 compiled
    cases equality
    obtain ⟨length, tables, placed, places⟩ := Member.numbers_of_contributions contributed
    refine ⟨?_, ?_, ?_, by simp [ofContributions, nothing], ?_⟩
    · rw [Term.uses, kind, ← length]
      exact List.length_map ..
    · intro table isTable
      obtain ⟨contribution, isOne, rfl⟩ := List.mem_map.1 isTable
      exact List.mem_cons_of_mem _ (tables contribution isOne)
    · rw [Part.places, ofContributions, List.map_map]
      exact places
    · exact List.forall_mem_map.2 placed

theorem sublist_places (parts : List Part) :
    ((parts.flatMap Part.members).map fun entry => entry.2.place).Sublist
      (parts.flatMap Part.places) := by
  induction parts with
  | nil => exact .slnil
  | cons part parts induction =>
      rw [List.flatMap_cons, List.map_append, List.flatMap_cons]
      exact (List.sublist_append_right ..).append induction

structure AreNumbered (catalog : Catalog) (used : List String) (selector : Selector)
    (parts : List Part) : Prop where
  lengths : parts.map (fun part => part.used.length) = selector.map Term.uses
  tables : ∀ table ∈ parts.flatMap Part.used, table ∈ catalog.schema.joinedTables
  places : (parts.flatMap places).Sublist (numbered used (parts.flatMap Part.used))
  joins : ∀ join ∈ parts.flatMap Part.joins, ¬ IsFieldLike join.aliasName
  members : ∀ entry ∈ parts.flatMap Part.members, entry.2.IsPlaced catalog.schema

theorem areNumbered_of_ofTerms {selector : Selector} {parts : List Part}
    (compiled : ofTerms catalog used selector = .ok parts) :
    AreNumbered catalog used selector parts := by
  induction selector generalizing used parts with
  | nil =>
      cases compiled
      exact ⟨rfl, by simp, .slnil, by simp, by simp⟩
  | cons term terms induction =>
      rw [ofTerms] at compiled
      obtain ⟨first, isFirst, compiled⟩ := bind_eq_ok.1 compiled
      obtain ⟨rest, areRest, equality⟩ := bind_eq_ok.1 compiled
      cases equality
      have numbers := numbers_of_ofTerm isFirst
      have areNumbered := induction areRest
      constructor
      · rw [List.map_cons, List.map_cons, numbers.length, areNumbered.lengths]
      · rw [List.flatMap_cons, List.forall_mem_append]
        exact ⟨numbers.tables, areNumbered.tables⟩
      · rw [List.flatMap_cons, List.flatMap_cons, numbered_append]
        exact numbers.places.append areNumbered.places
      · rw [List.flatMap_cons, List.forall_mem_append]
        exact ⟨numbers.joins, areNumbered.joins⟩
      · rw [List.flatMap_cons, List.forall_mem_append]
        exact ⟨numbers.members, areNumbered.members⟩

end Part

/-- Aliases of the joins of terms on paths and ancestors begin with one of two letters. -/
theorem Part.head?_joins {catalog : Catalog} {used : List String} {term : Term} {part : Part}
    (compiled : ofTerm catalog used term = .ok part) {join : Join} (isJoin : join ∈ part.joins) :
    join.aliasName.toList.head? = some 'p' ∨ join.aliasName.toList.head? = some 'r' := by
  unfold ofTerm at compiled
  split at compiled
  · cases compiled
    cases isJoin
  · cases compiled
    cases isJoin
  · cases compiled
    exact Path.head?_joins isJoin
  · obtain ⟨ids, -, equality⟩ := bind_eq_ok.1 compiled
    cases equality
    rw [List.mem_singleton.1 isJoin]
    exact .inl (head?_nextAlias (by decide : "pages_parents".toList.head? = some 'p'))
  · obtain ⟨filter, -, equality⟩ := bind_eq_ok.1 compiled
    cases equality
    cases isJoin
  · obtain ⟨contributions, -, equality⟩ := bind_eq_ok.1 compiled
    cases equality
    cases isJoin

theorem SortValue.not_isFieldLike_key? {schema : Schema} {value : SortValue}
    {key : OrderExpression × List Join} (keyed : value.key? schema = some key) :
    ∀ join ∈ key.2, ¬ IsFieldLike join.aliasName := by
  have other {front : String} (begins : front.toList.head? = some '_') (rest : String) :
      ¬ IsFieldLike (front ++ rest) :=
    not_isFieldLike (head?_append begins rest) (by decide)
  unfold key? at keyed
  split at keyed
  · cases keyed
    simp
  split at keyed
  · cases keyed
    intro join member
    rw [List.mem_singleton.1 member]
    exact other (by decide : "_sort_parent".toList.head? = some '_') _
  split at keyed
  · cases keyed
    simp
  · obtain ⟨field, isField, rfl⟩ := Option.map_eq_some_iff.1 keyed
    intro join member
    dsimp only [fieldKey] at member
    split at member
    · rcases List.mem_pair.1 member with rfl | rfl
      · exact other (head?_append (by decide : "_sort_".toList.head? = some '_') _) _
      · exact other (head?_append (by decide : "_sort_page_".toList.head? = some '_') _) _
    · rw [List.mem_singleton.1 member]
      exact other (head?_append (by decide : "_sort_".toList.head? = some '_') _) _

theorem Selector.not_isFieldLike_sortKeys {schema : Schema} (selector : Selector) :
    ∀ join ∈ (selector.sortKeys schema).flatMap Prod.snd, ¬ IsFieldLike join.aliasName := by
  intro join member
  obtain ⟨key, isKey, isJoin⟩ := List.mem_flatMap.1 member
  obtain ⟨text, -, keyed⟩ := List.mem_filterMap.1 isKey
  obtain ⟨value, -, keyed⟩ := Option.bind_eq_some_iff.1 keyed
  obtain ⟨parts, found, rfl⟩ := Option.map_eq_some_iff.1 keyed
  exact SortValue.not_isFieldLike_key? found join isJoin

theorem Member.isFieldLike_of_isPlaced {schema : Schema} (default : schema.HasDefaultTables)
    {member : Member} (placed : member.IsPlaced schema) : IsFieldLike member.aliasName := by
  obtain ⟨table, isTable, before, place⟩ := placed
  obtain ⟨field, isField, rfl⟩ := List.mem_map.1 isTable
  rw [default field isField] at place
  have aliasName : member.aliasName = nextAlias before (Schema.defaultTable field.name) :=
    congrArg Prod.snd place
  rw [aliasName]
  exact head?_nextAlias (head?_append (by decide : "field_".toList.head? = some 'f') _)

theorem MemberGroup.exists_join_of_mem {group : MemberGroup} {member : Member}
    (isMember : member ∈ group) :
    ∃ join ∈ group.joins, join.aliasName = member.aliasName ∧
      (join = member.innerJoin ∨ join = member.leftJoin) := by
  rw [joins]
  split
  · exact ⟨_, List.mem_map_of_mem isMember, rfl, .inl rfl⟩
  · exact ⟨_, List.mem_map_of_mem isMember, rfl, .inr rfl⟩

section

variable {catalog : Catalog} {selector : Selector} {parts : List Part}
  (numbered : Part.AreNumbered catalog [] selector parts)
  (default : catalog.schema.HasDefaultTables)
  (nodup : ((parts.flatMap Part.members).map fun entry => entry.2.aliasName).Nodup)

include numbered default nodup

/-- A join of a group of members is the only one under its alias. -/
theorem Selector.filter_joins_eq {group : MemberGroup}
    (isGroup : group ∈ MemberGroup.ofRuns (parts.flatMap Part.members)) {join : Join}
    (isJoin : join ∈ group.joins) :
    (selector.assemble catalog parts).joins.filter
      (fun other => other.aliasName = join.aliasName) = [join] := by
  let groups := MemberGroup.ofRuns (parts.flatMap Part.members)
  have among : join ∈ groups.flatMap MemberGroup.joins :=
    List.mem_flatMap.2 ⟨group, isGroup, isJoin⟩
  have aliases : (groups.flatMap MemberGroup.joins).map Join.aliasName =
      (parts.flatMap Part.members).map fun entry => entry.2.aliasName :=
    MemberGroup.map_aliasName_ofRuns _
  -- Joins of paths, ancestors and sort keys begin with other letters than the table of a field.
  have like : IsFieldLike join.aliasName := by
    obtain ⟨entry, isEntry, same⟩ := List.mem_map.1 (aliases ▸ List.mem_map_of_mem among)
    exact same ▸ Member.isFieldLike_of_isPlaced default (numbered.members entry isEntry)
  have elsewhere {joins : List Join} (unlike : ∀ join ∈ joins, ¬ IsFieldLike join.aliasName) :
      joins.filter (fun other => other.aliasName = join.aliasName) = [] := by
    rw [List.filter_eq_nil_iff]
    intro other isOther same
    exact unlike other isOther (of_decide_eq_true same ▸ like)
  rw [assemble, Join.filter_merge, List.filter_append, List.filter_append,
    elsewhere numbered.joins, elsewhere (selector.not_isFieldLike_sortKeys),
    filter_eq_singleton_of_nodup (aliases ▸ nodup) among]
  rfl

/-- Under an alias that no other member has there is the join of the member alone. -/
theorem Selector.exists_filter_joins_eq {entry : String × Member}
    (isEntry : entry ∈ parts.flatMap Part.members) :
    ∃ join, (selector.assemble catalog parts).joins.filter
        (fun other => other.aliasName = entry.2.aliasName) = [join] ∧
      (join = entry.2.innerJoin ∨ join = entry.2.leftJoin) := by
  have members : (MemberGroup.ofRuns (parts.flatMap Part.members)).flatten =
      (parts.flatMap Part.members).map Prod.snd := MemberGroup.flatten_ofRuns _
  obtain ⟨group, isGroup, isMember⟩ := List.mem_flatten.1 (members ▸ List.mem_map_of_mem isEntry)
  obtain ⟨join, isJoin, same, own⟩ := MemberGroup.exists_join_of_mem isMember
  exact ⟨join, same ▸ filter_joins_eq numbered default nodup isGroup isJoin, own⟩

end

/-- One compilation gives each name of an attached field and each term on ancestors an alias of its
own, and joins no table under the alias of another one. In default tables every condition is the
only one under its alias. -/
theorem Selector.nodup_numbered {catalog : Catalog} (apart : catalog.schema.HasApartTables)
    {selector : Selector} {parts : List Part}
    (compiled : Part.ofTerms catalog [] selector = .ok parts) :
    parts.map (fun part => part.used.length) = selector.map Term.uses ∧
      ((nextAliases [] (parts.flatMap Part.used)).map foldName).Nodup ∧
      (parts.flatMap Part.places).Sublist (numbered [] (parts.flatMap Part.used)) ∧
      (catalog.schema.HasDefaultTables → ∀ entry ∈ parts.flatMap Part.members,
        ∃ join, (selector.assemble catalog parts).joins.filter
            (fun other => other.aliasName = entry.2.aliasName) = [join] ∧
          (join = entry.2.innerJoin ∨ join = entry.2.leftJoin)) := by
  have areNumbered := Part.areNumbered_of_ofTerms compiled
  have nodup : ((nextAliases [] (parts.flatMap Part.used)).map foldName).Nodup :=
    nodup_nextAliases fun table isTable other isOther =>
      apart table (areNumbered.tables table isTable) other (areNumbered.tables other isOther)
  refine ⟨areNumbered.lengths, nodup, areNumbered.places, fun default entry isEntry => ?_⟩
  have among := ((Part.sublist_places parts).trans areNumbered.places).map Prod.snd
  rw [map_snd_numbered, List.map_map] at among
  exact exists_filter_joins_eq areNumbered default (among.nodup nodup.of_map) isEntry

/-- What compilation reads where there are text fields of these names and no pages. -/
def textCatalog (names : List String) : Catalog :=
  { schema := names.map fun name => (name, { kind := "text", table := none, label := none })
    templateId := fun _ => .ok none
    pageId := fun _ => .ok none
    pageNumber := none
    now := ⟨0, false⟩ }

theorem Selector.nodup_numbered_textCatalog :
    ∃ selector parts, Selector.read "a=x, b|a!=y, has_parent=1, b=''" = .ok selector ∧
      Part.ofTerms (textCatalog ["a", "b"]) [] selector = .ok parts ∧
      nextAliases [] (parts.flatMap Part.used) =
        ["field_a", "field_b", "field_a1", "pages_parents", "field_b1"] ∧
      ((nextAliases [] (parts.flatMap Part.used)).map foldName).Nodup := by
  obtain ⟨selector, parsed⟩ : ∃ selector,
      Selector.read "a=x, b|a!=y, has_parent=1, b=''" = .ok selector := ⟨_, rfl⟩
  obtain ⟨parts, compiled, aliases⟩ : ∃ parts,
      Part.ofTerms (textCatalog ["a", "b"]) [] selector = .ok parts ∧
      nextAliases [] (parts.flatMap Part.used) =
        ["field_a", "field_b", "field_a1", "pages_parents", "field_b1"] := by
    cases parsed
    exact ⟨_, rfl, by decide⟩
  have apart : (textCatalog ["a", "b"]).schema.HasApartTables :=
    Schema.hasApartTables (by decide) (by decide)
  exact ⟨selector, parts, parsed, compiled, aliases, (nodup_numbered apart compiled).2.1⟩

/-- The second use of one table is called like the first use of another. -/
example : nextAliases [] ["field_a", "field_a", "field_a1"] = ["field_a", "field_a1", "field_a1"] := by
  decide

end PageTree
