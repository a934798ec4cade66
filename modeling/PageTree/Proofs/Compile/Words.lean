import PageTree.Proofs.Compile.Shape

/-!
Names of joined tables. Where the fields of a schema are kept in tables that are named by words, and
named by characters of words themselves, every table that a compiled query joins is named by a word,
whatever the terms of the selector are. The statement of such a query says what the query says.
-/

namespace PageTree

open Sql Text

/-! ### Words -/

theorem isWord_append {name rest : String} (word : isWord name = true)
    (chars : ∀ c ∈ rest.toList, isNameChar c = true) : isWord (name ++ rest) = true := by
  unfold isWord at word ⊢
  rw [String.toList_append]
  split at word
  · cases word
  · next c cs spelled =>
    rw [Bool.and_eq_true] at word
    rw [spelled, List.cons_append, Bool.and_eq_true, List.all_append, Bool.and_eq_true]
    exact ⟨word.1, word.2, List.all_eq_true.2 chars⟩

theorem isNameChar_of_isWord {name : String} (word : isWord name = true) :
    ∀ c ∈ name.toList, isNameChar c = true := by
  unfold isWord at word
  split at word
  · cases word
  · next first rest spelled =>
    rw [Bool.and_eq_true] at word
    rw [spelled, List.forall_mem_cons, isNameChar, word.1]
    exact ⟨rfl, List.all_eq_true.1 word.2⟩

theorem isNameChar_of_isDigit {c : Char} (digit : c.isDigit = true) : isNameChar c = true := by
  rw [isNameChar, digit, Bool.or_true, Bool.true_or]

theorem isNameChar_of_letter {c : Char} (letter : (c.isAlphanum || c = '_') = true) :
    isNameChar c = true := by
  simp only [Char.isAlphanum, Bool.or_eq_true, decide_eq_true_eq] at letter
  simp only [isNameChar, isNameStart, Bool.or_eq_true, decide_eq_true_eq]
  tauto

theorem isWord_of_isBareName {name : String} (bare : isBareName name = true) :
    isWord name = true := by
  rw [isBareName, Bool.and_eq_true] at bare
  exact bare.1

theorem isWord_nextAlias {used : List String} {table : String} (word : isWord table = true) :
    isWord (nextAlias used table) = true := by
  unfold nextAlias
  split
  · exact word
  · next n uses =>
    rw [Nat.toString_eq_ofList_toDigits]
    refine isWord_append word fun c member => isNameChar_of_isDigit ?_
    rw [String.toList_ofList] at member
    exact Text.isDigit_of_mem_toDigits c member

/-! ### Schemas -/

namespace Schema

/-- Are the names of all fields made of characters of words? -/
def HasWordNames (schema : Schema) : Prop :=
  ∀ field ∈ schema.fields, ∀ c ∈ field.name.toList, isNameChar c = true

instance (schema : Schema) : Decidable schema.HasWordNames :=
  decidable_of_iff (schema.fields.all (fun field => field.name.toList.all isNameChar) = true)
    (by simp only [HasWordNames, List.all_eq_true])

theorem Valid.hasWordNames {schema : Schema} (valid : schema.Valid) : schema.HasWordNames := by
  intro field isField c member
  obtain ⟨⟨name, declaration⟩, declared, rfl⟩ := List.mem_map.1 isField
  exact isNameChar_of_letter (isAlphanum_or_of_isFieldName (valid.isFieldName declared) c member)

/-- Are the tables of all fields named by words? -/
def HasWordTables (schema : Schema) : Prop :=
  ∀ field ∈ schema.fields, isWord field.table = true

end Schema

/-! ### Aliases that stand anywhere -/

/-- The alias is read as a name wherever it stands, and is not that of the page table. -/
structure IsFreeAlias (aliasName : String) : Prop where
  isQualifier : isQualifier aliasName = true
  not_beginsQuery : beginsQuery aliasName = false
  ne_pages : foldName aliasName ≠ foldName "pages"

/-- A word is a free alias when it begins like none of the words that mean something else. -/
theorem isFreeAlias_of_prefix {front aliasName : String} (word : isWord aliasName = true)
    (named : front.toList <+: (foldName aliasName).toList)
    (other : (foldName "pages" :: queryWord :: (reservedWords ++ valueWords)).all
      (fun word => !front.toList.isPrefixOf word.toList) = true) : IsFreeAlias aliasName := by
  have notMem := Schema.foldName_notMem other named
  rw [List.mem_cons, List.mem_cons, not_or, not_or] at notMem
  obtain ⟨pages, query, words⟩ := notMem
  exact ⟨Schema.isQualifier_of_notMem word words, decide_eq_false query, pages⟩

/-- The aliases of field tables are words that begin like the tables. -/
structure IsFieldAlias (aliasName : String) : Prop where
  word : isWord aliasName = true
  begins : "field_".toList <+: (foldName aliasName).toList

theorem IsFieldAlias.isFree {aliasName : String} (isAlias : IsFieldAlias aliasName) :
    IsFreeAlias aliasName :=
  isFreeAlias_of_prefix isAlias.word isAlias.begins (by decide)

theorem isFieldAlias_nextAlias {used : List String} {table : String}
    (isTable : isTableName table = true) (named : "field_".toList <+: (foldName table).toList) :
    IsFieldAlias (nextAlias used table) := by
  rw [isTableName, Bool.and_eq_true] at isTable
  refine ⟨isWord_nextAlias (isWord_of_isBareName isTable.1), ?_⟩
  rw [toList_foldName_nextAlias]
  exact named.trans (List.prefix_append ..)

/-! ### Members -/

theorem Member.isWord_contribution {catalog : Catalog} (tables : catalog.schema.HasWordTables)
    {used : List String} {term : Term} {name : String} {found : Contribution}
    (compiled : contribution catalog used term name = .ok found) :
    ∀ member ∈ found.member, isWord member.aliasName = true := by
  simp only [contribution] at compiled
  split at compiled
  · cases compiled
  next field isField =>
  obtain ⟨kind, -, compiled⟩ := bind_eq_ok.1 compiled
  obtain ⟨branches, -, equality⟩ := bind_eq_ok.1 compiled
  cases equality
  intro member given
  dsimp only at given
  split at given
  · cases given
  · cases given
    exact isWord_nextAlias (tables field (Schema.mem_fields_of_field? isField))

theorem Member.isWord_contributions {catalog : Catalog} (tables : catalog.schema.HasWordTables)
    {term : Term} {names used : List String} {found : List Contribution}
    (compiled : contributions catalog term used names = .ok found) :
    ∀ contribution ∈ found, ∀ member ∈ contribution.member, isWord member.aliasName = true := by
  induction names generalizing used found with
  | nil =>
      cases compiled
      simp
  | cons name names induction =>
      rw [contributions] at compiled
      obtain ⟨first, isFirst, compiled⟩ := bind_eq_ok.1 compiled
      obtain ⟨rest, areRest, equality⟩ := bind_eq_ok.1 compiled
      cases equality
      rw [List.forall_mem_cons]
      exact ⟨isWord_contribution tables isFirst, induction areRest⟩

/-! ### Sort keys -/

namespace SortValue

theorem isNameChar_of_mem_suffix {text : String} {value : SortValue}
    (found : read? text = some value) : ∀ c ∈ value.suffix.toList, isNameChar c = true := by
  unfold suffix
  cases column : value.column with
  | none => simp
  | some name =>
      have letters := isAlphanum_or_of_isPlainName (isPlainName_of_read? found column)
      intro c member
      rw [String.toList_append, List.mem_append] at member
      rcases member with underscore | among
      · exact List.all_eq_true.1 (by decide : "_".toList.all isNameChar = true) c underscore
      · exact isNameChar_of_letter (letters c among)

theorem isWord_fieldKey {text : String} {value : SortValue} (found : read? text = some value)
    {field : Field} (named : ∀ c ∈ field.name.toList, isNameChar c = true) :
    ∀ join ∈ (value.fieldKey field).2, isWord join.aliasName = true := by
  have started {start : String} (word : isWord start = true) :
      isWord (start ++ field.name ++ value.suffix) = true :=
    isWord_append (isWord_append word named) (isNameChar_of_mem_suffix found)
  intro join member
  unfold fieldKey at member
  split at member
  · rcases List.mem_pair.1 member with rfl | rfl
    · exact started (by decide)
    · exact started (by decide)
  · rw [List.mem_singleton.1 member]
    exact started (by decide)

theorem isWord_key? {schema : Schema} (names : schema.HasWordNames) {text : String}
    {value : SortValue} (found : read? text = some value) {key : OrderExpression × List Join}
    (keyed : value.key? schema = some key) : ∀ join ∈ key.2, isWord join.aliasName = true := by
  unfold key? at keyed
  split at keyed
  · cases keyed
    simp
  split at keyed
  · cases keyed
    intro join member
    rw [List.mem_singleton.1 member]
    exact isWord_append (by decide : isWord "_sort_parent" = true)
      (isNameChar_of_mem_suffix found)
  split at keyed
  · cases keyed
    simp
  · obtain ⟨field, isField, rfl⟩ := Option.map_eq_some_iff.1 keyed
    exact isWord_fieldKey found (names field (Schema.mem_fields_of_field? isField))

end SortValue

theorem Selector.isWord_sortKeys {schema : Schema} (names : schema.HasWordNames)
    (selector : Selector) :
    ∀ key ∈ selector.sortKeys schema, ∀ join ∈ key.2, isWord join.aliasName = true := by
  intro key member
  obtain ⟨text, -, keyed⟩ := List.mem_filterMap.1 member
  obtain ⟨value, found, keyed⟩ := Option.bind_eq_some_iff.1 keyed
  obtain ⟨parts, isKey, rfl⟩ := Option.map_eq_some_iff.1 keyed
  exact SortValue.isWord_key? names found isKey

/-! ### Compiled queries -/

structure Part.HasWords (part : Part) : Prop where
  joins : ∀ join ∈ part.joins, isWord join.aliasName = true
  members : ∀ entry ∈ part.members, isWord entry.2.aliasName = true

theorem Part.hasWords_nothing : Part.nothing.HasWords := by
  constructor <;> simp [Part.nothing]

theorem Part.hasWords_ofTerm {catalog : Catalog} (tables : catalog.schema.HasWordTables)
    {used : List String} {term : Term} {part : Part}
    (compiled : Part.ofTerm catalog used term = .ok part) : part.HasWords := by
  unfold Part.ofTerm at compiled
  split at compiled
  · cases compiled
    exact hasWords_nothing
  · cases compiled
    exact hasWords_nothing
  · cases compiled
    refine { hasWords_nothing with joins := fun join member => ?_ }
    exact isWord_of_isTableName (Path.isWellNamed_joins term.value join member).aliasName
  · obtain ⟨ids, -, equality⟩ := bind_eq_ok.1 compiled
    cases equality
    refine { hasWords_nothing with joins := fun join member => ?_ }
    rw [List.mem_singleton.1 member]
    exact isWord_nextAlias (by decide : isWord "pages_parents" = true)
  · obtain ⟨filter, -, equality⟩ := bind_eq_ok.1 compiled
    cases equality
    exact { hasWords_nothing with }
  · obtain ⟨contributions, contributed, equality⟩ := bind_eq_ok.1 compiled
    cases equality
    refine { hasWords_nothing with members := fun entry member => ?_ }
    obtain ⟨given, among, rfl⟩ := List.mem_map.1 member
    obtain ⟨contribution, isOne, gives⟩ := List.mem_filterMap.1 among
    exact Member.isWord_contributions tables contributed contribution isOne given gives

theorem Part.hasWords_ofTerms {catalog : Catalog} (tables : catalog.schema.HasWordTables)
    {selector : Selector} {used : List String} {parts : List Part}
    (compiled : Part.ofTerms catalog used selector = .ok parts) :
    ∀ part ∈ parts, part.HasWords := by
  intro part isPart
  obtain ⟨before, term, -, gives⟩ := exists_term_of_mem compiled isPart
  exact hasWords_ofTerm tables gives

namespace Join

theorem mem_map_aliasName_addTo_iff {join : Join} {joins : List Join} {aliasName : String} :
    aliasName ∈ (join.addTo joins).map Join.aliasName ↔
      aliasName = join.aliasName ∨ aliasName ∈ joins.map Join.aliasName := by
  induction joins with
  | nil => simp [addTo]
  | cons other rest induction =>
      rw [addTo]
      split
      · next same =>
        have kept : (if other.on.same join.on = true then other :: rest
            else { other with on := .conj [other.on, join.on] } :: rest).map Join.aliasName =
              (other :: rest).map Join.aliasName := by
          split <;> rfl
        rw [kept, List.map_cons, List.mem_cons, same]
        exact ⟨.inr, fun named => named.elim .inl id⟩
      · rw [List.map_cons, List.mem_cons, induction, List.map_cons, List.mem_cons]
        exact or_left_comm

/-- Merging brings no new names and drops none. -/
theorem mem_map_aliasName_merge_iff {joins : List Join} {aliasName : String} :
    aliasName ∈ (merge joins).map Join.aliasName ↔ aliasName ∈ joins.map Join.aliasName := by
  have folded (merged : List Join) :
      aliasName ∈ (joins.foldl (fun merged join => join.addTo merged) merged).map Join.aliasName ↔
        aliasName ∈ joins.map Join.aliasName ∨ aliasName ∈ merged.map Join.aliasName := by
    induction joins generalizing merged with
    | nil => simp
    | cons join rest induction =>
        rw [List.foldl_cons, induction, mem_map_aliasName_addTo_iff, List.map_cons, List.mem_cons,
          or_assoc, or_left_comm]
  rw [merge, folded]
  simp

theorem map_aliasName_merge_subset (joins : List Join) :
    (merge joins).map Join.aliasName ⊆ joins.map Join.aliasName :=
  fun _ => mem_map_aliasName_merge_iff.1

end Join

/-- All tables that a compiled query joins are named by words. -/
theorem Selector.isWord_compile {catalog : Catalog} (tables : catalog.schema.HasWordTables)
    (names : catalog.schema.HasWordNames) {selector : Selector} {query : Query}
    (compiled : selector.compile catalog = .ok query) :
    ∀ join ∈ query.joins, isWord join.aliasName = true := by
  obtain ⟨parts, isParts, rfl⟩ := map_eq_ok.1 compiled
  have worded := Part.hasWords_ofTerms tables isParts
  intro join isJoin
  have among := Join.map_aliasName_merge_subset _ (List.mem_map_of_mem isJoin)
  rw [List.map_append, List.map_append, List.mem_append, List.mem_append] at among
  rcases among with (ofPart | ofKey) | ofGroup
  · obtain ⟨other, isOther, same⟩ := List.mem_map.1 ofPart
    obtain ⟨part, isPart, gives⟩ := List.mem_flatMap.1 isOther
    exact same ▸ (worded part isPart).joins other gives
  · obtain ⟨other, isOther, same⟩ := List.mem_map.1 ofKey
    obtain ⟨key, isKey, gives⟩ := List.mem_flatMap.1 isOther
    exact same ▸ selector.isWord_sortKeys names key isKey other gives
  · rw [MemberGroup.map_aliasName_ofRuns] at ofGroup
    obtain ⟨entry, isEntry, same⟩ := List.mem_map.1 ofGroup
    obtain ⟨part, isPart, gives⟩ := List.mem_flatMap.1 isEntry
    exact same ▸ (worded part isPart).members entry gives

end PageTree
