import PageTree.Proofs.Compile.Names
import PageTree.Proofs.Compile.SortSources

/-!
What the names of attached fields mean in a selector. A valid schema gives no field a name that has
another meaning at the front of a term. Main statement: a term with the name of a field reads the
table of that field, and so do sort values with the name, but for the name that asks for chance.
-/

namespace PageTree

open Sql Text

/-! ### Names -/

theorem Schema.Valid.isReserved_eq_false {schema : Schema} (valid : schema.Valid) {name : String}
    {field : Field} (found : schema.field? name = some field) : Schema.isReserved name = false := by
  obtain ⟨declaration, declared, -⟩ := Option.map_eq_some_iff.1 found
  have none := valid.faults_eq_nil (Dictionary.mem_of_find? declared)
  simp only [faults, List.append_eq_nil_iff] at none
  by_contra reserved
  simp [reserved] at none

theorem Term.kind_of_field {term : Term} (plain : Schema.isReserved term.field = false) :
    term.kind = .attached := by
  rw [Schema.isReserved, Bool.or_eq_false_iff] at plain
  unfold kind
  split
  case h_7 => rw [plain.1, if_neg Bool.false_ne_true]
  -- every name with a handler of its own is among the reserved ones
  all_goals
    next special =>
    rw [special] at plain
    exact absurd plain.2 (by decide)

/-! ### Sort values -/

/-- The text of a sort value on a name, with a minus sign for the reverse order. -/
def SortValue.textOf (name : String) (descending : Bool) : String :=
  if descending then "-" ++ name else name

theorem SortValue.read?_textOf {name : String}
    (letters : ∀ c ∈ name.toList, Schema.isNameRest c = true) (descending : Bool) :
    read? (textOf name descending) = some { name, column := none, descending } := by
  have unmarked : ∀ c ∈ name.toList, c ≠ '-' ∧ c ≠ '+' ∧ c ≠ '.' := by
    intro c member
    refine ⟨?_, ?_, ?_⟩ <;> (rintro rfl; exact absurd (letters _ member) (by decide))
  have first : name.toList.head? ≠ some '-' := fun isFirst =>
    (unmarked '-' (List.mem_of_mem_head? isFirst)).1 rfl
  have last : name.toList.getLast? ≠ some '-' := fun isLast =>
    (unmarked '-' (List.mem_of_mem_getLast? isLast)).1 rfl
  have trimmed : trimWhere (fun c => c = '-' || c = '+') name.toList = name.toList :=
    trimWhere_eq fun c member => by simp [unmarked c member]
  have whole : splitFirst? '.' name.toList = none :=
    splitFirst?_eq_none_iff.2 fun member => (unmarked '.' member).2.2 rfl
  cases descending with
  | false =>
      rw [textOf, if_neg Bool.false_ne_true]
      simp [read?, trimmed, whole, first, last]
  | true =>
      have spelled : (textOf name true).toList = '-' :: name.toList := by
        simp [textOf, String.toList_append]
      have marked : trimWhere (fun c => c = '-' || c = '+') ('-' :: name.toList) = name.toList := by
        rw [trimWhere, List.dropWhile_cons_of_pos (by decide)]
        exact trimmed
      simp [read?, spelled, marked, whole]

/-- What the order of a key on a source is, and what is joined for it. -/
def SortSource.order (source : SortSource) (descending : Bool) : Order :=
  { expression := .column ⟨source.aliasName "", source.mainColumn⟩, descending }

def SortSource.joins (source : SortSource) : List Join :=
  source.steps.map fun step => step.join ""

/-- The joins of a selector before those under one alias are merged. -/
def Selector.handedJoins (selector : Selector) (schema : Schema) (parts : List Part) : List Join :=
  parts.flatMap Part.joins ++ (selector.sortKeys schema).flatMap Prod.snd ++
    (MemberGroup.ofRuns (parts.flatMap Part.members)).flatMap MemberGroup.joins

/-- Sort values with the name of the field order by the values of the field, or by the pages that it
refers to. -/
structure Field.IsSorted (catalog : Catalog) (field : Field) : Prop where
  among : ∀ selector parts, Part.ofTerms catalog [] selector = .ok parts →
    ∀ term ∈ selector, term.field = "sort" →
      ∀ descending, SortValue.textOf field.name descending ∈ term.values →
        (SortSource.ofField field).order descending ∈ (selector.assemble catalog parts).orders ∧
          (SortSource.ofField field).joins ⊆ selector.handedJoins catalog.schema parts
  alone : ∀ descending, ∃ query,
    (Selector.ofSortTexts [SortValue.textOf field.name descending]).compile catalog = .ok query ∧
      query.orders = [(SortSource.ofField field).order descending] ∧
      query.joins = (SortSource.ofField field).joins

theorem Selector.exists_query_ofSortTexts (catalog : Catalog) (texts : List String) :
    let keys := (ofSortTexts texts).sortKeys catalog.schema
    ∃ query, (ofSortTexts texts).compile catalog = .ok query ∧
      query.orders = (keys.map Prod.fst).reverse ∧
        query.joins = Join.merge (keys.flatMap Prod.snd) := by
  refine ⟨_, rfl, ?_, ?_⟩
  · exact List.append_nil _
  · exact congrArg Join.merge (List.append_nil _)

theorem SortSource.merge_joins_ofField (field : Field) :
    Join.merge (ofField field).joins = (ofField field).joins := by
  apply Join.merge_eq_self
  unfold ofField joins
  split
  · have apart : (value field).aliasName "" ≠ (reference field).aliasName "" := by
      intro same
      have lengths := congrArg (fun name : String => name.toList.length) same
      simp [toList_aliasName, label, String.toList_append] at lengths
    simpa [steps] using apart
  · exact List.nodup_singleton _

section

variable {catalog : Catalog} {name : String} {field : Field}
  (isField : catalog.schema.field? name = some field)

include isField

theorem Selector.sortKeys_ofSortTexts (valid : catalog.schema.Valid) (descending : Bool) :
    (ofSortTexts [SortValue.textOf name descending]).sortKeys catalog.schema =
      ((SortValue.key? catalog.schema { name, column := none, descending }).map fun key =>
        ({ expression := key.1, descending }, key.2)).toList := by
  have read := SortValue.read?_textOf
    (isNameRest_of_isFieldName (Schema.name_eq_of_field? isField ▸ (valid.isUsable isField).name))
    descending
  rw [sortKeys_eq]
  cases keyed : SortValue.key? catalog.schema { name, column := none, descending } <;>
    simp [sortValues, ofSortTexts, Term.field, read, keyed]

variable (valid : catalog.schema.Valid)

include valid

theorem Schema.sortSource?_of_field? (other : name ≠ "random") :
    catalog.schema.sortSource? name = some (.ofField field) := by
  have plain := valid.isReserved_eq_false isField
  rw [isReserved, Bool.or_eq_false_iff] at plain
  have child : name ≠ "parent" := by
    rintro rfl
    exact absurd plain.1 (by decide)
  rw [sortSource?, if_neg other, if_neg child, plain.1, if_neg Bool.false_ne_true, isField]
  rfl

theorem Field.isSorted_iff : field.IsSorted catalog ↔ name ≠ "random" := by
  obtain rfl := Schema.name_eq_of_field? isField
  constructor
  · rintro sorted same
    obtain ⟨query, compiled, orders, -⟩ := sorted.alone false
    obtain ⟨made, compiledToo, ordersToo, -⟩ := Selector.exists_query_ofSortTexts catalog
      [SortValue.textOf field.name false]
    cases compiled.symm.trans compiledToo
    rw [Selector.sortKeys_ofSortTexts isField valid, SortValue.key?, if_pos same] at ordersToo
    rw [ordersToo] at orders
    cases orders
  · intro other
    have isSource := Schema.sortSource?_of_field? isField valid other
    refine ⟨fun selector parts compiled term isTerm sorts descending isValue => ?_,
      fun descending => ?_⟩
    · have read := SortValue.read?_textOf (isNameRest_of_isFieldName (valid.isUsable isField).name)
        descending
      have among : { name := field.name, column := none, descending } ∈ selector.sortValues :=
        List.mem_filterMap.2 ⟨_, List.mem_flatMap.2
          ⟨term, List.mem_filter.2 ⟨isTerm, decide_eq_true sorts⟩, isValue⟩, read⟩
      have isKey := Selector.mem_sortKeys_of_sortSource? among isSource
      refine ⟨?_, fun join isJoin => ?_⟩
      · exact List.mem_append_left _ (List.mem_reverse.2 (List.mem_map_of_mem isKey))
      · exact List.mem_append_left _
          (List.mem_append_right _ (List.mem_flatMap.2 ⟨_, isKey, isJoin⟩))
    · obtain ⟨query, compiled, orders, joins⟩ := Selector.exists_query_ofSortTexts catalog
        [SortValue.textOf field.name descending]
      let value : SortValue := { name := field.name, column := none, descending }
      rcases value.key?_eq catalog.schema with ⟨source, found, whole⟩ | ⟨none, -⟩
      · cases isSource.symm.trans found
        rw [Selector.sortKeys_ofSortTexts isField valid, whole] at orders joins
        refine ⟨query, compiled, orders, joins.trans ?_⟩
        exact (congrArg Join.merge (List.append_nil _)).trans
          (SortSource.merge_joins_ofField field)
      · cases isSource.symm.trans none

end

/-! ### Terms -/

/-- Every kind of field takes comparisons. -/
theorem FieldKind.exists_matching? {operator : Operator}
    (compares : (ordering? operator).isSome = true) (kind : FieldKind) (now : Date.Moment)
    (target : Column) (value : String) :
    ∃ matching, kind.matching? now target operator value = some matching := by
  rw [← Option.isSome_iff_exists]
  cases kind with
  | text | textarea =>
      cases operator <;> simp_all [matching?, matchText, compareWith]
  | integer =>
      cases operator <;> simp_all [matching?, compareWith, ordering?]
  | page => simpa [matching?, compareWith] using compares
  | datetime =>
      cases normalized : Date.normalize? now value <;>
        simpa [matching?, compareWith, normalized] using compares

theorem Member.eq_unsupportedOperator {now : Date.Moment} {kind : FieldKind} {target : Column}
    {operator : Operator} {value : String} {error : Error}
    (refused : branch now kind target operator value = .error error) :
    error = .unsupportedOperator operator target.text := by
  unfold branch at refused
  split at refused
  · cases refused
  · unfold FieldKind.matching at refused
    split at refused <;> cases refused
    rfl

/-- The join reads the values of the field that belong to the page. -/
structure Join.ReadsField (join : Join) (field : Field) : Prop where
  table : join.table = field.table
  link : pageLink join.aliasName ∈ join.on.conjuncts

theorem Member.readsField {member : Member} {field : Field} (table : member.table = field.table)
    {join : Join} (own : join = member.innerJoin ∨ join = member.leftJoin) :
    join.ReadsField field := by
  have linked : pageLink member.aliasName ∈ member.link.conjuncts :=
    Join.test_mem_conjuncts_conj (List.mem_singleton_self _)
  rcases own with rfl | rfl
  · exact ⟨table, linked⟩
  · refine ⟨table, ?_⟩
    rw [leftJoin]
    dsimp only
    split
    · exact List.mem_singleton_self _
    · exact linked

/-- Terms on the field alone are terms on an attached field. Every one of them that asks for
anything joins the field's table, and none fails but for its operator. -/
structure Field.IsAsked (catalog : Catalog) (field : Field) : Prop where
  kind : ∀ term : Term, term.fields = [field.name] → term.kind = .attached
  compares : ∀ used (term : Term), term.fields = [field.name] →
    (FieldKind.ordering? term.operator).isSome = true →
      ∃ part, Part.ofTerm catalog used term = .ok part
  refuses : ∀ used (term : Term) error, term.fields = [field.name] →
    Part.ofTerm catalog used term = .error error →
      error = .unsupportedOperator term.operator
        (⟨nextAlias used field.table, "data"⟩ : Column).text
  among : ∀ selector parts, Part.ofTerms catalog [] selector = .ok parts →
    ∀ term ∈ selector, term.fields = [field.name] → term.asks = true →
      ∃ join ∈ selector.handedJoins catalog.schema parts, join.ReadsField field
  alone : ∀ (term : Term) query, term.fields = [field.name] →
    Selector.compile catalog [term] = .ok query →
      if term.asks then
        ∃ join, query.joins = [join] ∧ join.ReadsField field ∧ join.aliasName = field.table
      else
        query.joins = []

section

variable {catalog : Catalog} {name : String} {field : Field} {used : List String} {term : Term}
  {part : Part} (isField : catalog.schema.field? name = some field)
  (valid : catalog.schema.Valid) (named : term.fields = [name])

include isField valid

theorem Member.splitName_of_field? : splitName name = (name, "data") := by
  refine splitName_of_whole fun point => ?_
  have plain := (valid.isUsable isField).name
  rw [Schema.name_eq_of_field? isField] at plain
  exact absurd (isNameRest_of_isFieldName plain '.' point) (by decide)

include named

theorem Term.kind_of_field? : term.kind = .attached := by
  refine kind_of_field ?_
  rw [Term.field, named]
  exact valid.isReserved_eq_false isField

theorem Part.ofTerm_of_field? (used : List String) :
    ofTerm catalog used term = (Member.contribution catalog used term name).map fun found =>
      ofContributions term.text [found] := by
  rw [ofTerm, Term.kind_of_field? isField valid named, named]
  dsimp only
  rw [Member.contributions]
  cases Member.contribution catalog used term name <;> rfl

/-- What a term on the field alone adds to a query. -/
theorem Part.exists_of_ofTerm_field? (compiled : ofTerm catalog used term = .ok part) :
    part.joins = [] ∧
      if term.asks then
        ∃ member, part.members = [(term.text, member)] ∧ member.table = field.table ∧
          member.aliasName = nextAlias used field.table
      else
        part.members = [] := by
  rw [ofTerm_of_field? isField valid named, map_eq_ok] at compiled
  obtain ⟨found, contributed, rfl⟩ := compiled
  refine ⟨rfl, ?_⟩
  split
  · next asks =>
    obtain ⟨member, adds⟩ := Member.exists_adds asks contributed
    obtain ⟨other, kind, branches, isFor⟩ := adds.stands
    have isOther := isFor.isField
    rw [Member.splitName_of_field? isField valid, isField] at isOther
    cases isOther
    refine ⟨member, ?_, isFor.table, isFor.table ▸ adds.aliasName⟩
    simp [ofContributions, adds.given]
  · next silent =>
    have all : Member.contributions catalog term used [name] = .ok [found] := by
      rw [Member.contributions, contributed]
      rfl
    obtain ⟨none, -⟩ := Member.eq_nil_of_contributions (Bool.eq_false_iff.2 silent) all
    simp [ofContributions, none]

theorem Part.exists_ofTerm_of_ordering?
    (compares : (FieldKind.ordering? term.operator).isSome = true) (used : List String) :
    ∃ part, ofTerm catalog used term = .ok part := by
  obtain ⟨kind, isKind⟩ := valid.exists_kind (Schema.mem_fields_of_field? isField)
  have each : ∀ value ∈ term.values, ∃ found, Member.branch catalog.now kind
      ⟨nextAlias used field.table, (Member.splitName name).2⟩ term.operator value = .ok found := by
    intro value _
    rw [Member.branch]
    split
    · exact ⟨_, rfl⟩
    · obtain ⟨matching, matched⟩ := FieldKind.exists_matching? compares kind catalog.now
        ⟨nextAlias used field.table, (Member.splitName name).2⟩ value
      rw [FieldKind.matching, matched]
      exact ⟨_, rfl⟩
  obtain ⟨branches, branched⟩ := exists_forall₂ each
  have isFieldToo : catalog.schema.field? (Member.splitName name).1 = some field := by
    rwa [Member.splitName_of_field? isField valid]
  obtain ⟨found, contributed⟩ := Member.contribution_of_branched isFieldToo isKind branched
  rw [ofTerm_of_field? isField valid named, contributed]
  exact ⟨_, rfl⟩

theorem Part.eq_unsupportedOperator {error : Error}
    (failed : ofTerm catalog used term = .error error) :
    error = .unsupportedOperator term.operator
      (⟨nextAlias used field.table, "data"⟩ : Column).text := by
  obtain ⟨kind, isKind⟩ := valid.exists_kind (Schema.mem_fields_of_field? isField)
  rw [ofTerm_of_field? isField valid named, Member.contribution,
    Member.splitName_of_field? isField valid] at failed
  dsimp only at failed
  rw [isField] at failed
  dsimp only at failed
  rw [isKind] at failed
  let target : Column := ⟨nextAlias used field.table, "data"⟩
  cases branched : term.values.mapM (Member.branch catalog.now kind target term.operator) with
  | ok branches =>
      simp [Except.map, bind, Except.bind, target, branched] at failed
  | error other =>
      obtain ⟨value, -, refused⟩ := mapM_eq_error branched
      simp only [Except.map, bind, Except.bind, target, branched, Except.error.injEq] at failed
      exact failed ▸ Member.eq_unsupportedOperator refused

theorem Selector.exists_handedJoin {selector : Selector} {parts : List Part}
    (compiled : Part.ofTerms catalog [] selector = .ok parts) (isTerm : term ∈ selector)
    (asks : term.asks = true) :
    ∃ join ∈ selector.handedJoins catalog.schema parts, join.ReadsField field := by
  obtain ⟨before, part, isPart, gives⟩ := Part.exists_of_mem compiled isTerm
  obtain ⟨-, adds⟩ := Part.exists_of_ofTerm_field? isField valid named gives
  rw [if_pos asks] at adds
  obtain ⟨member, members, table, -⟩ := adds
  have isEntry : (term.text, member) ∈ parts.flatMap Part.members :=
    List.mem_flatMap.2 ⟨part, isPart, members ▸ List.mem_singleton_self _⟩
  have grouped : member ∈ (MemberGroup.ofRuns (parts.flatMap Part.members)).flatten := by
    rw [MemberGroup.flatten_ofRuns]
    exact List.mem_map_of_mem isEntry
  obtain ⟨group, isGroup, isMember⟩ := List.mem_flatten.1 grouped
  obtain ⟨join, isJoin, -, own⟩ := MemberGroup.exists_join_of_mem isMember
  exact ⟨join, List.mem_append_right _ (List.mem_flatMap.2 ⟨group, isGroup, isJoin⟩),
    Member.readsField table own⟩

theorem Selector.joins_of_compile_singleton {query : Query}
    (compiled : Selector.compile catalog [term] = .ok query) :
    if term.asks then
      ∃ join, query.joins = [join] ∧ join.ReadsField field ∧ join.aliasName = field.table
    else
      query.joins = [] := by
  have attached := Term.kind_of_field? isField valid named
  have other : ∀ given ∈ [term], given.kind ≠ .sort ∧ given.kind ≠ .window := by simp [attached]
  obtain ⟨unsorted, -⟩ := sortKeys_eq_nil_and_window?_eq_none_of_kind other catalog
  obtain ⟨parts, areParts, rfl⟩ := map_eq_ok.1 compiled
  rw [Part.ofTerms] at areParts
  obtain ⟨part, isPart, areParts⟩ := bind_eq_ok.1 areParts
  cases areParts
  obtain ⟨unframed, adds⟩ := Part.exists_of_ofTerm_field? isField valid named isPart
  have joins : (Selector.assemble catalog [term] [part]).joins =
      Join.merge ((MemberGroup.ofRuns part.members).flatMap MemberGroup.joins) := by
    simp [assemble, unsorted, unframed]
  rw [joins]
  split
  · next asks =>
    rw [if_pos asks] at adds
    obtain ⟨member, members, table, aliasName⟩ := adds
    have sole : ∃ join, MemberGroup.joins [member] = [join] ∧
        (join = member.innerJoin ∨ join = member.leftJoin) := by
      rw [MemberGroup.joins]
      split
      · exact ⟨_, rfl, .inl rfl⟩
      · exact ⟨_, rfl, .inr rfl⟩
    obtain ⟨join, alone, own⟩ := sole
    have same : join.aliasName = member.aliasName := by rcases own with rfl | rfl <;> rfl
    refine ⟨join, ?_, Member.readsField table own, same.trans aliasName⟩
    have runs : MemberGroup.ofRuns [(term.text, member)] = [[member]] := rfl
    rw [members, runs, List.flatMap_singleton, alone]
    rfl
  · next silent =>
    rw [if_neg silent] at adds
    rw [adds]
    rfl

end

theorem Field.isAsked {catalog : Catalog} (valid : catalog.schema.Valid) {name : String}
    {field : Field} (isField : catalog.schema.field? name = some field) :
    field.IsAsked catalog := by
  obtain rfl := Schema.name_eq_of_field? isField
  exact
    { kind := fun term named => Term.kind_of_field? isField valid named
      compares := fun used term named compares =>
        Part.exists_ofTerm_of_ordering? isField valid named compares used
      refuses := fun used term error named failed =>
        Part.eq_unsupportedOperator isField valid named failed
      among := fun selector parts compiled term isTerm named asks =>
        Selector.exists_handedJoin isField valid named compiled isTerm asks
      alone := fun term query named compiled =>
        Selector.joins_of_compile_singleton isField valid named compiled }

/-- The name of every field of a valid schema asks for the field, whatever the operator and the
values of the term. Sort values with the name order by the field just when it is another name than
the one that asks for chance, which no schema is denied. -/
theorem Field.isAsked_and_isSorted_iff {catalog : Catalog} (valid : catalog.schema.Valid)
    {name : String} {field : Field} (isField : catalog.schema.field? name = some field) :
    field.IsAsked catalog ∧ (field.IsSorted catalog ↔ name ≠ "random") :=
  ⟨isAsked valid isField, isSorted_iff isField valid⟩

theorem Field.isAsked_and_isSorted_iff_random :
    let field : Field := ⟨"random", "field_random", "text"⟩
    (textCatalog ["random"]).schema.Valid ∧
      (textCatalog ["random"]).schema.field? "random" = some field ∧
      field.IsAsked (textCatalog ["random"]) ∧ ¬field.IsSorted (textCatalog ["random"]) := by
  intro field
  have valid : (textCatalog ["random"]).schema.Valid := by decide
  have isField : (textCatalog ["random"]).schema.field? "random" = some field := rfl
  obtain ⟨asked, sorted⟩ := isAsked_and_isSorted_iff valid isField
  exact ⟨valid, isField, asked, fun orders => sorted.1 orders rfl⟩

end PageTree
