import PageTree.Error
import PageTree.Finder
import PageTree.Proofs.Data.Result
import PageTree.Proofs.Query.Naming
import PageTree.Proofs.Text.Pieces

/-!
Names in compiled queries. A valid schema names its fields and tables plainly, and a selector that
was read names its fields with field characters. Main statement: the query of such a selector is
well-named, whatever its terms ask for.
-/

namespace PageTree

open Sql Text

universe u

/-! ### Fields of a valid schema -/

theorem isTableName_append {name : String} {cs : List Char}
    (plain : Schema.isTableName name = true)
    (letters : ∀ c ∈ cs, (c.isAlphanum || c = '_') = true) :
    Schema.isTableName (name ++ String.ofList cs) = true := by
  unfold Schema.isTableName at plain ⊢
  rw [String.toList_append, String.toList_ofList]
  split at plain
  · exact absurd plain (by decide)
  · next c rest spelled =>
    rw [Bool.and_eq_true] at plain
    rw [spelled, List.cons_append, Bool.and_eq_true, List.all_append, Bool.and_eq_true]
    exact ⟨plain.1, plain.2, List.all_eq_true.2 letters⟩

theorem isAlphanum_of_isLower {c : Char} (lower : c.isLower = true) : c.isAlphanum = true := by
  change ((c.isUpper || c.isLower) || c.isDigit) = true
  simp [lower]

theorem isAlphanum_or_of_isNameRest {c : Char} (rest : Schema.isNameRest c = true) :
    (c.isAlphanum || c = '_') = true := by
  simp only [Schema.isNameRest, Bool.or_eq_true] at rest
  rcases rest with (lower | digit) | underscore
  · simp [isAlphanum_of_isLower lower]
  · simp [Char.isAlphanum, digit]
  · simp [underscore]

theorem isNameRest_of_isFieldName {name : String} (plain : Schema.isFieldName name = true) :
    ∀ c ∈ name.toList, Schema.isNameRest c = true := by
  unfold Schema.isFieldName at plain
  intro c member
  split at plain
  · exact absurd plain (by decide)
  · next first rest spelled =>
    rw [Bool.and_eq_true, List.all_eq_true] at plain
    rw [spelled] at member
    rcases List.mem_cons.1 member with rfl | among
    · simp [Schema.isNameRest, plain.1]
    · exact plain.2 c among

theorem isAlphanum_or_of_isFieldName {name : String} (plain : Schema.isFieldName name = true) :
    ∀ c ∈ name.toList, (c.isAlphanum || c = '_') = true :=
  fun c member => isAlphanum_or_of_isNameRest (isNameRest_of_isFieldName plain c member)

structure Field.IsUsable (field : Field) : Prop where
  name : Schema.isFieldName field.name = true
  table : Schema.isTableName field.table = true

theorem Dictionary.mem_of_find? {β : Type u} {d : Dictionary β} {name : String} {value : β}
    (found : d.find? name = some value) : (name, value) ∈ d := by
  induction d with
  | nil => simp at found
  | cons entry rest induction =>
      obtain ⟨other, held⟩ := entry
      rw [Dictionary.find?_cons] at found
      split at found
      · next same =>
        rw [same, Option.some.inj found]
        exact List.mem_cons_self ..
      · exact List.mem_cons_of_mem _ (induction found)

theorem Schema.Valid.faults_eq_nil {schema : Schema} (valid : schema.Valid) {name : String}
    {declaration : FieldDeclaration} (declared : (name, declaration) ∈ schema) :
    Schema.faults name declaration = [] := by
  have none := List.flatMap_eq_nil_iff.1 valid (name, declaration) declared
  exact List.map_eq_nil_iff.1 none

theorem Schema.Valid.isFieldName {schema : Schema} (valid : schema.Valid) {name : String}
    {declaration : FieldDeclaration} (declared : (name, declaration) ∈ schema) :
    Schema.isFieldName name = true := by
  have none := valid.faults_eq_nil declared
  simp only [Schema.faults, List.append_eq_nil_iff] at none
  by_contra malformed
  simp [malformed] at none

theorem Schema.Valid.isUsable {schema : Schema} (valid : schema.Valid) {name : String}
    {field : Field} (found : schema.field? name = some field) : field.IsUsable := by
  obtain ⟨declaration, declared, rfl⟩ := Option.map_eq_some_iff.1 found
  have none := valid.faults_eq_nil (Dictionary.mem_of_find? declared)
  simp only [Schema.faults, List.append_eq_nil_iff, List.map_eq_nil_iff] at none
  obtain ⟨⟨-, usable⟩, -⟩ := none
  have plain := valid.isFieldName (Dictionary.mem_of_find? declared)
  refine ⟨plain, ?_⟩
  cases table : declaration.table with
  | none =>
      have prefixed : Schema.isTableName ("field_" ++ String.ofList name.toList) = true :=
        isTableName_append (by decide) (isAlphanum_or_of_isFieldName plain)
      rw [String.ofList_toList] at prefixed
      simpa [FieldDeclaration.field, table] using prefixed
  | some written =>
      by_contra unusable
      simp [FieldDeclaration.field, table] at unusable
      simp [table, Schema.isUsableTable, unusable] at usable

theorem Schema.Valid.exists_kind {schema : Schema} (valid : schema.Valid) {field : Field}
    (isField : field ∈ schema.fields) : ∃ kind, field.kind? = .ok kind := by
  obtain ⟨⟨name, declaration⟩, declared, rfl⟩ := List.mem_map.1 isField
  have none := valid.faults_eq_nil declared
  simp only [Schema.faults, List.append_eq_nil_iff] at none
  cases found : FieldKind.ofName? declaration.kind with
  | none => simp [found] at none
  | some kind => exact ⟨kind, by rw [Field.kind?, FieldDeclaration.field, found]⟩

/-- A schema with one text field. -/
def titleSchema : Schema :=
  [("title", { kind := "text", table := none, label := none })]

/-! ### Fields of a selector -/

def Term.IsNamed (term : Term) : Prop :=
  ∀ name ∈ term.fields, isFieldText name = true

theorem Term.isNamed_of_read {cs : List Char} {term : Term} (written : Term.read cs = .ok term) :
    term.IsNamed := by
  simp only [Term.read] at written
  split at written
  · cases written
  split at written
  · cases written
  split at written
  · cases written
  split at written
  · cases written
  cases written
  intro name member
  obtain ⟨piece, isPiece, rfl⟩ := List.mem_map.1 member
  rw [isFieldText, String.toList_ofList, List.all_eq_true]
  exact fun c among => List.mem_takeWhile_imp (mem_of_mem_splitAt isPiece among)

theorem Selector.isNamed_of_read {s : String} {selector : Selector}
    (written : Selector.read s = .ok selector) : ∀ term ∈ selector, term.IsNamed := by
  intro term member
  obtain ⟨piece, -, read⟩ := exists_of_mem_forall₂ (mapM_eq_ok.1 written) member
  cases outcome : Term.read piece with
  | error fault => simp [outcome] at read
  | ok found =>
      simp only [outcome, Except.ok.injEq] at read
      exact read ▸ Term.isNamed_of_read outcome

theorem Term.IsNamed.resolveStatus {term : Term} (named : term.IsNamed) :
    term.resolveStatus.IsNamed := by
  unfold Term.resolveStatus
  split <;> exact named

theorem Finder.isNamed_prepare {finder : Finder} {selector : Selector} {single : Bool}
    (named : ∀ term ∈ selector, term.IsNamed) :
    ∀ term ∈ finder.prepare selector single, term.IsNamed := by
  have added {field : String} {operator : Operator} {value : String}
      (plain : isFieldText field = true) : (Term.single field operator value).IsNamed := by
    intro name member
    rw [List.mem_singleton.1 member]
    exact plain
  have bounded : ∀ term ∈ selector.withStatusBound single, term.IsNamed := by
    intro term member
    rcases List.mem_append.1 member with written | bound
    · obtain ⟨original, among, rfl⟩ := List.mem_map.1 written
      exact (named original among).resolveStatus
    · obtain ⟨value, -, rfl⟩ := List.mem_map.1 bound
      exact added (by decide)
  have windowed {terms : Selector} (kept : ∀ term ∈ terms, term.IsNamed) :
      ∀ term ∈ terms.withSingleWindow, term.IsNamed := by
    intro term member
    rcases List.mem_append.1 member with written | window
    · exact kept term written
    · rcases List.mem_pair.1 window with rfl | rfl
      · exact added (by decide)
      · exact added (by decide)
  unfold Finder.prepare
  cases finder.checkStatus <;> cases single
  · exact named
  · exact windowed named
  · exact bounded
  · exact windowed bounded

/-! ### Aliases -/

theorem isTableName_appendNumber {name : String} (plain : Schema.isTableName name = true)
    (n : Nat) : Schema.isTableName (name ++ toString n) = true := by
  rw [Nat.toString_eq_ofList_toDigits]
  refine isTableName_append plain fun c member => ?_
  simp [Char.isAlphanum, isDigit_of_mem_toDigits c member]

theorem isTableName_nextAlias {used : List String} {table : String}
    (plain : Schema.isTableName table = true) :
    Schema.isTableName (nextAlias used table) = true := by
  unfold nextAlias
  split
  · exact plain
  · exact isTableName_appendNumber plain _

theorem isWellNamed_column {aliasName name : String} (plain : Schema.isTableName aliasName = true)
    (field : isFieldText name = true) : Column.IsWellNamed ⟨aliasName, name⟩ :=
  ⟨plain, field⟩

theorem isWellNamed_join {kind : JoinKind} {table aliasName : String} {on : Filter}
    (usable : Schema.isTableName table = true) (plain : Schema.isTableName aliasName = true)
    (condition : on.IsWellNamed) : Join.IsWellNamed ⟨kind, table, aliasName, on⟩ :=
  ⟨usable, plain, condition⟩

theorem isWellNamed_idColumn : Query.idColumn.IsWellNamed :=
  isWellNamed_column (by decide) (by decide)

theorem isWellNamed_pageLink {aliasName : String} (plain : Schema.isTableName aliasName = true) :
    Filter.IsWellNamed (pageLink aliasName) := by
  rw [pageLink, Filter.IsWellNamed, Condition.forall_test]
  exact ⟨isWellNamed_column plain (by decide), isWellNamed_idColumn⟩

theorem isWellNamed_ofValue (value : String) : (Operand.ofValue value).IsWellNamed := by
  unfold Operand.ofValue
  split
  · assumption
  · trivial

theorem isWellNamed_ofText (value : String) : (Operand.ofText value).IsWellNamed := trivial

theorem isWellNamed_integer (n : Int) : (Operand.integer n).IsWellNamed := trivial

/-! ### Native fields -/

theorem isWellNamed_nativeColumn {name : String} (native : isNativeName name = true) :
    (nativeColumn name).IsWellNamed := by
  simp only [isNativeName, nativeNames, List.contains_cons, List.contains_nil, Bool.or_false,
    Bool.or_eq_true, beq_iff_eq] at native
  rcases native with rfl | rfl | rfl | rfl | rfl | rfl | rfl | rfl | rfl <;>
    exact isWellNamed_column (by decide) (by decide)

theorem Term.forall_nativeFilter {catalog : Catalog} {term : Term} {filter : Filter}
    {p : Test → Prop}
    (each : ∀ relation value, p (.compare (nativeColumn term.field) relation (.ofValue value)))
    (compiled : term.nativeFilter catalog = .ok filter) : Condition.Forall p filter := by
  unfold Term.nativeFilter at compiled
  split at compiled
  · cases compiled
  · next relation _ =>
    obtain ⟨values, -, equality⟩ := bind_eq_ok.1 compiled
    cases equality
    simp only [Condition.forall_negateIf, Condition.forall_disj, List.mem_map]
    rintro branch ⟨value, -, rfl⟩
    cases value with
    | none => exact Condition.forall_never
    | some value => exact (Condition.forall_test _).2 (each relation value)

/-- The filter of a term on a page column reads that column alone. -/
theorem Term.forall_columns_nativeFilter {catalog : Catalog} {term : Term} {filter : Filter}
    (compiled : term.nativeFilter catalog = .ok filter) :
    Condition.Forall (fun test => ∀ column ∈ test.columns, column = nativeColumn term.field)
      filter := by
  refine forall_nativeFilter (fun relation value column read => ?_) compiled
  unfold Operand.ofValue at read
  split at read
  · exact List.mem_singleton.1 read
  · exact List.mem_singleton.1 read

theorem Term.isWellNamed_nativeFilter {catalog : Catalog} {term : Term} {filter : Filter}
    (native : isNativeName term.field = true) (compiled : term.nativeFilter catalog = .ok filter) :
    Filter.IsWellNamed filter :=
  forall_nativeFilter
    (fun _ value => ⟨isWellNamed_nativeColumn native, isWellNamed_ofValue value⟩) compiled

/-! ### Paths -/

theorem Path.isWellNamed_conjuncts (path : String) :
    ∀ conjunct ∈ Path.conjuncts path, Filter.IsWellNamed conjunct.filter := by
  have plain {column : Column} {operand : Operand} (named : column.IsWellNamed)
      (value : operand.IsWellNamed) :
      Filter.IsWellNamed (Conjunct.plain (.compare column .equal operand)).filter :=
    (Condition.forall_test _).2 ⟨named, value⟩
  intro conjunct member
  unfold Path.conjuncts at member
  split at member
  · rw [List.mem_singleton.1 member]
    exact plain (isWellNamed_column (by decide) (by decide)) trivial
  · rcases List.mem_cons.1 member with rfl | among
    · exact plain (isWellNamed_column (by decide) (by decide)) trivial
    · split at among
      · rw [List.mem_singleton.1 among]
        exact plain (isWellNamed_column (by decide) (by decide)) trivial
      · simp at among

theorem Path.isWellNamed_rootJoin {below : String} (plain : Schema.isTableName below = true) :
    (Path.rootJoin below).IsWellNamed := by
  refine isWellNamed_join (by decide) (by decide) ?_
  simp only [Filter.IsWellNamed, Condition.forall_conj, List.mem_cons, List.not_mem_nil, or_false,
    forall_eq_or_imp, forall_eq, Condition.forall_test]
  have root : Column.IsWellNamed ⟨"rootparent", "id"⟩ :=
    isWellNamed_column (by decide) (by decide)
  exact ⟨⟨isWellNamed_column plain (by decide), root⟩, root, trivial⟩

theorem Path.isWellNamed_parentJoin {below aliasName : String} (segment : String)
    (plain : Schema.isTableName below = true) (named : Schema.isTableName aliasName = true) :
    (Path.parentJoin below aliasName segment).IsWellNamed := by
  refine isWellNamed_join (by decide) named ?_
  simp only [Filter.IsWellNamed, Condition.forall_conj, List.mem_cons, List.not_mem_nil, or_false,
    forall_eq_or_imp, forall_eq, Condition.forall_test]
  exact ⟨⟨isWellNamed_column plain (by decide), isWellNamed_column named (by decide)⟩,
    isWellNamed_column named (by decide), trivial⟩

theorem Path.isWellNamed_joinsAbove (segments : List String) {below : String}
    (plain : Schema.isTableName below = true) :
    ∀ join ∈ Path.joinsAbove below segments, join.IsWellNamed := by
  induction segments generalizing below with
  | nil => simp [Path.joinsAbove]
  | cons segment above induction =>
      rw [Path.joinsAbove]
      split
      · rw [List.forall_mem_cons]
        exact ⟨isWellNamed_rootJoin plain, induction plain⟩
      · have named : Schema.isTableName ("parent" ++ toString (above.length + 1)) = true :=
          isTableName_appendNumber (by decide) _
        rw [List.forall_mem_cons]
        exact ⟨isWellNamed_parentJoin segment plain named, induction named⟩

theorem Path.isWellNamed_joins (path : String) :
    ∀ join ∈ Path.joins path, join.IsWellNamed := by
  unfold Path.joins
  split
  · simp
  · exact Path.isWellNamed_joinsAbove _ (by decide)

theorem Term.isWellNamed_ancestorJoin {aliasName : String} (ids : List Int)
    (plain : Schema.isTableName aliasName = true) :
    (Term.ancestorJoin aliasName ids).IsWellNamed := by
  refine isWellNamed_join (by decide) plain ?_
  simp only [Filter.IsWellNamed, Condition.forall_conj, Condition.forall_disj,
    List.mem_cons, List.not_mem_nil, or_false, forall_eq_or_imp, forall_eq, List.mem_map,
    forall_exists_index, and_imp, forall_apply_eq_imp_iff₂, Condition.forall_test]
  have page : Column.IsWellNamed ⟨aliasName, "pages_id"⟩ := isWellNamed_column plain (by decide)
  have parent : Column.IsWellNamed ⟨aliasName, "parents_id"⟩ :=
    isWellNamed_column plain (by decide)
  exact ⟨⟨page, isWellNamed_column (by decide) (by decide)⟩,
    fun id _ => ⟨⟨parent, trivial⟩, page, trivial⟩⟩

/-! ### Attached fields -/

theorem FieldKind.matching_eq_ok {kind : FieldKind} {now : Date.Moment} {target : Column}
    {operator : Operator} {value : String} {matching : Matching}
    (compiled : kind.matching now target operator value = .ok matching) :
    kind.matching? now target operator value = some matching := by
  unfold FieldKind.matching at compiled
  split at compiled
  · next found =>
    cases compiled
    exact found
  · cases compiled

structure Matching.IsWellNamed (matching : Matching) : Prop where
  tests : ∀ test ∈ matching.tests, test.IsWellNamed
  scores : ∀ score ∈ matching.scores, score.subject.IsWellNamed

namespace FieldKind

theorem isWellNamed_single {test : Test} (named : test.IsWellNamed) :
    (single test).IsWellNamed := by
  constructor
  · intro other member
    rw [List.mem_singleton.1 member]
    exact named
  · intro score member
    simp [single] at member

theorem isWellNamed_compareWith {target : Column} {relation : Option Relation} {right : Operand}
    {matching : Matching} (named : target.IsWellNamed) (value : right.IsWellNamed)
    (compiled : compareWith target relation right = some matching) : matching.IsWellNamed := by
  obtain ⟨given, -, rfl⟩ := Option.map_eq_some_iff.1 compiled
  exact isWellNamed_single ⟨named, value⟩

theorem isWellNamed_matchText {target : Column} {operator : Operator} {value : String}
    {matching : Matching} (named : target.IsWellNamed)
    (compiled : matchText target operator value = some matching) : matching.IsWellNamed := by
  have text := isWellNamed_ofText value
  cases operator with
  | containsPhrase =>
      cases compiled
      refine ⟨fun test member => ?_, fun score member => ?_⟩
      · rw [List.mem_singleton.1 member]
        exact named
      · split at member
        · simp at member
        · rw [List.mem_singleton.1 member]
          exact named
  | containsWords =>
      cases compiled
      refine ⟨fun test member => ?_, by simp⟩
      obtain ⟨word, -, rfl⟩ := List.mem_map.1 member
      exact named
  | like =>
      cases compiled
      exact isWellNamed_single named
  | startsWith =>
      cases compiled
      exact isWellNamed_single named
  | endsWith =>
      cases compiled
      exact isWellNamed_single named
  | equal => exact isWellNamed_compareWith named text compiled
  | notEqual => exact isWellNamed_compareWith named text compiled
  | less => exact isWellNamed_compareWith named text compiled
  | greater => exact isWellNamed_compareWith named text compiled
  | lessEqual => exact isWellNamed_compareWith named text compiled
  | greaterEqual => exact isWellNamed_compareWith named text compiled
  | bitAnd => exact isWellNamed_compareWith named text compiled

theorem isWellNamed_matching? {kind : FieldKind} {now : Date.Moment} {target : Column}
    {operator : Operator} {value : String} {matching : Matching} (named : target.IsWellNamed)
    (compiled : kind.matching? now target operator value = some matching) :
    matching.IsWellNamed := by
  cases kind with
  | text => exact isWellNamed_matchText named compiled
  | textarea => exact isWellNamed_matchText named compiled
  | integer => exact isWellNamed_compareWith named (isWellNamed_integer _) compiled
  | page => exact isWellNamed_compareWith named (isWellNamed_integer _) compiled
  | datetime =>
      simp only [matching?] at compiled
      split at compiled
      · exact isWellNamed_compareWith named (isWellNamed_ofText _) compiled
      · obtain ⟨relation, -, rfl⟩ := Option.map_eq_some_iff.1 compiled
        exact isWellNamed_single trivial

theorem isWellNamed_matching {kind : FieldKind} {now : Date.Moment} {target : Column}
    {operator : Operator} {value : String} {matching : Matching} (named : target.IsWellNamed)
    (compiled : kind.matching now target operator value = .ok matching) :
    matching.IsWellNamed := by
  unfold FieldKind.matching at compiled
  split at compiled
  · next found =>
    cases compiled
    exact isWellNamed_matching? named found
  · cases compiled

end FieldKind

structure Member.IsWellNamed (member : Member) : Prop where
  table : Schema.isTableName member.table = true
  aliasName : Schema.isTableName member.aliasName = true
  condition : member.condition.IsWellNamed

structure Member.Branch.IsWellNamed (branch : Member.Branch) : Prop where
  filters : ∀ filter ∈ branch.filters, Filter.IsWellNamed filter
  scores : ∀ score ∈ branch.scores, score.subject.IsWellNamed

structure Member.Contribution.IsWellNamed (contribution : Member.Contribution) : Prop where
  member : ∀ member ∈ contribution.member, member.IsWellNamed
  scores : ∀ score ∈ contribution.scores, score.subject.IsWellNamed

namespace Member

theorem isWellNamed_branch {now : Date.Moment} {kind : FieldKind} {target : Column}
    {operator : Operator} {value : String} {found : Branch} (named : target.IsWellNamed)
    (compiled : branch now kind target operator value = .ok found) : found.IsWellNamed := by
  unfold branch at compiled
  split at compiled
  · cases compiled
    refine ⟨fun filter member => ?_, by simp [Branch.scores]⟩
    rw [List.mem_singleton.1 member]
    unfold rowFilter
    split
    · exact (Condition.forall_test _).2 (isWellNamed_column named.aliasName (by decide))
    · exact (Condition.forall_test _).2 (isWellNamed_column named.aliasName (by decide))
  · obtain ⟨matching, matched, rfl⟩ := map_eq_ok.1 compiled
    have kept := FieldKind.isWellNamed_matching named matched
    refine ⟨fun filter member => ?_, kept.scores⟩
    rw [Branch.filters] at member
    split at member
    · simp at member
    · rw [List.mem_singleton.1 member, Filter.IsWellNamed, Condition.forall_conj]
      intro part among
      obtain ⟨test, isTest, rfl⟩ := List.mem_map.1 among
      exact (Condition.forall_fragment test).2 (kept.tests test isTest)

theorem isFieldText_splitName {name : String} (plain : isFieldText name = true) :
    isFieldText (splitName name).2 = true := by
  unfold splitName
  split
  · next field column found =>
    obtain ⟨spelled, -⟩ := splitFirst?_eq_some found
    unfold isFieldText at plain ⊢
    rw [spelled, List.all_append, List.all_cons, Bool.and_eq_true, Bool.and_eq_true] at plain
    rw [String.toList_ofList]
    exact plain.2.2
  · exact (by decide : isFieldText "data" = true)

theorem isWellNamed_contribution {catalog : Catalog} (valid : catalog.schema.Valid)
    {used : List String} {term : Term} {name : String} (plain : isFieldText name = true)
    {found : Contribution} (compiled : contribution catalog used term name = .ok found) :
    found.IsWellNamed := by
  simp only [contribution] at compiled
  split at compiled
  · cases compiled
  next field isField =>
  obtain ⟨kind, -, compiled⟩ := bind_eq_ok.1 compiled
  obtain ⟨branches, each, equality⟩ := bind_eq_ok.1 compiled
  cases equality
  have usable := valid.isUsable isField
  have aliasName : Schema.isTableName (nextAlias used field.table) = true :=
    isTableName_nextAlias usable.table
  have named : ∀ branch ∈ branches, branch.IsWellNamed := by
    intro branch member
    obtain ⟨value, -, branched⟩ := exists_of_mem_forall₂ (mapM_eq_ok.1 each) member
    exact isWellNamed_branch (isWellNamed_column aliasName (isFieldText_splitName plain)) branched
  constructor
  · intro member isMember
    split at isMember
    · cases isMember
    · cases isMember
      refine ⟨usable.table, aliasName, ?_⟩
      rw [Filter.IsWellNamed, Condition.forall_negateIf, Condition.forall_disj]
      intro filter among
      obtain ⟨branch, isBranch, isFilter⟩ := List.mem_flatMap.1 among
      exact (named branch isBranch).filters filter isFilter
  · intro score among
    obtain ⟨branch, isBranch, isScore⟩ := List.mem_flatMap.1 among
    exact (named branch isBranch).scores score isScore

theorem isWellNamed_contributions {catalog : Catalog} (valid : catalog.schema.Valid) {term : Term}
    {names : List String} (plain : ∀ name ∈ names, isFieldText name = true) {used : List String}
    {found : List Contribution} (compiled : contributions catalog term used names = .ok found) :
    ∀ contribution ∈ found, contribution.IsWellNamed := by
  induction names generalizing used found with
  | nil =>
      cases compiled
      simp
  | cons name names induction =>
      rw [contributions] at compiled
      obtain ⟨first, isFirst, compiled⟩ := bind_eq_ok.1 compiled
      obtain ⟨rest, areRest, equality⟩ := bind_eq_ok.1 compiled
      cases equality
      rw [List.forall_mem_cons] at plain ⊢
      exact ⟨isWellNamed_contribution valid plain.1 isFirst, induction plain.2 areRest⟩

theorem isWellNamed_link {member : Member} (named : member.IsWellNamed) :
    member.link.IsWellNamed := by
  rw [link, Filter.IsWellNamed, Condition.forall_conj]
  intro part among
  rcases List.mem_pair.1 among with rfl | rfl
  · exact isWellNamed_pageLink named.aliasName
  · exact named.condition

end Member

namespace MemberGroup

theorem flatten_ofRuns (entries : List (String × Member)) :
    (ofRuns entries).flatten = entries.map Prod.snd := by
  induction entries with
  | nil => rfl
  | cons entry rest induction =>
      obtain ⟨text, member⟩ := entry
      rw [List.map_cons, ← induction, ofRuns.eq_def]
      dsimp only
      split
      · next runs => split <;> simp [runs]
      · rfl

theorem isWellNamed_joins {group : MemberGroup} (named : ∀ member ∈ group, member.IsWellNamed) :
    ∀ join ∈ group.joins, join.IsWellNamed := by
  intro join isJoin
  unfold joins at isJoin
  split at isJoin
  · obtain ⟨member, among, rfl⟩ := List.mem_map.1 isJoin
    have kept := named member among
    exact ⟨kept.table, kept.aliasName, Member.isWellNamed_link kept⟩
  · obtain ⟨member, among, rfl⟩ := List.mem_map.1 isJoin
    have kept := named member among
    refine ⟨kept.table, kept.aliasName, ?_⟩
    unfold Member.leftJoin
    split
    · exact isWellNamed_pageLink kept.aliasName
    · exact Member.isWellNamed_link kept

theorem forall_conjuncts {groups : List MemberGroup} {p : Test → Prop}
    (each : ∀ group ∈ groups, ∀ member ∈ group, Condition.Forall p member.condition) :
    ∀ conjunct ∈ conjuncts groups, Condition.Forall p conjunct.filter := by
  intro conjunct isConjunct
  unfold conjuncts at isConjunct
  split at isConjunct
  · simp at isConjunct
  · rw [List.mem_singleton.1 isConjunct, Conjunct.filter, Condition.forall_conj]
    intro filter isFilter
    obtain ⟨group, isGroup, filtered⟩ := List.mem_filterMap.1 isFilter
    unfold filter? at filtered
    split at filtered
    · cases filtered
    · cases filtered
      rw [Condition.forall_disj]
      intro condition among
      obtain ⟨member, isMember, rfl⟩ := List.mem_map.1 among
      exact each group isGroup member isMember

end MemberGroup

/-! ### Sort keys -/

namespace SortValue

theorem isPlainName_of_read? {text : String} {value : SortValue} (found : read? text = some value)
    {column : String} (named : value.column = some column) : isPlainName column.toList = true := by
  simp only [read?] at found
  split at found
  · cases found
    cases named
  · split at found
    · next plain =>
      cases found
      cases named
      rw [String.toList_ofList]
      exact plain
    · cases found

theorem isAlphanum_or_of_isPlainName {cs : List Char} (plain : isPlainName cs = true) :
    ∀ c ∈ cs, (c.isAlphanum || c = '_') = true := by
  rw [isPlainName, Bool.and_eq_true, List.all_eq_true] at plain
  exact plain.2

theorem isTableName_appendSuffix {text : String} {value : SortValue}
    (found : read? text = some value) {start : String} (plain : Schema.isTableName start = true) :
    Schema.isTableName (start ++ value.suffix) = true := by
  unfold suffix
  cases column : value.column with
  | none => simpa using plain
  | some name =>
      have letters := isAlphanum_or_of_isPlainName (isPlainName_of_read? found column)
      have spelled : start ++ ("_" ++ name) = start ++ String.ofList ('_' :: name.toList) := by
        apply String.ext
        simp
      change Schema.isTableName (start ++ ("_" ++ name)) = true
      rw [spelled]
      refine isTableName_append plain fun c member => ?_
      rcases List.mem_cons.1 member with rfl | among
      · decide
      · exact letters c among

theorem isFieldText_column {text : String} {value : SortValue} (found : read? text = some value)
    {otherwise : String} (plain : isFieldText otherwise = true) :
    isFieldText (value.column.getD otherwise) = true := by
  cases column : value.column with
  | none => exact plain
  | some name =>
      have letters := isAlphanum_or_of_isPlainName (isPlainName_of_read? found column)
      exact List.all_eq_true.2 fun c member => isFieldChar_of_letter (letters c member)

theorem isWellNamed_referenceJoin {aliasName : String} {reference : Column}
    (plain : Schema.isTableName aliasName = true) (named : reference.IsWellNamed) :
    (referenceJoin aliasName reference).IsWellNamed :=
  isWellNamed_join (by decide) plain
    ((Condition.forall_test _).2 ⟨isWellNamed_column plain (by decide), named⟩)

theorem isWellNamed_fieldKey {text : String} {value : SortValue} (found : read? text = some value)
    {field : Field} (usable : field.IsUsable) :
    (value.fieldKey field).1.IsWellNamed ∧
      ∀ join ∈ (value.fieldKey field).2, join.IsWellNamed := by
  have started {start : String} (plain : Schema.isTableName start = true) :
      Schema.isTableName (start ++ field.name ++ value.suffix) = true := by
    refine isTableName_appendSuffix found ?_
    have spelled : start ++ field.name = start ++ String.ofList field.name.toList := by simp
    rw [spelled]
    exact isTableName_append plain (isAlphanum_or_of_isFieldName usable.name)
  have aliasName := @started "_sort_" (by decide)
  have valueJoin : (sortJoin field.table ("_sort_" ++ field.name ++ value.suffix)
      (pageLink ("_sort_" ++ field.name ++ value.suffix))).IsWellNamed :=
    isWellNamed_join usable.table aliasName (isWellNamed_pageLink aliasName)
  unfold fieldKey
  split
  · have pageAlias := @started "_sort_page_" (by decide)
    refine ⟨isWellNamed_column pageAlias (isFieldText_column found (by decide)), ?_⟩
    intro join member
    rcases List.mem_pair.1 member with rfl | rfl
    · exact valueJoin
    · exact isWellNamed_referenceJoin pageAlias (isWellNamed_column aliasName (by decide))
  · refine ⟨isWellNamed_column aliasName (isFieldText_column found (by decide)), ?_⟩
    intro join member
    rw [List.mem_singleton.1 member]
    exact valueJoin

theorem isWellNamed_key? {schema : Schema} (valid : schema.Valid) {text : String}
    {value : SortValue} (found : read? text = some value) {key : OrderExpression × List Join}
    (keyed : value.key? schema = some key) :
    key.1.IsWellNamed ∧ ∀ join ∈ key.2, join.IsWellNamed := by
  unfold key? at keyed
  split at keyed
  · cases keyed
    exact ⟨trivial, by simp⟩
  split at keyed
  · cases keyed
    have aliasName : Schema.isTableName ("_sort_parent" ++ value.suffix) = true :=
      isTableName_appendSuffix found (by decide)
    refine ⟨isWellNamed_column aliasName (isFieldText_column found (by decide)), ?_⟩
    intro join member
    rw [List.mem_singleton.1 member]
    exact isWellNamed_referenceJoin aliasName (isWellNamed_column (by decide) (by decide))
  split at keyed
  · next native =>
    cases keyed
    exact ⟨isWellNamed_nativeColumn native, by simp⟩
  · obtain ⟨field, isField, rfl⟩ := Option.map_eq_some_iff.1 keyed
    exact isWellNamed_fieldKey found (valid.isUsable isField)

end SortValue

theorem Selector.isWellNamed_sortKeys {schema : Schema} (valid : schema.Valid)
    (selector : Selector) :
    ∀ key ∈ selector.sortKeys schema,
      key.1.expression.IsWellNamed ∧ ∀ join ∈ key.2, join.IsWellNamed := by
  intro key member
  obtain ⟨text, -, keyed⟩ := List.mem_filterMap.1 member
  obtain ⟨value, found, keyed⟩ := Option.bind_eq_some_iff.1 keyed
  obtain ⟨parts, isKey, rfl⟩ := Option.map_eq_some_iff.1 keyed
  exact SortValue.isWellNamed_key? valid found isKey

/-! ### Compiled queries -/

structure Part.IsWellNamed (part : Part) : Prop where
  joins : ∀ join ∈ part.joins, join.IsWellNamed
  conjuncts : ∀ conjunct ∈ part.conjuncts, Filter.IsWellNamed conjunct.filter
  members : ∀ entry ∈ part.members, entry.2.IsWellNamed
  scores : ∀ score ∈ part.scores, score.subject.IsWellNamed

theorem Part.isWellNamed_nothing : Part.nothing.IsWellNamed := by
  constructor <;> simp [Part.nothing]

theorem Term.isNativeName_of_kind {term : Term} (native : term.kind = .native) :
    isNativeName term.field = true := by
  unfold Term.kind at native
  split at native
  all_goals first | cases native | skip
  by_contra attached
  simp [attached] at native

theorem Part.isWellNamed_ofTerm {catalog : Catalog} (valid : catalog.schema.Valid)
    {used : List String} {term : Term} (named : term.IsNamed) {part : Part}
    (compiled : Part.ofTerm catalog used term = .ok part) : part.IsWellNamed := by
  unfold Part.ofTerm at compiled
  split at compiled
  · cases compiled
    exact isWellNamed_nothing
  · cases compiled
    exact isWellNamed_nothing
  · cases compiled
    exact { isWellNamed_nothing with
      joins := Path.isWellNamed_joins term.value
      conjuncts := Path.isWellNamed_conjuncts term.value }
  · obtain ⟨ids, -, equality⟩ := bind_eq_ok.1 compiled
    cases equality
    refine { isWellNamed_nothing with joins := fun join member => ?_ }
    rw [List.mem_singleton.1 member]
    exact Term.isWellNamed_ancestorJoin ids (isTableName_nextAlias (by decide))
  · next native =>
    obtain ⟨filter, filtered, equality⟩ := bind_eq_ok.1 compiled
    cases equality
    refine { isWellNamed_nothing with conjuncts := fun conjunct member => ?_ }
    rw [List.mem_singleton.1 member]
    exact Term.isWellNamed_nativeFilter (Term.isNativeName_of_kind native) filtered
  · obtain ⟨contributions, contributed, equality⟩ := bind_eq_ok.1 compiled
    cases equality
    have kept := Member.isWellNamed_contributions valid named contributed
    refine { isWellNamed_nothing with
      members := fun entry member => ?_
      scores := fun score member => ?_ }
    · obtain ⟨given, among, rfl⟩ := List.mem_map.1 member
      obtain ⟨contribution, isOne, gives⟩ := List.mem_filterMap.1 among
      exact (kept contribution isOne).member given gives
    · obtain ⟨contribution, isOne, gives⟩ := List.mem_flatMap.1 member
      exact (kept contribution isOne).scores score gives

/-- Every term has a part. -/
theorem Part.exists_of_mem {catalog : Catalog} {used : List String} {selector : Selector}
    {parts : List Part} (compiled : ofTerms catalog used selector = .ok parts) {term : Term}
    (member : term ∈ selector) :
    ∃ before, ∃ part ∈ parts, Part.ofTerm catalog before term = .ok part := by
  induction selector generalizing used parts with
  | nil => simp at member
  | cons head terms induction =>
      rw [Part.ofTerms] at compiled
      obtain ⟨first, isFirst, compiled⟩ := bind_eq_ok.1 compiled
      obtain ⟨rest, areRest, equality⟩ := bind_eq_ok.1 compiled
      cases equality
      rcases List.mem_cons.1 member with rfl | among
      · exact ⟨used, first, List.mem_cons_self .., isFirst⟩
      · obtain ⟨before, part, isPart, gives⟩ := induction areRest among
        exact ⟨before, part, List.mem_cons_of_mem _ isPart, gives⟩

/-- Every part is that of a term. -/
theorem Part.exists_term_of_mem {catalog : Catalog} {used : List String} {selector : Selector}
    {parts : List Part} (compiled : ofTerms catalog used selector = .ok parts) {part : Part}
    (isPart : part ∈ parts) :
    ∃ before, ∃ term ∈ selector, ofTerm catalog before term = .ok part := by
  induction selector generalizing used parts with
  | nil =>
      cases compiled
      cases isPart
  | cons term terms induction =>
      rw [ofTerms] at compiled
      obtain ⟨first, isFirst, compiled⟩ := bind_eq_ok.1 compiled
      obtain ⟨rest, areRest, equality⟩ := bind_eq_ok.1 compiled
      cases equality
      rcases List.mem_cons.1 isPart with rfl | later
      · exact ⟨used, term, List.mem_cons_self .., isFirst⟩
      · obtain ⟨before, other, isOther, gives⟩ := induction areRest later
        exact ⟨before, other, List.mem_cons_of_mem _ isOther, gives⟩

theorem Part.isWellNamed_ofTerms {catalog : Catalog} (valid : catalog.schema.Valid)
    {selector : Selector} (named : ∀ term ∈ selector, term.IsNamed) {used : List String}
    {parts : List Part} (compiled : Part.ofTerms catalog used selector = .ok parts) :
    ∀ part ∈ parts, part.IsWellNamed := by
  intro part isPart
  obtain ⟨before, term, isTerm, gives⟩ := exists_term_of_mem compiled isPart
  exact isWellNamed_ofTerm valid (named term isTerm) gives

theorem Join.isWellNamed_addTo {join : Join} {joins : List Join} (named : join.IsWellNamed)
    (others : ∀ other ∈ joins, other.IsWellNamed) :
    ∀ other ∈ join.addTo joins, other.IsWellNamed := by
  induction joins with
  | nil => simpa [Join.addTo] using named
  | cons other rest induction =>
      rw [List.forall_mem_cons] at others
      rw [Join.addTo]
      split
      · split
        · exact List.forall_mem_cons.2 others
        · obtain ⟨first, rest⟩ := others
          refine List.forall_mem_cons.2 ⟨⟨first.table, first.aliasName, ?_⟩, rest⟩
          simp only [Filter.IsWellNamed, Condition.forall_conj, List.mem_cons, List.not_mem_nil,
            or_false, forall_eq_or_imp, forall_eq]
          exact ⟨first.on, named.on⟩
      · exact List.forall_mem_cons.2 ⟨others.1, induction others.2⟩

theorem Join.isWellNamed_merge {joins : List Join} (named : ∀ join ∈ joins, join.IsWellNamed) :
    ∀ join ∈ Join.merge joins, join.IsWellNamed := by
  unfold Join.merge
  refine List.foldlRecOn joins _
    (motive := fun merged : List Join => ∀ join ∈ merged, join.IsWellNamed) ?_ ?_
  · simp
  · exact fun merged kept join member => isWellNamed_addTo (named join member) kept

theorem Selector.isWellNamed_assemble {catalog : Catalog} (valid : catalog.schema.Valid)
    (selector : Selector) {parts : List Part} (named : ∀ part ∈ parts, part.IsWellNamed) :
    (selector.assemble catalog parts).IsWellNamed := by
  have keys := selector.isWellNamed_sortKeys valid
  have grouped : ∀ group ∈ MemberGroup.ofRuns (parts.flatMap Part.members),
      ∀ member ∈ group, member.IsWellNamed := by
    intro group isGroup member among
    have whole := List.mem_flatten.2 ⟨group, isGroup, among⟩
    rw [MemberGroup.flatten_ofRuns] at whole
    obtain ⟨entry, isEntry, rfl⟩ := List.mem_map.1 whole
    obtain ⟨part, isPart, gives⟩ := List.mem_flatMap.1 isEntry
    exact (named part isPart).members entry gives
  have scored : ∀ score ∈ parts.flatMap Part.scores, score.subject.IsWellNamed := by
    intro score member
    obtain ⟨part, isPart, gives⟩ := List.mem_flatMap.1 member
    exact (named part isPart).scores score gives
  refine ⟨Join.isWellNamed_merge ?_, ?_, scored, ?_, rfl⟩
  · intro join member
    rcases List.mem_append.1 member with both | ofGroup
    · rcases List.mem_append.1 both with ofPart | ofKey
      · obtain ⟨part, isPart, gives⟩ := List.mem_flatMap.1 ofPart
        exact (named part isPart).joins join gives
      · obtain ⟨key, isKey, gives⟩ := List.mem_flatMap.1 ofKey
        exact (keys key isKey).2 join gives
    · obtain ⟨group, isGroup, gives⟩ := List.mem_flatMap.1 ofGroup
      exact MemberGroup.isWellNamed_joins (grouped group isGroup) join gives
  · intro conjunct member
    rcases List.mem_append.1 member with ofPart | ofGroup
    · obtain ⟨part, isPart, gives⟩ := List.mem_flatMap.1 ofPart
      exact (named part isPart).conjuncts conjunct gives
    · exact MemberGroup.forall_conjuncts
        (fun group isGroup member isMember => (grouped group isGroup member isMember).condition)
        conjunct ofGroup
  · intro order member
    rcases List.mem_append.1 member with ofKey | ofScore
    · obtain ⟨key, isKey, rfl⟩ := List.mem_map.1 (List.mem_reverse.1 ofKey)
      exact (keys key isKey).1
    · obtain ⟨score, isScore, rfl⟩ := List.mem_map.1 ofScore
      exact Score.isFieldText_label (scored score isScore)

theorem Selector.isWellNamed_compile {catalog : Catalog} (valid : catalog.schema.Valid)
    {selector : Selector} (named : ∀ term ∈ selector, term.IsNamed) {query : Query}
    (compiled : selector.compile catalog = .ok query) : query.IsWellNamed := by
  obtain ⟨parts, isParts, rfl⟩ := map_eq_ok.1 compiled
  exact selector.isWellNamed_assemble valid (Part.isWellNamed_ofTerms valid named isParts)

theorem Finder.isWellNamed_queryFor {catalog : Catalog} (valid : catalog.schema.Valid)
    {finder : Finder} (quiet : finder.debug = false) {selector : Selector}
    (named : ∀ term ∈ selector, term.IsNamed) {single : Bool} {query : Query}
    (compiled : finder.queryFor catalog selector single = .ok query) : query.IsWellNamed := by
  obtain ⟨plain, isPlain, equality⟩ := map_eq_ok.1 compiled
  rw [quiet, if_neg Bool.false_ne_true] at equality
  exact equality ▸ Selector.isWellNamed_compile valid (Finder.isNamed_prepare named) isPlain

end PageTree
