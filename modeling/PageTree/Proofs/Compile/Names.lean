import PageTree.Proofs.Compile.Shape
import PageTree.Proofs.Sql.Knowledge

/-!
The field names of a term on attached fields, negated or not, each with the column that it asks for.
Main statements: every name adds a member with a condition on that column or on the presence of a
row, and under another alias it adds the same condition.
-/

namespace PageTree

open Sql Text

/-! ### Conditions under another alias -/

namespace Sql

/-- The truth of a test where columns of one name have one value, whatever their table. -/
def Test.truthOf (affinity : String → Affinity) (value : String → Value) : Test → Truth :=
  Test.truth (fun column => affinity column.name) fun column => value column.name

def Condition.ReadsOnly (p : String → Prop) (filter : Condition Test) : Prop :=
  Condition.Forall (fun test => ∀ column ∈ test.columns, p column.name) filter

/-- Do two conditions differ in the aliases of their columns alone? -/
structure Condition.IsAlike (filter other : Condition Test) : Prop where
  eval : ∀ affinity value,
    filter.eval (Test.truthOf affinity value) = other.eval (Test.truthOf affinity value)
  reads : ∀ p, filter.ReadsOnly p ↔ other.ReadsOnly p

namespace Condition.IsAlike

variable {filter other : Condition Test} {filters others : List (Condition Test)}

theorem conj (alike : List.Forall₂ IsAlike filters others) :
    IsAlike (Condition.conj filters) (Condition.conj others) where
  eval affinity value := by
    rw [eval_conj, eval_conj, map_eq_map_of_forall₂ alike fun _ _ one => one.eval affinity value]
  reads p := by
    rw [ReadsOnly, ReadsOnly, forall_conj, forall_conj]
    exact forall_mem_iff_of_forall₂ alike fun _ _ one => one.reads p

theorem disj (alike : List.Forall₂ IsAlike filters others) :
    IsAlike (Condition.disj filters) (Condition.disj others) where
  eval affinity value := by
    rw [eval_disj, eval_disj, map_eq_map_of_forall₂ alike fun _ _ one => one.eval affinity value]
  reads p := by
    rw [ReadsOnly, ReadsOnly, forall_disj, forall_disj]
    exact forall_mem_iff_of_forall₂ alike fun _ _ one => one.reads p

theorem negateIf (alike : filter.IsAlike other) (negate : Bool) :
    (filter.negateIf negate).IsAlike (other.negateIf negate) where
  eval affinity value := by
    cases negate with
    | true => exact congrArg Truth.not (alike.eval affinity value)
    | false => exact alike.eval affinity value
  reads p := by
    rw [ReadsOnly, ReadsOnly, forall_negateIf, forall_negateIf]
    exact alike.reads p

end Condition.IsAlike

theorem Test.IsOn.isAlike {test : Test} {target other : Column} (isOn : test.IsOn target)
    (same : target.name = other.name) :
    Condition.IsAlike (.fragment test) (.fragment (test.on other)) where
  eval affinity value := by
    change test.truthOf affinity value = (test.on other).truthOf affinity value
    have moved := isOn.truth_on (fun column => affinity column.name)
      (fun column => value column.name) other
    rw [truthOf, ← moved, same]
    cases test with
    | compare left relation right =>
        cases right with
        | column right => exact isOn.elim
        | integer n => rfl
        | digits run => rfl
        | text value => rfl
    | isNull column => exact isOn.elim
    | isNotNull column => exact isOn.elim
    | like subject pattern marked => rfl
    | never => rfl
  reads p := by
    rw [Condition.ReadsOnly, Condition.ReadsOnly, Condition.forall_fragment,
      Condition.forall_fragment]
    cases test with
    | compare left relation right =>
        cases right with
        | column right => exact isOn.elim
        | integer n => cases isOn; simp [columns, on, same]
        | digits run => cases isOn; simp [columns, on, same]
        | text value => cases isOn; simp [columns, on, same]
    | isNull column => exact isOn.elim
    | isNotNull column => exact isOn.elim
    | like subject pattern marked => cases isOn; simp [columns, on, same]
    | never => rfl

end Sql

/-! ### Branches -/

/-- Does a term ask for anything? A search for no words does not. -/
def Term.asks (term : Term) : Bool :=
  term.values.any fun value => term.operator ≠ .containsWords || !(words value.toList).isEmpty

namespace Member

structure Branch.IsAlike (branch other : Branch) : Prop where
  blank : branch.isBlank = other.isBlank
  filters : List.Forall₂ Condition.IsAlike branch.filters other.filters

variable {now : Date.Moment} {kind : FieldKind} {target : Column} {operator : Operator}
  {value : String} {found : Branch}

theorem exists_branch_of_branch (branched : branch now kind target operator value = .ok found)
    (aliasName : String) :
    ∃ again, branch now kind ⟨aliasName, target.name⟩ operator value = .ok again ∧
      found.IsAlike again := by
  unfold branch at branched ⊢
  split at branched
  · next blank =>
    cases branched
    rw [if_pos blank]
    refine ⟨_, rfl, rfl, .cons ?_ .nil⟩
    unfold rowFilter
    split
    · exact ⟨fun _ _ => rfl, fun p => by
        simp [Condition.ReadsOnly, Condition.forall_test, Test.columns]⟩
    · exact ⟨fun _ _ => rfl, fun p => by
        simp [Condition.ReadsOnly, Condition.forall_test, Test.columns]⟩
  · next given =>
    obtain ⟨matching, matched, rfl⟩ := map_eq_ok.1 branched
    rw [if_neg given]
    have isMatching := FieldKind.matching_eq_ok matched
    have isOn := FieldKind.isOn_matching? isMatching
    have moved : kind.matching? now ⟨aliasName, target.name⟩ operator value =
        some (matching.on ⟨aliasName, target.name⟩) := by
      rw [← FieldKind.matching?_on ⟨aliasName, target.name⟩, isMatching]
      rfl
    refine ⟨.tests (matching.on ⟨aliasName, target.name⟩), ?_, rfl, ?_⟩
    · rw [FieldKind.matching, moved]
      rfl
    · unfold Branch.filters
      dsimp only [Matching.on]
      rw [List.isEmpty_map]
      split
      · exact .nil
      · refine .cons (.conj ?_) .nil
        rw [List.map_map, List.forall₂_map_left_iff, List.forall₂_map_right_iff, List.forall₂_same]
        exact fun test isTest => (isOn.tests test isTest).isAlike rfl

/-- A value asks for nothing when it is a search for no words. -/
theorem filters_eq_nil_iff (branched : branch now kind target operator value = .ok found) :
    found.filters = [] ↔ operator = .containsWords ∧ words value.toList = [] := by
  unfold branch at branched
  split at branched
  · next blank =>
    cases branched
    refine iff_of_false (List.cons_ne_nil _ _) fun search => ?_
    simp [asksForRow, search.1, Operator.isEquality] at blank
  · obtain ⟨matching, matched, rfl⟩ := map_eq_ok.1 branched
    have isMatching := FieldKind.matching_eq_ok matched
    have none : Branch.filters (.tests matching) = [] ↔ matching.tests = [] := by
      rw [Branch.filters]
      split
      · next empty => exact iff_of_true rfl (List.isEmpty_iff.1 empty)
      · next some => exact iff_of_false (List.cons_ne_nil _ _) fun empty => some (by simp [empty])
    rw [none]
    constructor
    · intro empty
      by_contra given
      refine FieldKind.tests_ne_nil (fun search => ?_) isMatching empty
      exact fun wordless => given ⟨search, wordless⟩
    · rintro ⟨rfl, wordless⟩
      cases kind with
      | text | textarea =>
          cases isMatching
          exact List.map_eq_nil_iff.2 wordless
      | integer | page => cases isMatching
      | datetime =>
          simp only [FieldKind.matching?] at isMatching
          split at isMatching <;> cases isMatching

/-- What a branch tests: the values of a column, or the presence of a row. -/
theorem forall_tests_of_branch (branched : branch now kind target operator value = .ok found) :
    ∀ filter ∈ found.filters, Condition.Forall (fun test => test.IsOn target ∨
      found.isBlank = true ∧ (test = .isNull ⟨target.aliasName, "pages_id"⟩ ∨
        test = .isNotNull ⟨target.aliasName, "pages_id"⟩)) filter := by
  unfold branch at branched
  split at branched
  · cases branched
    refine List.forall_mem_singleton.2 ?_
    unfold rowFilter
    split
    · exact (Condition.forall_test _).2 (.inr ⟨rfl, .inl rfl⟩)
    · exact (Condition.forall_test _).2 (.inr ⟨rfl, .inr rfl⟩)
  · obtain ⟨matching, matched, rfl⟩ := map_eq_ok.1 branched
    have isOn := FieldKind.isOn_matching? (FieldKind.matching_eq_ok matched)
    intro filter isFilter
    rw [Branch.filters] at isFilter
    split at isFilter
    · simp at isFilter
    · rw [List.mem_singleton.1 isFilter, Condition.forall_conj, List.forall_mem_map]
      exact fun test isTest => (Condition.forall_fragment test).2 (.inl (isOn.tests test isTest))

/-- Without a value in its column, what was asked for is not there. -/
theorem isYes_of_missing (branched : branch now kind target operator value = .ok found)
    (filled : found.isBlank = false) {affinity : String → Affinity} {values : String → Value}
    (missing : values target.name = .null) :
    ∀ filter ∈ found.filters, (filter.eval (Test.truthOf affinity values)).isYes = false := by
  unfold branch at branched
  split at branched
  · cases branched
    cases filled
  · obtain ⟨matching, matched, rfl⟩ := map_eq_ok.1 branched
    have isOn := FieldKind.isOn_matching? (FieldKind.matching_eq_ok matched)
    intro filter isFilter
    rw [Branch.filters] at isFilter
    split at isFilter
    · simp at isFilter
    · next some =>
      -- The tests are joined by `and`, so one that fails is enough.
      obtain ⟨test, isTest⟩ := List.exists_mem_of_ne_nil matching.tests (by simpa using some)
      rw [List.mem_singleton.1 isFilter, Condition.eval_conj, Truth.isYes_all, List.all_map,
        List.all_map, List.all_eq_false]
      refine ⟨test, isTest, ?_⟩
      have no : (test.truth (fun column => affinity column.name)
          fun column => values column.name).isYes = false :=
        (isOn.tests test isTest).isYes_null missing
      exact Bool.eq_false_iff.1 no

theorem tests_of_mem_scores {matching : Matching}
    (compiled : kind.matching? now target operator value = some matching) {score : Score}
    (isScore : score ∈ matching.scores) : matching.tests = [.contains target value] := by
  have unranked (test : Test) : score ∉ (FieldKind.single test).scores := List.not_mem_nil
  have compared {relation : Option Relation} {right : Operand}
      (compiled : FieldKind.compareWith target relation right = some matching) :
      matching.tests = [.contains target value] := by
    obtain ⟨given, -, rfl⟩ := Option.map_eq_some_iff.1 compiled
    exact absurd isScore (unranked _)
  have text (compiled : FieldKind.matchText target operator value = some matching) :
      matching.tests = [.contains target value] := by
    unfold FieldKind.matchText at compiled
    split at compiled
    · cases compiled
      rfl
    · cases compiled
      exact absurd isScore List.not_mem_nil
    · cases compiled
      exact absurd isScore (unranked _)
    · cases compiled
      exact absurd isScore (unranked _)
    · cases compiled
      exact absurd isScore (unranked _)
    · exact compared compiled
  cases kind with
  | text => exact text compiled
  | textarea => exact text compiled
  | integer => exact compared compiled
  | page => exact compared compiled
  | datetime =>
      simp only [FieldKind.matching?] at compiled
      split at compiled
      · exact compared compiled
      · obtain ⟨relation, -, rfl⟩ := Option.map_eq_some_iff.1 compiled
        exact absurd isScore (unranked _)

theorem exists_test_of_score (branched : branch now kind target operator value = .ok found)
    {score : Score} (isScore : score ∈ found.scores) :
    ∃ filter ∈ found.filters, ∃ test ∈ filter.tests, score.subject ∈ test.columns := by
  have subject := subject_of_mem_scores branched isScore
  unfold branch at branched
  split at branched
  · cases branched
    simp [Branch.scores] at isScore
  · obtain ⟨matching, matched, rfl⟩ := map_eq_ok.1 branched
    have tests := tests_of_mem_scores (FieldKind.matching_eq_ok matched) isScore
    rw [Branch.filters, tests]
    refine ⟨_, List.mem_singleton_self _, .contains target value, ?_, ?_⟩
    · exact List.mem_singleton_self _
    · rw [subject]
      exact List.mem_singleton_self _

/-! ### Members -/

def column (member : Member) (name : String) : Column :=
  ⟨member.aliasName, (splitName name).2⟩

/-- The member is what a name of a term adds. -/
structure IsFor (catalog : Catalog) (term : Term) (name : String) (field : Field)
    (kind : FieldKind) (branches : List Branch) (member : Member) : Prop where
  isField : catalog.schema.field? (splitName name).1 = some field
  isKind : field.kind? = .ok kind
  branched : List.Forall₂ (fun value found =>
    branch catalog.now kind (member.column name) term.operator value = .ok found) term.values
      branches
  table : member.table = field.table
  condition :
    member.condition = (Condition.disj (branches.flatMap Branch.filters)).negateIf term.negated
  blank : member.blank = branches.any Branch.isBlank

theorem exists_of_contribution_eq_ok {catalog : Catalog} {used : List String} {term : Term}
    {name : String} {found : Contribution}
    (compiled : contribution catalog used term name = .ok found) :
    ∃ field kind branches, catalog.schema.field? (splitName name).1 = some field ∧
      field.kind? = .ok kind ∧
      List.Forall₂ (fun value found => branch catalog.now kind
        ⟨nextAlias used field.table, (splitName name).2⟩ term.operator value = .ok found)
          term.values branches ∧
      found =
        { table := field.table
          member :=
            if (branches.flatMap Branch.filters).isEmpty then none
            else some
              { table := field.table, aliasName := nextAlias used field.table
                condition :=
                  (Condition.disj (branches.flatMap Branch.filters)).negateIf term.negated
                blank := branches.any Branch.isBlank }
          scores := branches.flatMap Branch.scores } := by
  unfold contribution at compiled
  dsimp only at compiled
  split at compiled
  · cases compiled
  next field isField =>
  obtain ⟨kind, isKind, compiled⟩ := bind_eq_ok.1 compiled
  obtain ⟨branches, each, equality⟩ := bind_eq_ok.1 compiled
  cases equality
  exact ⟨field, kind, branches, isField, isKind, mapM_eq_ok.1 each, rfl⟩

theorem contribution_of_branched {catalog : Catalog} {used : List String} {term : Term}
    {name : String} {field : Field} {kind : FieldKind} {branches : List Branch}
    (isField : catalog.schema.field? (splitName name).1 = some field)
    (isKind : field.kind? = .ok kind)
    (branched : List.Forall₂ (fun value found => branch catalog.now kind
      ⟨nextAlias used field.table, (splitName name).2⟩ term.operator value = .ok found)
        term.values branches) :
    ∃ found, contribution catalog used term name = .ok found := by
  unfold contribution
  dsimp only
  rw [isField]
  dsimp only
  rw [isKind]
  exact ⟨_, bind_eq_ok.2 ⟨kind, rfl, bind_eq_ok.2 ⟨branches, mapM_eq_ok.2 branched, rfl⟩⟩⟩

/-- A name means the same wherever it stands, and whether the term is negated or not. -/
theorem exists_contribution_of_alike {catalog : Catalog} {used : List String} {term other : Term}
    (values : other.values = term.values) (operator : other.operator = term.operator)
    {name : String} {found : Contribution}
    (compiled : contribution catalog used term name = .ok found) (before : List String) :
    ∃ again, contribution catalog before other name = .ok again := by
  obtain ⟨field, kind, branches, isField, isKind, branched, -⟩ :=
    exists_of_contribution_eq_ok compiled
  obtain ⟨others, again⟩ := exists_forall₂ fun value isValue => by
    obtain ⟨found, -, one⟩ := exists_of_mem_left_forall₂ branched isValue
    obtain ⟨moved, again, -⟩ := exists_branch_of_branch one (nextAlias before field.table)
    exact ⟨moved, again⟩
  rw [← values, ← operator] at again
  exact contribution_of_branched isField isKind again

theorem isEmpty_flatMap_filters {term : Term} {branches : List Branch}
    (branched : List.Forall₂ (fun value found =>
      branch now kind target term.operator value = .ok found) term.values branches) :
    (branches.flatMap Branch.filters).isEmpty = !term.asks := by
  have each : (term.values.any fun value =>
      term.operator ≠ .containsWords || !(words value.toList).isEmpty) =
        branches.any fun found => !found.filters.isEmpty := by
    refine any_eq_of_forall₂ branched fun value found one => ?_
    have none := filters_eq_nil_iff one
    rw [Bool.eq_iff_iff]
    simp only [Bool.or_eq_true, decide_eq_true_eq, Bool.not_eq_true', List.isEmpty_eq_false_iff,
      ne_eq, none, not_and]
    exact ⟨fun given search => given.resolve_left fun other => other search, fun given => by
      by_cases search : term.operator = .containsWords
      · exact .inr (given search)
      · exact .inl search⟩
  rw [Term.asks, each, Bool.eq_iff_iff, List.isEmpty_iff, List.flatMap_eq_nil_iff,
    Bool.not_eq_true', List.any_eq_false]
  simp

/-- The member is what some field, or column of a field, that is called by a name adds. -/
def StandsByName (catalog : Catalog) (term : Term) (name : String) (member : Member) : Prop :=
  ∃ field kind branches, member.IsFor catalog term name field kind branches

namespace IsFor

variable {catalog : Catalog} {term : Term} {name : String} {field : Field} {kind : FieldKind}
  {branches : List Branch} {member : Member}
  (isFor : member.IsFor catalog term name field kind branches)

include isFor

theorem forall_tests : Condition.Forall (fun test => test.IsOn (member.column name) ∨
    member.blank = true ∧ (test = .isNull ⟨member.aliasName, "pages_id"⟩ ∨
      test = .isNotNull ⟨member.aliasName, "pages_id"⟩)) member.condition := by
  rw [isFor.condition, Condition.forall_negateIf, Condition.forall_disj, isFor.blank]
  intro filter isFilter
  obtain ⟨found, isFound, among⟩ := List.mem_flatMap.1 isFilter
  obtain ⟨value, -, one⟩ := exists_of_mem_forall₂ isFor.branched isFound
  intro test isTest
  refine (forall_tests_of_branch one filter among test isTest).imp_right fun present => ?_
  exact ⟨List.any_eq_true.2 ⟨found, isFound, present.1⟩, present.2⟩

/-- Without a value in its column, only a blank value lets a member hold that is not negated. -/
theorem blank_of_isYes (positive : term.negated = false) {affinity : String → Affinity}
    {values : String → Value} (missing : values (splitName name).2 = .null)
    (holds : (member.condition.eval (Test.truthOf affinity values)).isYes = true) :
    member.blank = true := by
  rw [isFor.condition, positive, Condition.negateIf, if_neg Bool.false_ne_true,
    Condition.eval_disj, Truth.isYes_any, List.any_map, List.any_eq_true] at holds
  obtain ⟨filter, isFilter, yes⟩ := holds
  obtain ⟨found, isFound, among⟩ := List.mem_flatMap.1 isFilter
  obtain ⟨value, -, one⟩ := exists_of_mem_forall₂ isFor.branched isFound
  rw [isFor.blank, List.any_eq_true]
  refine ⟨found, isFound, ?_⟩
  by_contra filled
  exact Bool.eq_false_iff.1
    (isYes_of_missing one (Bool.eq_false_iff.2 filled) missing filter among) yes

/-- Members for one name, with the same values and operator, differ in their aliases and in the
negation alone. -/
theorem isAlike {otherTerm : Term} (values : otherTerm.values = term.values)
    (operator : otherTerm.operator = term.operator) {otherField : Field} {otherKind : FieldKind}
    {others : List Branch} {other : Member}
    (isOther : other.IsFor catalog otherTerm name otherField otherKind others) :
    member.table = other.table ∧ member.blank = other.blank ∧
      (Condition.disj (branches.flatMap Branch.filters)).IsAlike
        (Condition.disj (others.flatMap Branch.filters)) := by
  obtain rfl : field = otherField :=
    Option.some.inj (isFor.isField.symm.trans isOther.isField)
  obtain rfl : kind = otherKind := Except.ok.inj (isFor.isKind.symm.trans isOther.isKind)
  have again := isOther.branched
  rw [values, operator] at again
  have alike : List.Forall₂ Branch.IsAlike branches others := by
    refine forall₂_of_forall₂ (fun value found second one two => ?_) isFor.branched again
    obtain ⟨moved, isMoved, same⟩ := exists_branch_of_branch one other.aliasName
    obtain rfl : moved = second := Except.ok.inj (isMoved.symm.trans two)
    exact same
  refine ⟨isFor.table.trans isOther.table.symm, ?_, .disj ?_⟩
  · rw [isFor.blank, isOther.blank]
    exact any_eq_of_forall₂ alike fun _ _ same => same.blank
  · clear isFor isOther again
    induction alike with
    | nil => exact .nil
    | cons first _ induction =>
        rw [List.flatMap_cons, List.flatMap_cons]
        exact List.rel_append first.filters induction

end IsFor

theorem StandsByName.isAlike {catalog : Catalog} {term : Term} {name : String}
    {member other : Member} (stands : member.StandsByName catalog term name)
    (again : other.StandsByName catalog term name) :
    member.table = other.table ∧ member.blank = other.blank ∧
      member.condition.IsAlike other.condition := by
  obtain ⟨field, kind, branches, isFor⟩ := stands
  obtain ⟨otherField, otherKind, others, isOther⟩ := again
  obtain ⟨table, blank, alike⟩ := isFor.isAlike rfl rfl isOther
  rw [isFor.condition, isOther.condition]
  exact ⟨table, blank, alike.negateIf term.negated⟩

/-- What a name of a term that asks for something adds. -/
structure Adds (catalog : Catalog) (used : List String) (term : Term) (name : String)
    (found : Contribution) (member : Member) : Prop where
  given : found.member = some member
  stands : member.StandsByName catalog term name
  table : found.table = member.table
  aliasName : member.aliasName = nextAlias used member.table
  scored : ∀ score ∈ found.scores, ∃ test ∈ member.condition.tests, score.subject ∈ test.columns

theorem exists_adds {catalog : Catalog} {used : List String} {term : Term} (asks : term.asks = true)
    {name : String} {found : Contribution}
    (compiled : contribution catalog used term name = .ok found) :
    ∃ member, Adds catalog used term name found member := by
  obtain ⟨field, kind, branches, isField, isKind, branched, rfl⟩ :=
    exists_of_contribution_eq_ok compiled
  have some : (branches.flatMap Branch.filters).isEmpty = false := by
    rw [isEmpty_flatMap_filters branched, asks, Bool.not_true]
  let member : Member :=
    { table := field.table, aliasName := nextAlias used field.table
      condition := (Condition.disj (branches.flatMap Branch.filters)).negateIf term.negated
      blank := branches.any Branch.isBlank }
  have stands : member.StandsByName catalog term name :=
    ⟨field, kind, branches, isField, isKind, branched, rfl, rfl, rfl⟩
  refine ⟨member, ?_, stands, rfl, rfl, ?_⟩
  · dsimp only
    rw [some, if_neg Bool.false_ne_true]
  · intro score isScore
    obtain ⟨found, isFound, among⟩ := List.mem_flatMap.1 isScore
    obtain ⟨value, -, one⟩ := exists_of_mem_forall₂ branched isFound
    obtain ⟨filter, isFilter, test, isTest, read⟩ := exists_test_of_score one among
    refine ⟨test, ?_, read⟩
    -- Among the tests of the condition: else all of them would differ from it.
    by_contra other
    have others : Condition.Forall (fun a => a ≠ test)
        ((Condition.disj (branches.flatMap Branch.filters)).negateIf term.negated) :=
      fun a member same => other (same ▸ member)
    rw [Condition.forall_negateIf, Condition.forall_disj] at others
    exact others filter (List.mem_flatMap.2 ⟨found, isFound, isFilter⟩) test isTest rfl

theorem exists_members_of_contributions {catalog : Catalog} {term : Term}
    (asks : term.asks = true) {names used : List String} {found : List Contribution}
    (compiled : contributions catalog term used names = .ok found) :
    ∃ members : List Member, found.filterMap Contribution.member = members ∧
      List.Forall₂ (StandsByName catalog term) names members ∧
        members.map Member.aliasName = nextAliases used (members.map Member.table) ∧
          ∀ score ∈ found.flatMap Contribution.scores, ∃ member ∈ members,
            ∃ test ∈ member.condition.tests, score.subject ∈ test.columns := by
  induction names generalizing used found with
  | nil =>
      cases compiled
      exact ⟨[], rfl, .nil, rfl, by simp⟩
  | cons name names induction =>
      rw [contributions] at compiled
      obtain ⟨first, isFirst, compiled⟩ := bind_eq_ok.1 compiled
      obtain ⟨rest, areRest, equality⟩ := bind_eq_ok.1 compiled
      cases equality
      obtain ⟨member, adds⟩ := exists_adds asks isFirst
      obtain ⟨members, given, stand, aliases, scored⟩ := induction areRest
      refine ⟨member :: members, ?_, .cons adds.stands stand, ?_, fun score isScore => ?_⟩
      · rw [List.filterMap_cons, adds.given, given]
      · rw [List.map_cons, List.map_cons, nextAliases, aliases, adds.aliasName, adds.table]
      · rcases List.mem_append.1 isScore with here | later
        · exact ⟨member, List.mem_cons_self .., adds.scored score here⟩
        · obtain ⟨other, isOther, scored⟩ := scored score later
          exact ⟨other, List.mem_cons_of_mem _ isOther, scored⟩

theorem eq_nil_of_contributions {catalog : Catalog} {term : Term} (asks : term.asks = false)
    {names used : List String} {found : List Contribution}
    (compiled : contributions catalog term used names = .ok found) :
    found.filterMap Contribution.member = [] ∧ found.flatMap Contribution.scores = [] := by
  induction names generalizing used found with
  | nil =>
      cases compiled
      exact ⟨rfl, rfl⟩
  | cons name names induction =>
      rw [contributions] at compiled
      obtain ⟨first, isFirst, compiled⟩ := bind_eq_ok.1 compiled
      obtain ⟨rest, areRest, equality⟩ := bind_eq_ok.1 compiled
      cases equality
      obtain ⟨field, kind, branches, -, -, branched, rfl⟩ := exists_of_contribution_eq_ok isFirst
      have none : (branches.flatMap Branch.filters).isEmpty = true := by
        rw [isEmpty_flatMap_filters branched, asks, Bool.not_false]
      have unranked : branches.flatMap Branch.scores = [] := by
        rw [List.flatMap_eq_nil_iff]
        intro found isFound
        rw [List.eq_nil_iff_forall_not_mem]
        intro score isScore
        obtain ⟨value, -, one⟩ := exists_of_mem_forall₂ branched isFound
        obtain ⟨filter, isFilter, -⟩ := exists_test_of_score one isScore
        rw [List.isEmpty_iff, List.flatMap_eq_nil_iff] at none
        rw [none found isFound] at isFilter
        exact List.not_mem_nil isFilter
      obtain ⟨members, scores⟩ := induction areRest
      dsimp only [List.filterMap_cons, List.flatMap_cons]
      rw [none, if_pos rfl, unranked]
      exact ⟨members, scores⟩

theorem exists_contributions_iff {catalog : Catalog} {term : Term} {names used : List String} :
    (∃ found, contributions catalog term used names = .ok found) ↔
      ∀ name ∈ names, ∃ found, contribution catalog [] term name = .ok found := by
  induction names generalizing used with
  | nil => exact iff_of_true ⟨[], rfl⟩ (by simp)
  | cons name names induction =>
      rw [List.forall_mem_cons]
      constructor
      · rintro ⟨found, compiled⟩
        rw [contributions] at compiled
        obtain ⟨first, isFirst, compiled⟩ := bind_eq_ok.1 compiled
        obtain ⟨rest, areRest, -⟩ := bind_eq_ok.1 compiled
        exact ⟨exists_contribution_of_alike rfl rfl isFirst [], induction.1 ⟨rest, areRest⟩⟩
      · rintro ⟨⟨found, isFound⟩, others⟩
        obtain ⟨first, isFirst⟩ := exists_contribution_of_alike rfl rfl isFound used
        obtain ⟨rest, areRest⟩ := induction.2 others
        exact ⟨first :: rest, by
          rw [contributions]
          exact bind_eq_ok.2 ⟨first, isFirst, bind_eq_ok.2 ⟨rest, areRest, rfl⟩⟩⟩

theorem nodup_aliasNames {catalog : Catalog} (apart : catalog.schema.HasApartNames)
    (default : catalog.schema.HasDefaultTables) {term : Term} {names : List String}
    {members : List Member} (stand : List.Forall₂ (StandsByName catalog term) names members)
    (aliases : members.map Member.aliasName = nextAliases [] (members.map Member.table)) :
    ((members.map Member.aliasName).map foldName).Nodup := by
  have fromField : ∀ table ∈ members.map Member.table,
      ∃ field ∈ catalog.schema.fields, table = field.table := by
    intro table isTable
    obtain ⟨member, isMember, rfl⟩ := List.mem_map.1 isTable
    obtain ⟨name, -, field, kind, branches, isFor⟩ := exists_of_mem_forall₂ stand isMember
    exact ⟨field, Schema.mem_fields_of_field? isFor.isField, isFor.table⟩
  rw [aliases]
  refine nodup_nextAliases fun table isTable other isOther different => ?_
  obtain ⟨field, isField, rfl⟩ := fromField table isTable
  obtain ⟨otherField, isOtherField, rfl⟩ := fromField other isOther
  exact Schema.areApart_tables apart default isField isOtherField different

/-- Where the names of a term can be compiled, any of them can, and in its negation as well. -/
theorem exists_contributions_of_subset {catalog : Catalog} {term other : Term}
    (values : other.values = term.values) (operator : other.operator = term.operator)
    {names others used before : List String} (subset : others ⊆ names)
    {found : List Contribution} (compiled : contributions catalog term used names = .ok found) :
    ∃ again, contributions catalog other before others = .ok again := by
  refine exists_contributions_iff.2 fun name isName => ?_
  obtain ⟨found, one⟩ := exists_contributions_iff.1 ⟨found, compiled⟩ name (subset isName)
  exact exists_contribution_of_alike values operator one []

end Member

/-! ### Queries -/

def Query.ofContributions (text comment : String) (found : List Member.Contribution) : Query :=
  let groups := MemberGroup.ofRuns (Part.ofContributions text found).members
  let scores := found.flatMap Member.Contribution.scores
  { joins := Join.merge (groups.flatMap MemberGroup.joins)
    conjuncts := MemberGroup.conjuncts groups
    scores, orders := scores.map Order.ofScore, window := none, comment }

theorem Finder.queryFor_attached {finder : Finder} (unchecked : finder.checkStatus = false)
    (catalog : Catalog) {term : Term} (attached : term.kind = .attached) :
    finder.queryFor catalog [term] false =
      (Member.contributions catalog term [] term.fields).map
        (Query.ofContributions term.text (finder.commentFor [term])) := by
  have other : ∀ given ∈ [term], given.kind ≠ .sort ∧ given.kind ≠ .window := by simp [attached]
  obtain ⟨unsorted, unlimited⟩ :=
    Selector.sortKeys_eq_nil_and_window?_eq_none_of_kind other catalog
  rw [queryFor_eq_map_compile, prepare_of_unchecked unchecked, Selector.compile, Part.ofTerms,
    Part.ofTerm, attached]
  cases Member.contributions catalog term [] term.fields with
  | error error => rfl
  | ok found =>
      simp [Except.map, bind, Except.bind, Part.ofTerms, Selector.assemble, unsorted, unlimited,
        Query.ofContributions, Part.ofContributions, Part.nothing]

namespace Query

/-- The query asks for the members of one term, of which a page has to satisfy one. -/
structure IsForTerm (catalog : Catalog) (term : Term) (members : List Member) (query : Query) :
    Prop where
  stand : List.Forall₂ (Member.StandsByName catalog term) term.fields members
  joins : query.joins = MemberGroup.joins members
  conjuncts : query.conjuncts = MemberGroup.conjuncts [members]
  aliases : members.map Member.aliasName = nextAliases [] (members.map Member.table)
  nodup : ((members.map Member.aliasName).map foldName).Nodup
  scored : ∀ score ∈ query.scores, ∃ member ∈ members, ∃ test ∈ member.condition.tests,
    score.subject ∈ test.columns
  orders : query.orders = query.scores.map Order.ofScore
  window : query.window = none

/-- The contributions of a term make such a query, where the aliases differ. -/
theorem exists_isForTerm_of_nodup {catalog : Catalog} {term : Term} (asks : term.asks = true)
    (named : term.fields ≠ []) {found : List Member.Contribution}
    (compiled : Member.contributions catalog term [] term.fields = .ok found)
    (text comment : String) :
    ∃ members, List.Forall₂ (Member.StandsByName catalog term) term.fields members ∧
      members.map Member.aliasName = nextAliases [] (members.map Member.table) ∧
      (((members.map Member.aliasName).map foldName).Nodup →
        (ofContributions text comment found).IsForTerm catalog term members) := by
  obtain ⟨members, given, stand, aliases, scored⟩ :=
    Member.exists_members_of_contributions asks compiled
  have some : members ≠ [] := by
    rintro rfl
    exact named (List.forall₂_nil_right_iff.1 stand)
  have groups : MemberGroup.ofRuns (Part.ofContributions text found).members = [members] := by
    have runs := MemberGroup.ofRuns_append text some []
    rw [List.append_nil] at runs
    rcases runs with ⟨group, groups, none, -⟩ | whole
    · cases none
    · rw [Part.ofContributions, given, whole]
      rfl
  refine ⟨members, stand, aliases, fun nodup => ⟨stand, ?_, ?_, aliases, nodup, scored, rfl, rfl⟩⟩
  · have unmerged : Join.merge (MemberGroup.joins members) = MemberGroup.joins members := by
      refine Join.merge_eq_self ?_
      rw [MemberGroup.map_aliasName_joins]
      exact List.Nodup.of_map _ nodup
    rw [ofContributions]
    dsimp only
    rw [groups, List.flatMap_singleton, unmerged]
  · rw [ofContributions]
    dsimp only
    rw [groups]

theorem exists_isForTerm {catalog : Catalog} (apart : catalog.schema.HasApartNames)
    (default : catalog.schema.HasDefaultTables) {term : Term} (asks : term.asks = true)
    (named : term.fields ≠ []) {found : List Member.Contribution}
    (compiled : Member.contributions catalog term [] term.fields = .ok found)
    (text comment : String) :
    ∃ members, (ofContributions text comment found).IsForTerm catalog term members := by
  obtain ⟨members, stand, aliases, isForTerm⟩ :=
    exists_isForTerm_of_nodup asks named compiled text comment
  exact ⟨members, isForTerm (Member.nodup_aliasNames apart default stand aliases)⟩

end Query

end PageTree
