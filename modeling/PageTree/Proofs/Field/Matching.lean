import PageTree.Proofs.Compile.Naming
import PageTree.Store.Table

/-!
What a kind of field makes of a value. Its tests read one column and nothing else, so that they can
be judged for a stored value alone, whatever table and alias the column belongs to. Main statement:
the tests of a value hold of a column when the kind accepts what the column holds, and never of a
column that is missing.
-/

namespace PageTree

open Sql Text

/-! ### Tests of one column -/

namespace Sql.Test

/-- Is the test one of the values in a column? -/
def IsOn (target : Column) : Test → Prop
  | .compare _ _ (.column _) => False
  | .compare left _ _ => left = target
  | .like subject _ _ => subject = target
  | .never => True
  | _ => False

def on (target : Column) : Test → Test
  | .compare _ relation right => .compare target relation right
  | .isNull _ => .isNull target
  | .isNotNull _ => .isNotNull target
  | .like _ pattern marked => .like target pattern marked
  | .never => .never

variable {target : Column} {test : Test}

theorem IsOn.eq_of_mem_columns (isOn : test.IsOn target) {column : Column}
    (read : column ∈ test.columns) : column = target := by
  cases test with
  | compare left relation right =>
      cases right with
      | column right => exact isOn.elim
      | integer n => exact (List.mem_singleton.1 read).trans isOn
      | digits run => exact (List.mem_singleton.1 read).trans isOn
      | text value => exact (List.mem_singleton.1 read).trans isOn
  | isNull column => exact isOn.elim
  | isNotNull column => exact isOn.elim
  | like subject pattern marked => exact (List.mem_singleton.1 read).trans isOn
  | never => simp [columns] at read

theorem IsOn.truth_on (isOn : test.IsOn target) (affinity : Column → Affinity) (binding : Binding)
    (other : Column) :
    (test.on other).truth (fun _ => affinity target) (fun _ => binding target) =
      test.truth affinity binding := by
  cases test with
  | compare left relation right =>
      cases right with
      | column right => exact isOn.elim
      | integer n => cases isOn; rfl
      | digits run => cases isOn; rfl
      | text value => cases isOn; rfl
  | isNull column => exact isOn.elim
  | isNotNull column => exact isOn.elim
  | like subject pattern marked => cases isOn; rfl
  | never => rfl

/-- A test on a missing value says nothing, unless it says no of any value. -/
theorem IsOn.truth_null (isOn : test.IsOn target) {affinity : Column → Affinity}
    {binding : Binding} (missing : binding target = .null) :
    test.truth affinity binding = .unknown ∨ test = .never := by
  have converted (kind : Affinity) : Value.null.convert kind = .null := by cases kind <;> rfl
  have unknown (relation : Relation) (right : Value) :
      compareValues relation .null right = .unknown := by
    cases relation <;> simp [compareValues, Value.bits?]
  cases test with
  | compare left relation right =>
      have isTarget : left = target := by
        cases right with
        | column right => exact isOn.elim
        | integer n => exact isOn
        | digits run => exact isOn
        | text value => exact isOn
      refine .inl ?_
      rw [truth, isTarget, missing]
      split
      · exact unknown relation _
      · dsimp only
        rw [converted]
        exact unknown relation _
  | isNull column => exact isOn.elim
  | isNotNull column => exact isOn.elim
  | like subject pattern marked =>
      cases isOn
      simp [truth, missing, Value.text?]
  | never => exact .inr rfl

/-- A test on a missing value does not hold. -/
theorem IsOn.isYes_null (isOn : test.IsOn target) {affinity : Column → Affinity}
    {binding : Binding} (missing : binding target = .null) :
    (test.truth affinity binding).isYes = false := by
  rcases isOn.truth_null missing with unknown | rfl
  · rw [unknown]
    rfl
  · rfl

end Sql.Test

/-! ### Tests of a kind -/

structure Matching.IsOn (target : Column) (matching : Matching) : Prop where
  tests : ∀ test ∈ matching.tests, test.IsOn target
  scores : ∀ score ∈ matching.scores, score.subject = target

def Matching.on (target : Column) (matching : Matching) : Matching :=
  { tests := matching.tests.map (Test.on target)
    scores := matching.scores.map fun score => { score with subject := target } }

namespace FieldKind

variable {kind : FieldKind} {now : Date.Moment} {target : Column} {operator : Operator}
  {value : String} {matching : Matching}

theorem isOn_single {test : Test} (isOn : test.IsOn target) : (single test).IsOn target :=
  ⟨List.forall_mem_singleton.2 isOn, by simp [single]⟩

theorem isOn_compareWith {relation : Option Relation} {right : Operand}
    (compiled : compareWith target relation right = some matching)
    (literal : ∀ relation, Test.IsOn target (.compare target relation right)) :
    matching.IsOn target := by
  obtain ⟨given, -, rfl⟩ := Option.map_eq_some_iff.1 compiled
  exact isOn_single (literal given)

theorem isOn_matchText (compiled : matchText target operator value = some matching) :
    matching.IsOn target := by
  cases operator with
  | containsPhrase =>
      cases compiled
      refine ⟨List.forall_mem_singleton.2 rfl, fun score member => ?_⟩
      split at member
      · simp at member
      · rw [List.mem_singleton.1 member]
  | containsWords =>
      cases compiled
      refine ⟨fun test member => ?_, by simp⟩
      obtain ⟨word, -, rfl⟩ := List.mem_map.1 member
      rfl
  | like =>
      cases compiled
      exact isOn_single rfl
  | startsWith =>
      cases compiled
      exact isOn_single rfl
  | endsWith =>
      cases compiled
      exact isOn_single rfl
  | equal => exact isOn_compareWith compiled fun _ => rfl
  | notEqual => exact isOn_compareWith compiled fun _ => rfl
  | less => exact isOn_compareWith compiled fun _ => rfl
  | greater => exact isOn_compareWith compiled fun _ => rfl
  | lessEqual => exact isOn_compareWith compiled fun _ => rfl
  | greaterEqual => exact isOn_compareWith compiled fun _ => rfl
  | bitAnd => exact isOn_compareWith compiled fun _ => rfl

theorem isOn_matching? (compiled : kind.matching? now target operator value = some matching) :
    matching.IsOn target := by
  cases kind with
  | text => exact isOn_matchText compiled
  | textarea => exact isOn_matchText compiled
  | integer => exact isOn_compareWith compiled fun _ => rfl
  | page => exact isOn_compareWith compiled fun _ => rfl
  | datetime =>
      simp only [matching?] at compiled
      split at compiled
      · exact isOn_compareWith compiled fun _ => rfl
      · obtain ⟨relation, -, rfl⟩ := Option.map_eq_some_iff.1 compiled
        exact isOn_single trivial

theorem matchText_on (other target : Column) (operator : Operator) (value : String) :
    (matchText target operator value).map (Matching.on other) = matchText other operator value := by
  cases operator with
  | containsPhrase =>
      simp only [matchText, Option.map_some, Matching.on]
      split <;> rfl
  | containsWords =>
      simp only [matchText, Option.map_some, Matching.on, List.map_map]
      rfl
  | _ => rfl

theorem matching?_on (other : Column) :
    (kind.matching? now target operator value).map (Matching.on other) =
      kind.matching? now other operator value := by
  have compared (relation : Option Relation) (n : Int) :
      (compareWith target relation (.integer n)).map (Matching.on other) =
        compareWith other relation (.integer n) := by
    cases relation <;> rfl
  cases kind with
  | text => exact matchText_on other target operator value
  | textarea => exact matchText_on other target operator value
  | integer => exact compared _ _
  | page => exact compared _ _
  | datetime =>
      simp only [matching?]
      split
      · cases ordering? operator <;> rfl
      · cases ordering? operator <;> rfl

/-- Only what a date is compared with when there is no date fails for every value. -/
theorem normalize?_of_never (compiled : kind.matching? now target operator value = some matching)
    (never : .never ∈ matching.tests) : kind = .datetime ∧ Date.normalize? now value = none := by
  have compared {relation : Option Relation} {right : Operand} {found : Matching}
      (compiled : compareWith target relation right = some found) : .never ∉ found.tests := by
    obtain ⟨given, -, rfl⟩ := Option.map_eq_some_iff.1 compiled
    simp [single]
  have text {found : Matching} (compiled : matchText target operator value = some found) :
      .never ∉ found.tests := by
    unfold matchText at compiled
    split at compiled
    · cases compiled
      simp [Test.contains]
    · cases compiled
      simp [Test.contains]
    · cases compiled
      simp [single]
    · cases compiled
      simp [single, Test.startsWith]
    · cases compiled
      simp [single, Test.endsWith]
    · exact compared compiled
  cases kind with
  | text => exact absurd never (text compiled)
  | textarea => exact absurd never (text compiled)
  | integer => exact absurd never (compared compiled)
  | page => exact absurd never (compared compiled)
  | datetime =>
      simp only [matching?] at compiled
      split at compiled
      · exact absurd never (compared compiled)
      · next none => exact ⟨rfl, none⟩

/-- Only a search for words can lack tests. -/
theorem tests_ne_nil (asking : operator = .containsWords → words value.toList ≠ [])
    (compiled : kind.matching? now target operator value = some matching) :
    matching.tests ≠ [] := by
  have compared {relation : Option Relation} {right : Operand}
      (compiled : compareWith target relation right = some matching) : matching.tests ≠ [] := by
    obtain ⟨given, -, rfl⟩ := Option.map_eq_some_iff.1 compiled
    exact List.cons_ne_nil _ _
  have texts (compiled : matchText target operator value = some matching) :
      matching.tests ≠ [] := by
    unfold matchText at compiled
    split at compiled
    · cases compiled
      exact List.cons_ne_nil _ _
    · cases compiled
      exact fun empty => asking rfl (List.map_eq_nil_iff.1 empty)
    · cases compiled
      exact List.cons_ne_nil _ _
    · cases compiled
      exact List.cons_ne_nil _ _
    · cases compiled
      exact List.cons_ne_nil _ _
    · exact compared compiled
  cases kind with
  | text => exact texts compiled
  | textarea => exact texts compiled
  | integer => exact compared compiled
  | page => exact compared compiled
  | datetime =>
      simp only [matching?] at compiled
      split at compiled
      · exact compared compiled
      · obtain ⟨relation, -, rfl⟩ := Option.map_eq_some_iff.1 compiled
        exact List.cons_ne_nil _ _

/-! ### Accepted values -/

/-- Does a stored value satisfy `operator value` as a value of the kind? -/
def accepts (kind : FieldKind) (now : Date.Moment) (operator : Operator) (value : String)
    (data : Value) : Bool :=
  (kind.matching? now ⟨"", "data"⟩ operator value).any fun matching =>
    matching.tests.all fun test =>
      (test.truth (fun _ => kind.affinity) (fun _ => data)).isYes

theorem accepts_eq (compiled : kind.matching? now target operator value = some matching)
    {affinity : Column → Affinity} (converted : affinity target = kind.affinity)
    (binding : Binding) :
    (matching.tests.all fun test => (test.truth affinity binding).isYes) =
      kind.accepts now operator value (binding target) := by
  rw [accepts, ← matching?_on, compiled]
  simp only [Option.map_some, Option.any_some, Matching.on, List.all_map, Function.comp_def]
  rw [Bool.eq_iff_iff, List.all_eq_true, List.all_eq_true]
  refine forall₂_congr fun test member => ?_
  rw [← converted, ((isOn_matching? compiled).tests test member).truth_on]

theorem accepts_null (asking : operator = .containsWords → words value.toList ≠ []) :
    kind.accepts now operator value .null = false := by
  rw [accepts, Option.any_eq_false]
  intro matching compiled
  obtain ⟨test, rest, tests⟩ := List.exists_cons_of_ne_nil (tests_ne_nil asking compiled)
  have isOn := (isOn_matching? compiled).tests test (tests ▸ List.mem_cons_self ..)
  rw [tests, List.all_cons, isOn.isYes_null rfl, Bool.false_and]

end FieldKind

end PageTree
