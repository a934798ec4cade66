import PageTree.Proofs.Sql.Patterns
import PageTree.Proofs.Sql.TestReading
import PageTree.Proofs.Text.Bytes
import PageTree.Field.Kind

/-!
What the operators of text fields say of a text. Main statement: the tests that a value is made into
hold of a text where the text stands to the value as the operator says, and their texts, read as
parts of a statement, have the same truth.
-/

namespace PageTree

open Sql Text

/-! ### Orders of texts -/

/-- Does the first text stand in the relation to the second, byte for byte? -/
def Relation.Orders (relation : Relation) (s t : String) : Prop :=
  match relation with
  | .equal => bytes s = bytes t
  | .notEqual => bytes s ≠ bytes t
  | .less => bytes s < bytes t
  | .greater => bytes t < bytes s
  | .lessEqual => bytes s ≤ bytes t
  | .greaterEqual => bytes t ≤ bytes s
  | .bitAnd => False

theorem Value.compareText_spec (s t : String) :
    Value.compareText s t = .eq ∧ bytes s = bytes t ∨
      Value.compareText s t = .lt ∧ bytes s < bytes t ∨
      Value.compareText s t = .gt ∧ bytes t < bytes s := by
  unfold Value.compareText
  split
  · next same => exact .inl ⟨rfl, congrArg bytes same⟩
  · next differ =>
    split
    · next less => exact .inr (.inl ⟨rfl, bytes_lt_iff.2 less⟩)
    · next notLess =>
      refine .inr (.inr ⟨rfl, ?_⟩)
      rcases List.le_iff_lt_or_eq.1 (List.not_lt.1 fun less => notLess (bytes_lt_iff.1 less)) with
        greater | same
      · exact greater
      · exact absurd (bytes_inj.1 same).symm differ

theorem Relation.holdsAt_compareText {relation : Relation} (compares : relation ≠ .bitAnd)
    (s t : String) :
    Sql.Relation.holdsAt relation (Value.compareText s t) = true ↔ relation.Orders s t := by
  have facts {b c : List UInt8} (less : b < c) : b ≠ c ∧ c ≠ b ∧ ¬ c < b ∧ b ≤ c ∧ ¬ c ≤ b := by
    refine ⟨?_, ?_, List.lt_asymm less, List.le_of_lt less, List.not_le.2 less⟩
    · rintro rfl
      exact List.lt_irrefl b less
    · rintro rfl
      exact List.lt_irrefl c less
  rcases Value.compareText_spec s t with ⟨ordered, same⟩ | ⟨ordered, less⟩ | ⟨ordered, greater⟩
  · cases relation with
    | bitAnd => exact absurd rfl compares
    | _ => simp [Sql.Relation.holdsAt, Orders, ordered, same, List.lt_irrefl]
  · cases relation with
    | bitAnd => exact absurd rfl compares
    | _ => simp [Sql.Relation.holdsAt, Orders, ordered, less, facts less]
  · cases relation with
    | bitAnd => exact absurd rfl compares
    | _ => simp [Sql.Relation.holdsAt, Orders, ordered, greater, facts greater]

/-! ### What operators say -/

/-- What an operator says of a text and a value, for all operators but a pattern's and a bit test's.
Parts of a text are found without regard to the case of plain letters, and orders are those of the
bytes. -/
def Operator.Says (operator : Operator) (value text : String) : Prop :=
  match operator with
  | .containsPhrase => lower value.toList <:+: lower text.toList
  | .containsWords => ∀ word ∈ words value.toList, lower word <:+: lower text.toList
  | .startsWith => lower value.toList <+: lower text.toList
  | .endsWith => lower value.toList <:+ lower text.toList
  | .like => False
  | operator => ∃ relation, operator.relation? = some relation ∧ relation.Orders text value

theorem Text.mem_of_mem_fieldsOutside {p : Char → Bool} {cs run : List Char} {c : Char}
    (isRun : run ∈ fieldsOutside p cs) (member : c ∈ run) : c ∈ cs := by
  induction cs generalizing run with
  | nil => cases isRun
  | cons d cs induction =>
      have alone (isAlone : run = [d]) : c ∈ d :: cs := by
        rw [isAlone] at member
        exact List.mem_cons.2 (.inl (List.mem_singleton.1 member))
      have later (isLater : run ∈ fieldsOutside p cs) : c ∈ d :: cs :=
        List.mem_cons_of_mem d (induction isLater member)
      unfold fieldsOutside at isRun
      split at isRun
      · exact later isRun
      · split at isRun
        · exact alone (List.mem_singleton.1 isRun)
        · next e es first runs rest =>
          rw [rest] at later
          split at isRun
          · exact (List.mem_cons.1 isRun).elim alone later
          · rcases List.mem_cons.1 isRun with rfl | isLater
            · rcases List.mem_cons.1 member with rfl | inFirst
              · exact List.mem_cons_self
              · exact List.mem_cons_of_mem d (induction (rest ▸ List.mem_cons_self) inFirst)
            · exact later (List.mem_cons_of_mem first isLater)
        · exact alone (List.mem_singleton.1 isRun)

/-- The tests of a matching hold of a text where the text is as said. Where the column is read by its
name, the texts of the tests have the same truth as parts of a statement. -/
structure Matching.Means (matching : Matching) (target : Column) (affinity : Column → Affinity)
    (binding : Binding) (text : String) (said : Prop) : Prop where
  holds : Truth.all (matching.tests.map (Test.truth affinity binding)) = .yes ↔ said
  reads : target.IsRead → ∀ test ∈ matching.tests,
    test.Reads target text (test.truth affinity binding)

namespace FieldKind

section

variable {target : Column} {affinity : Column → Affinity} {binding : Binding} {value text : String}
  {said : Prop}

theorem means_single {test : Test} (holds : test.truth affinity binding = .yes ↔ said)
    (reads : target.IsRead → test.Reads target text (test.truth affinity binding)) :
    (single test).Means target affinity binding text said where
  holds := by
    rw [← holds, single, List.map_singleton, Truth.all_cons, ← Truth.isYes_iff, Truth.isYes_and,
      ← Truth.isYes_iff]
    exact Eq.congr_left (Bool.and_true _)
  reads := by
    intro isRead other member
    rw [List.mem_singleton.1 member]
    exact reads isRead

variable (holds : binding target = .text text) (valueNoNull : '\x00' ∉ value.toList)

include holds valueNoNull

theorem means_compare (converted : affinity target = .text) {relation : Relation}
    (compares : relation ≠ .bitAnd) :
    (single (.compare target relation (.ofText value))).Means target affinity binding text
      (relation.Orders text value) := by
  rw [Operand.ofText, dropNulls_eq_self valueNoNull]
  refine means_single ?_ fun isRead =>
    Test.reads_compare isRead holds converted valueNoNull compares
  rw [Test.truth_compare holds converted compares, ← Relation.holdsAt_compareText compares]
  cases relation with
  | bitAnd => exact absurd rfl compares
  | _ => simp [compareValues, Value.order, ← Truth.isYes_iff]

omit valueNoNull in
theorem means_like {pattern : String}
    (holdsFor : (Test.like target pattern true).truth affinity binding = .yes ↔ said)
    (noNull : '\x00' ∉ pattern.toList) :
    (single (.like target pattern true)).Means target affinity binding text said :=
  means_single holdsFor fun isRead => Test.reads_like isRead holds noNull

theorem means_contains (noNull : '\x00' ∉ text.toList) :
    (single (.contains target value)).Means target affinity binding text
      (lower value.toList <:+: lower text.toList) := by
  apply means_like holds (Test.truth_contains (congrArg Value.text? holds) noNull valueNoNull)
  rw [dropNulls_eq_self valueNoNull]
  simpa using noNull_escapeLike valueNoNull

theorem means_startsWith (noNull : '\x00' ∉ text.toList) :
    (single (.startsWith target value)).Means target affinity binding text
      (lower value.toList <+: lower text.toList) := by
  apply means_like holds (Test.truth_startsWith (congrArg Value.text? holds) noNull valueNoNull)
  rw [dropNulls_eq_self valueNoNull]
  simpa using noNull_escapeLike valueNoNull

theorem means_endsWith (noNull : '\x00' ∉ text.toList) :
    (single (.endsWith target value)).Means target affinity binding text
      (lower value.toList <:+ lower text.toList) := by
  apply means_like holds (Test.truth_endsWith (congrArg Value.text? holds) noNull valueNoNull)
  rw [dropNulls_eq_self valueNoNull]
  simpa using noNull_escapeLike valueNoNull

omit valueNoNull in
/-- Of several words each has to be found. -/
theorem means_words (noNull : '\x00' ∉ text.toList) {found : List (List Char)}
    (within : ∀ word ∈ found, '\x00' ∉ word) :
    Matching.Means
      { tests := found.map fun word => .contains target (String.ofList word), scores := [] }
      target affinity binding text (∀ word ∈ found, lower word <:+: lower text.toList) := by
  have each {word : List Char} (member : word ∈ found) :
      '\x00' ∉ (String.ofList word).toList := by
    rw [String.toList_ofList]
    exact within word member
  constructor
  · rw [← Truth.isYes_iff, Truth.isYes_all, List.map_map, List.all_map, List.all_eq_true]
    refine forall₂_congr fun word member => ?_
    have found : (Test.contains target (String.ofList word)).truth affinity binding = .yes ↔ _ :=
      Test.truth_contains (congrArg Value.text? holds) noNull (each member)
    rw [String.toList_ofList, ← Truth.isYes_iff] at found
    exact found
  · intro isRead test member
    obtain ⟨word, isWord, rfl⟩ := List.mem_map.1 member
    exact (means_contains holds (each isWord) noNull).reads isRead _ List.mem_cons_self

/-- A text field's tests for a value hold of a text where the text stands to the value as the
operator says, and so do their texts as parts of a statement. -/
theorem matching_means (kind : FieldKind) (isText : kind = .text ∨ kind = .textarea)
    (now : Date.Moment) (operator : Operator) (notPattern : operator ≠ .like)
    (notBits : operator ≠ .bitAnd) (converted : affinity target = .text)
    (noNull : '\x00' ∉ text.toList) :
    ∃ matching, kind.matching? now target operator value = some matching ∧
      matching.Means target affinity binding text (operator.Says value text) := by
  have isMatch : kind.matching? now target operator value = matchText target operator value := by
    rcases isText with rfl | rfl <;> rfl
  rw [isMatch]
  have compared {relation : Relation} (isRelation : operator.relation? = some relation)
      (compares : relation ≠ .bitAnd) :
      (single (.compare target relation (.ofText value))).Means target affinity binding text
        (∃ relation, operator.relation? = some relation ∧ relation.Orders text value) := by
    have meant := means_compare holds valueNoNull converted compares
    rw [isRelation]
    simpa using meant
  cases operator with
  | like => exact absurd rfl notPattern
  | bitAnd => exact absurd rfl notBits
  | containsPhrase =>
      have meant : Matching.Means _ target affinity binding text _ :=
        means_contains holds valueNoNull noNull
      exact ⟨_, rfl, meant.holds, meant.reads⟩
  | containsWords =>
      refine ⟨_, rfl, means_words holds noNull fun word member isNull => ?_⟩
      exact valueNoNull (mem_of_mem_fieldsOutside member isNull)
  | startsWith => exact ⟨_, rfl, means_startsWith holds valueNoNull noNull⟩
  | endsWith => exact ⟨_, rfl, means_endsWith holds valueNoNull noNull⟩
  | equal => exact ⟨_, rfl, compared rfl (by decide)⟩
  | notEqual => exact ⟨_, rfl, compared rfl (by decide)⟩
  | less => exact ⟨_, rfl, compared rfl (by decide)⟩
  | greater => exact ⟨_, rfl, compared rfl (by decide)⟩
  | lessEqual => exact ⟨_, rfl, compared rfl (by decide)⟩
  | greaterEqual => exact ⟨_, rfl, compared rfl (by decide)⟩

end

theorem matching_means_discount :
    ∃ matching,
      FieldKind.text.matching? ⟨0, false⟩ ⟨"field_title", "data"⟩ .containsPhrase "50%_!'S" =
        some matching ∧
      matching.Means ⟨"field_title", "data"⟩ (fun _ => .text) (fun _ => .text "now 50%_!'s off")
        "now 50%_!'s off" (Operator.containsPhrase.Says "50%_!'S" "now 50%_!'s off") :=
  matching_means rfl (by decide) .text (.inl rfl) ⟨0, false⟩ .containsPhrase
    (by decide) (by decide) rfl (by decide)

example : Operator.containsPhrase.Says "50%_!'S" "now 50%_!'s off" :=
  ⟨"now ".toList, " off".toList, by decide⟩

end FieldKind

end PageTree
