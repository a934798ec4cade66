import PageTree.Proofs.Field.TextMatching
import PageTree.Proofs.Finder.Answers

/-!
Finds by name. A run of digits stands bare in a statement, so that a name is compared with the text
of its number. Main statement: a find for a name returns the pages named like the text that the name
is compared with, which is the name itself unless it is a run of digits that no number is written as.
-/

namespace PageTree

open Number Sql Text

/-! ### Texts of numbers -/

namespace Number

theorem Decimal.point_mem_positional (d : Decimal) : '.' ∈ (d.positional ".0").toList := by
  unfold Decimal.positional
  dsimp only
  split
  · simp
  · split <;> simp

theorem Decimal.point_mem_scientific (d : Decimal) (power : Int → String) :
    '.' ∈ (d.scientific ".0" power).toList := by
  unfold Decimal.scientific
  dsimp only
  rw [String.toList_append]
  refine List.mem_append_left _ ?_
  split
  · next empty => exact absurd (Nat.toList_repr ▸ empty) Nat.toDigits_ne_nil
  · simp
  · simp

/-- Numbers that are no integers are not written as runs of digits. -/
theorem Binary64.isDigits_fifteenDigits (x : Binary64) :
    Number.isDigits x.fifteenDigits.toList = false := by
  have other {text : String} {c : Char} (member : c ∈ text.toList) (noDigit : c.isDigit = false) :
      Number.isDigits text.toList = false := by
    rw [Number.isDigits, List.all_eq_false.2 ⟨c, member, by simp [noDigit]⟩, Bool.and_false]
  cases x with
  | nan => rfl
  | infinite negative =>
      refine @other _ 'I' ?_ (by decide)
      simp [fifteenDigits]
  | finite negative m e =>
      refine @other _ '.' ?_ (by decide)
      unfold fifteenDigits
      dsimp only
      rw [String.toList_append]
      refine List.mem_append_right _ ?_
      split
      · exact Decimal.point_mem_positional _
      · exact Decimal.point_mem_scientific _ _

theorem digitsValue_toString (n : Nat) : digitsValue (toString n).toList = n := by
  rw [Nat.toString_eq_ofList_toDigits, String.toList_ofList]
  exact Nat.ofDigitChars_ten_toDigits

end Number

namespace Sql

/-- The text that a column of texts is compared with for a value. -/
def comparedText (value : String) : String :=
  if isDigits value then ((Value.ofDigits value.toList).text?).getD "" else dropNulls value

theorem Operand.convert_ofValue (value : String) (binding : Binding) :
    ((ofValue value).value binding).convert .text = .text (comparedText value) := by
  unfold ofValue comparedText
  split
  · unfold Operand.value Value.ofDigits
    dsimp only
    split <;> rfl
  · rfl

/-- A text is compared with itself, and a run of digits only when its number is written so. -/
theorem comparedText_eq_self_iff {value : String} (noNull : '\x00' ∉ value.toList) :
    comparedText value = value ↔
      (isDigits value = true → ∃ n : Nat, (n : Int) ≤ maxInt64 ∧ value = toString n) := by
  unfold comparedText
  split
  · next digits =>
    rw [Value.ofDigits]
    split
    · next small =>
      have spelled : ((Value.integer (digitsValue value.toList)).text?).getD "" =
        toString (digitsValue value.toList) := rfl
      rw [spelled]
      constructor
      · exact fun same _ => ⟨_, small, same.symm⟩
      · intro numeral
        obtain ⟨n, -, rfl⟩ := numeral digits
        rw [digitsValue_toString]
    · next large =>
      refine iff_of_false (fun same => ?_) fun numeral => ?_
      · have other := Binary64.isDigits_fifteenDigits (.ofScaledText false ⟨value.toList, [], 0⟩)
        rw [show Binary64.fifteenDigits _ = value from same] at other
        exact absurd digits (by simp [isDigits, other])
      · obtain ⟨n, small, rfl⟩ := numeral digits
        rw [digitsValue_toString] at large
        exact large small
  · next other => exact iff_of_true (dropNulls_eq_self noNull) fun digits => absurd digits other

end Sql

/-! ### Terms on the name -/

namespace Term

variable {term : Term} (field : term.field = "name")

include field

/-- The name of a page stands to the text of a value as the operator says. -/
theorem isSatisfiedByColumn_name {relation : Relation}
    (isRelation : term.operator.relation? = some relation) (compares : relation ≠ .bitAnd)
    (catalog : Catalog) (page : Page) (value : String) :
    term.isSatisfiedByColumn catalog page value = true ↔
      relation.Orders page.name (comparedText value) := by
  have resolved : resolveNative catalog term.field value = .ok (some value) := by
    rw [field]
    rfl
  have column : nativeColumn "name" = ⟨"pages", "name"⟩ := rfl
  have name : page.binding ⟨"pages", "name"⟩ = .text page.name :=
    Table.cell_eq (by decide : Page.columns.findIdx? _ = some 3) rfl
  have affinity : Page.affinity ⟨"pages", "name"⟩ = .text := by decide
  have conversion : (Operand.ofValue value).conversion Page.affinity ⟨"pages", "name"⟩ = .text := by
    unfold Operand.ofValue
    split <;> exact affinity
  have kept : (Value.text page.name).convert .text = .text page.name := rfl
  rw [isSatisfiedByColumn, isRelation, resolved, field, column]
  dsimp only
  rw [Test.truth, if_neg compares]
  dsimp only
  rw [conversion, name, kept, Operand.convert_ofValue, ← Relation.holdsAt_compareText compares]
  cases relation with
  | bitAnd => exact absurd rfl compares
  | _ => simp [compareValues, Value.order]

theorem kind_of_field_eq_name : term.kind = .native := by
  rw [kind, field]
  rfl

end Term

/-! ### Finds -/

namespace Finder

section

variable {schema : Schema} {store : Store} (reached : Store.Reachable schema store)
  {finder : Finder} (unchecked : finder.checkStatus = false) {term : Term} (field : term.field = "name")
  (equal : term.operator = .equal) (positive : term.negated = false) {name : String}
  (values : term.values = [name])
  (comment : finder.debug = true → isPlainComment term.text.toList = true)

include reached unchecked field equal positive values comment

/-- A find for a name returns the pages named like the text that the name is compared with. That is
the name itself, except for a run of digits that begins with a needless zero or is out of range. -/
theorem find_name (now : Date.Moment) (pageNumber : Option Int) :
    ∃ rows,
      (finder.find (store.catalog schema now pageNumber) store.engine [term] false).rows =
        .ok rows ∧
      (finder.find (store.catalog schema now pageNumber) store.unboundedEngine [term] false).rows =
        .ok rows ∧
      store.Shows rows (fun page => page.name = comparedText name) ∧
      ('\x00' ∉ name.toList → (comparedText name = name ↔
        (Sql.isDigits name = true → ∃ n : Nat, (n : Int) ≤ maxInt64 ∧ name = toString n))) := by
  have kind := Term.kind_of_field_eq_name field
  let catalog := store.catalog schema now pageNumber
  let filter : Filter := .test (.compare ⟨"pages", "name"⟩ .equal (.ofValue name))
  have isRelation : term.operator.relation? = some .equal := by rw [equal]; rfl
  have filtered : term.nativeFilter catalog = .ok filter := by
    rw [Term.nativeFilter, isRelation, field, values, positive]
    rfl
  have compiled := queryFor_nativeQuery unchecked kind filtered
  have filters := filtersBy_nativeQuery store (Term.isNativeName_of_kind kind) filtered
    (finder.commentFor [term])
  obtain ⟨rows, found, -, bounded⟩ := find_ids reached.nodup_ids filters compiled
    (isPlainComment_commentFor_singleton unchecked comment)
  have answers := answers_native reached.nodup_ids unchecked compiled comment kind
  refine ⟨rows, bounded (by rfl) (by rfl), found, (answers.shows rows found).congr fun page _ => ?_,
    comparedText_eq_self_iff⟩
  rw [Term.isSatisfiedNatively, values, positive, Bool.bne_false, List.any_cons, List.any_nil,
    Bool.or_false, Term.isSatisfiedByColumn_name field isRelation (by decide)]
  exact bytes_inj

end

theorem find_name_teamStore :
    ∃ selector rows, Selector.read "name=team" = .ok selector ∧
      ({ Finder.new with checkStatus := false }.find
        (teamStore.catalog titleSchema ⟨0, false⟩ none) teamStore.engine selector false).rows =
          .ok rows ∧
      ∀ id, id ∈ rows.map (fun row => Dictionary.find? row "id") ↔ id = some (.integer 3) := by
  let term : Term :=
    { fields := ["name"], values := ["team"], operator := .equal, negated := false
      text := "name=team" }
  have parsed : Selector.read "name=team" = .ok [term] := rfl
  have unchecked : { Finder.new with checkStatus := false }.checkStatus = false := rfl
  have quiet : { Finder.new with checkStatus := false }.debug = true →
      isPlainComment term.text.toList = true := nofun
  have same : comparedText "team" = "team" := rfl
  have field : term.field = "name" := rfl
  obtain ⟨rows, found, -, shows, -⟩ := find_name Store.grown_teamStore.reachable unchecked field
    rfl rfl rfl quiet ⟨0, false⟩ none
  refine ⟨[term], rows, parsed, found, fun id => ?_⟩
  rw [shows.mem_iff, same]
  simp [teamStore]

end Finder

end PageTree
