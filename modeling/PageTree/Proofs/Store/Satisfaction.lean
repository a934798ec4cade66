import PageTree.Proofs.Compile.Shape
import PageTree.Proofs.Sql.Knowledge
import PageTree.Proofs.Store.Independence
import PageTree.Proofs.Store.Reachable
import PageTree.Proofs.Store.Execution

/-!
Which pages satisfy a term, said without joins and conditions. Main statements: the filter of a term
on a page column holds where the page satisfies the term, and the join of a member has a match that
fulfils the condition of the member where the page has, or lacks, a value that was asked for.
-/

namespace PageTree

open Sql Text

/-! ### Satisfied terms -/

namespace Page

def emptyTable : Table :=
  { columns := columns, records := [] }

def binding (page : Page) : Binding :=
  fun column => emptyTable.cell page.record column.name

def affinity (column : Column) : Affinity :=
  (emptyTable.affinity? column.name).getD .text

end Page

namespace Term

/-- Does a column of the page compare as asked with one of the values? A value that leads nowhere
compares with nothing. -/
def isSatisfiedByColumn (term : Term) (catalog : Catalog) (page : Page) (value : String) : Bool :=
  match term.operator.relation?, resolveNative catalog term.field value with
  | some relation, .ok (some resolved) =>
    (Test.truth Page.affinity page.binding
      (.compare (nativeColumn term.field) relation (.ofValue resolved))).isYes
  | _, _ => false

/-- Does the page satisfy a term on a page column? -/
def isSatisfiedNatively (term : Term) (catalog : Catalog) (page : Page) : Bool :=
  (term.values.any (term.isSatisfiedByColumn catalog page)) != term.negated

end Term

namespace Store

/-- Has the page a value in the table of the field that is accepted? -/
def hasValue (store : Store) (field : Field) (page : Page) (accepted : Value → Bool) : Bool :=
  (store.table? field.table).any fun table =>
    table.rows.any fun row => row.page = page.id && accepted row.data

/-- Does the page satisfy `field operator value`? An empty value asks whether the page has a value
of the field at all. -/
def satisfiesValue (store : Store) (now : Date.Moment) (field : Field) (operator : Operator)
    (page : Page) (value : String) : Bool :=
  if operator.isEquality && value = "" then
    if operator = .equal then !store.hasValue field page fun _ => true
    else store.hasValue field page fun _ => true
  else
    match field.kind? with
    | .ok kind => store.hasValue field page (kind.accepts now operator value)
    | .error _ => false

/-- Does the page satisfy one of the values in one of the fields? -/
def satisfiesAttached (store : Store) (catalog : Catalog) (term : Term) (page : Page) : Bool :=
  term.fields.any fun name =>
    (catalog.schema.field? name).any fun field =>
      term.values.any (store.satisfiesValue catalog.now field term.operator page)

def satisfies (store : Store) (catalog : Catalog) (page : Page) (term : Term) : Bool :=
  if term.kind = .native then term.isSatisfiedNatively catalog page
  else store.satisfiesAttached catalog term page

end Store

/-! ### Conditions -/

namespace Plan

variable {plan : Plan} {binding : Binding}

theorem holds_conj (filters : List Filter) :
    plan.holds binding (.conj filters) = filters.all (plan.holds binding) := by
  rw [holds, Condition.eval_conj, Truth.isYes_all, List.all_map]
  rfl

theorem holds_disj (filters : List Filter) :
    plan.holds binding (.disj filters) = filters.any (plan.holds binding) := by
  rw [holds, Condition.eval_disj, Truth.isYes_any, List.any_map]
  rfl

theorem holds_test (test : Test) :
    plan.holds binding (.test test) = (test.truth plan.affinity binding).isYes := rfl

theorem holds_equal_integer {left : Column} {right : Operand} {m n : Int}
    (converted : plan.affinity left = .integer) (isLeft : binding left = .integer m)
    (isRight : right.value binding = .integer n) :
    plan.holds binding (.test (.compare left .equal right)) = decide (m = n) := by
  have conversion : right.conversion plan.affinity left = .integer := by
    cases right with
    | column other => rw [Operand.conversion, converted]; rfl
    | _ => exact converted
  simp only [holds_test, Test.truth, reduceCtorEq, if_false, conversion, isLeft, isRight,
    Value.convert, compareValues, or_self, Truth.isYes_ofBool, Relation.holdsAt, Value.order,
    Int.compare_eq_eq]

theorem holds_equal_text {left : Column} {value other : String}
    (converted : plan.affinity left = .text) (isLeft : binding left = .text value) :
    plan.holds binding (.test (.compare left .equal (.ofText other))) =
      decide (value = dropNulls other) := by
  have conversion : (Operand.text (dropNulls other)).conversion plan.affinity left = .text :=
    converted
  have text (s : String) : (Value.text s).convert .text = .text s := rfl
  have same (s t : String) : Value.compareText s t = .eq ↔ s = t := by
    unfold Value.compareText
    split
    · next same => exact iff_of_true rfl same
    · next other => split <;> exact iff_of_false (by decide) other
  simp only [holds_test, Test.truth, reduceCtorEq, if_false, Operand.ofText, conversion, isLeft,
    Operand.value, text, compareValues, or_self, Truth.isYes_ofBool, Relation.holdsAt, Value.order,
    same]

end Plan

/-! ### Terms on page columns -/

namespace Sql

theorem Value.convert_ne_null {value : Value} (given : value ≠ .null) (affinity : Affinity) :
    value.convert affinity ≠ .null := by
  cases affinity with
  | text => cases value <;> simp_all [convert, text?]
  | integer =>
      cases value with
      | null => exact absurd rfl given
      | integer n => simp [convert]
      | real x => simp [convert]
      | text s =>
          unfold convert ofNumberText?
          dsimp only
          split
          · simp
          · cases Number.DecimalText.read? _ <;> simp

theorem compareValues_ne_unknown {relation : Relation} {left right : Value} (first : left ≠ .null)
    (second : right ≠ .null) : compareValues relation left right ≠ .unknown := by
  have definite (b : Bool) : Truth.ofBool b ≠ .unknown := by cases b <;> decide
  have bits {value : Value} (given : value ≠ .null) : ∃ n, value.bits? = some n := by
    cases value with
    | null => exact absurd rfl given
    | integer n => exact ⟨_, rfl⟩
    | real x => exact ⟨_, rfl⟩
    | text s => exact ⟨_, rfl⟩
  cases relation with
  | bitAnd =>
      obtain ⟨m, isLeft⟩ := bits first
      obtain ⟨n, isRight⟩ := bits second
      rw [compareValues, isLeft, isRight]
      exact definite _
  | _ =>
      simp only [compareValues, first, second, or_self, if_false]
      exact definite _

theorem Operand.value_ofValue_ne_null (value : String) (binding : Binding) :
    (Operand.ofValue value).value binding ≠ .null := by
  unfold ofValue
  split
  · simp only [Operand.value, Value.ofDigits]
    split <;> simp
  · simp [Operand.value]

end Sql

theorem Table.cell_mem {table : Table} {record : Record} {name : String}
    (isColumn : table.columns.any (fun column => sameName column.1 name) = true)
    (complete : table.columns.length ≤ record.values.length) :
    table.cell record name ∈ record.values := by
  cases found : table.columns.findIdx? fun column => sameName column.1 name with
  | none =>
      rw [List.findIdx?_eq_none_iff] at found
      obtain ⟨column, member, same⟩ := List.any_eq_true.1 isColumn
      rw [found column member] at same
      cases same
  | some place =>
      have inside : place < record.values.length :=
        Nat.lt_of_lt_of_le (List.findIdx?_eq_some_iff_getElem.1 found).1 complete
      rw [Table.cell_eq found (List.getElem?_eq_getElem inside)]
      exact List.getElem_mem inside

theorem Page.binding_ne_null (page : Page) {column : Column}
    (isColumn : columns.any (fun other => sameName other.1 column.name) = true) :
    page.binding column ≠ .null := by
  have member : page.binding column ∈ page.record.values :=
    Table.cell_mem isColumn (Nat.le_refl 7)
  intro missing
  rw [missing] at member
  simp [record] at member

theorem nativeColumn_isColumn {name : String} (native : isNativeName name = true) :
    (nativeColumn name).aliasName = "pages" ∧
      Page.columns.any (fun other => sameName other.1 (nativeColumn name).name) = true := by
  have each : ∀ name ∈ nativeNames, (nativeColumn name).aliasName = "pages" ∧
      Page.columns.any (fun other => sameName other.1 (nativeColumn name).name) = true := by decide
  exact each name (List.contains_iff_mem.1 native)

namespace Plan

variable {plan : Plan} {store : Store}

theorem agreeOnPage_pageBinding (base : plan.base = store.baseSource) (page : Page) :
    plan.AgreeOnPage (plan.pageBinding page.record) page.binding := by
  intro column _ own
  rw [pageBinding, Binding.extend_of_provides own, base]
  rfl

theorem affinity_eq_of_base (base : plan.base = store.baseSource) {column : Column}
    (own : plan.base.provides column = true) : plan.affinity column = Page.affinity column := by
  rw [affinity_of_base own, base]
  rfl

theorem provides_nativeColumn (base : plan.base = store.baseSource) {name : String}
    (native : isNativeName name = true) : plan.base.provides (nativeColumn name) = true := by
  obtain ⟨aliasName, isColumn⟩ := nativeColumn_isColumn native
  rw [base, Source.provides, aliasName, Bool.and_eq_true, Table.hasColumn, Bool.or_eq_true]
  exact ⟨sameName_refl "pages", .inl isColumn⟩

section

variable (base : plan.base = store.baseSource) {catalog : Catalog} {term : Term}
  (native : isNativeName term.field = true) {page : Page} {binding : Binding}
  (same : binding (nativeColumn term.field) = page.binding (nativeColumn term.field))

include base native same

/-- The branch of a value holds where a column of the page compares with the value. -/
theorem holds_nativeBranch {relation : Relation}
    (isRelation : term.operator.relation? = some relation) {given : String} {found : Option String}
    (isFound : Term.resolveNative catalog term.field given = .ok found) :
    plan.holds binding (Term.nativeBranch (nativeColumn term.field) relation found) =
      term.isSatisfiedByColumn catalog page given := by
  have own := provides_nativeColumn base native
  unfold Term.isSatisfiedByColumn
  rw [isRelation, isFound]
  cases found with
  | none => rfl
  | some text =>
      have isOn : Test.IsOn (nativeColumn term.field)
          (.compare (nativeColumn term.field) relation (.ofValue text)) := by
        unfold Operand.ofValue
        split <;> rfl
      dsimp only
      rw [← isOn.truth_on Page.affinity _ Query.idColumn, ← affinity_eq_of_base base own, ← same,
        isOn.truth_on]
      rfl

omit base in
/-- A column of the page is never missing, so a branch is true or false. -/
theorem eval_nativeBranch_ne_unknown (relation : Relation) (found : Option String) :
    (Term.nativeBranch (nativeColumn term.field) relation found).eval
      (Test.truth plan.affinity binding) ≠ .unknown := by
  cases found with
  | none => simp [Term.nativeBranch, Condition.eval]
  | some text =>
      have given := page.binding_ne_null (nativeColumn_isColumn native).2
      rw [← same] at given
      have literal := Operand.value_ofValue_ne_null text binding
      rw [Term.nativeBranch, Condition.eval, Test.truth]
      split
      · exact compareValues_ne_unknown given literal
      · exact compareValues_ne_unknown (Value.convert_ne_null given _)
          (Value.convert_ne_null literal _)

/-- The filter of a term on a page column holds for a row of a page that satisfies the term. -/
theorem holds_nativeFilter {filter : Filter} (filtered : term.nativeFilter catalog = .ok filter) :
    plan.holds binding filter = term.isSatisfiedNatively catalog page := by
  unfold Term.nativeFilter at filtered
  split at filtered
  · cases filtered
  next relation isRelation =>
  obtain ⟨values, each, equality⟩ := bind_eq_ok.1 filtered
  cases equality
  rw [mapM_eq_ok] at each
  have positive : plan.holds binding
      (.disj (values.map (Term.nativeBranch (nativeColumn term.field) relation))) =
        term.values.any (term.isSatisfiedByColumn catalog page) := by
    rw [holds_disj, List.any_map]
    exact (any_eq_of_forall₂ each fun given found isFound =>
      (holds_nativeBranch base native same isRelation isFound).symm).symm
  rw [Term.isSatisfiedNatively, ← positive]
  cases term.negated with
  | false => rw [Bool.bne_false]; rfl
  | true =>
      have known : ∀ t ∈ (values.map (Term.nativeBranch (nativeColumn term.field) relation)).map
          (Condition.eval (Test.truth plan.affinity binding)), t ≠ .unknown := by
        intro t member
        obtain ⟨filter, isFilter, rfl⟩ := List.mem_map.1 member
        obtain ⟨found, -, rfl⟩ := List.mem_map.1 isFilter
        exact eval_nativeBranch_ne_unknown native same relation found
      have negated := Truth.isYes_not (Truth.any_ne_unknown known)
      rw [← Condition.eval_disj] at negated
      rw [Bool.bne_true]
      exact negated

end

end Plan

end PageTree
