import PageTree.Proofs.Finder.Meaning

/-!
Terms that leave pages out by their status. Main statement: a page that they find is ruled out by
none of them, and is published unless one of them mentions a number from the mark of unpublished
pages on; a find with such a mention has no bound on the status at all.
-/

namespace PageTree

open Sql

/-! ### Terms on page columns -/

/-- A page with a row satisfies each term on a page column whose filter is a conjunct. -/
theorem Store.isSatisfiedNatively_of_mem_pageRows {store : Store} {query : Query} {plan : Plan}
    (planned : store.boundPlan? query = some plan) {page : Page} {binding : Binding}
    (member : binding ∈ plan.pageRows query page.record) {catalog : Catalog} {term : Term}
    (native : term.kind = .native) {filter : Filter}
    (filtered : term.nativeFilter catalog = .ok filter)
    (isConjunct : .enclosed filter ∈ query.conjuncts) :
    term.isSatisfiedNatively catalog page = true := by
  obtain ⟨-, -, base, resolved⟩ := Store.boundPlan?_eq_some.1 planned
  have isPageColumn := Term.isNativeName_of_kind native
  have own := Plan.provides_nativeColumn base isPageColumn
  have same : plan.holds page.binding filter = term.isSatisfiedNatively catalog page :=
    Plan.holds_nativeFilter base isPageColumn rfl filtered
  rw [← same, ← Plan.holds_of_mem_pageRows member isConjunct]
  refine Plan.holds_congr fun column read => ?_
  obtain ⟨test, isTest, among⟩ := List.mem_flatMap.1 read
  have isColumn := Term.forall_columns_nativeFilter filtered test isTest column among
  have named : column ∈ query.columns := by
    refine List.mem_append_left _ (List.mem_append_left _ (List.mem_append_right _ ?_))
    refine List.mem_flatMap.2 ⟨test, List.mem_flatMap.2 ⟨filter, ?_, isTest⟩, among⟩
    exact List.mem_map.2 ⟨_, isConjunct, rfl⟩
  have agree := Plan.agreeOnPage_of_mem_joinAll base (List.mem_filter.1 member).1
  exact (agree column (resolved column named) (isColumn ▸ own)).symm

/-- Every row of a find belongs to a page that satisfies all terms on page columns, the one that the
find adds among them. -/
theorem Finder.isSatisfiedNatively_of_mem_find {schema : Schema} (valid : schema.Valid)
    {store : Store} {now : Date.Moment} {pageNumber : Option Int} {finder : Finder}
    (quiet : finder.debug = false) {written : String} {selector : Selector}
    (parsed : Selector.read written = .ok selector) {single : Bool} {rows : List Row}
    (found : (finder.find (store.catalog schema now pageNumber) store.engine selector single).rows =
      .ok rows) :
    ∀ row ∈ rows, ∃ page ∈ store.pages,
      Dictionary.find? row "id" = some (.integer page.id) ∧
        ∀ term ∈ finder.prepare selector single, term.kind = .native →
          term.isSatisfiedNatively (store.catalog schema now pageNumber) page = true := by
  intro row isRow
  obtain ⟨query, result, compiled, executed, rfl⟩ := exists_of_find_ok found
  have named := isWellNamed_queryFor valid quiet (Selector.isNamed_of_read parsed) compiled
  obtain ⟨plan, planned, rfl⟩ := Store.execute_eq_ok named.isPlain executed
  obtain ⟨record, isRecord, binding, member, rfl⟩ := Plan.exists_of_mem_assemble isRow
  rw [(Store.boundPlan?_eq_some.1 planned).2.2.1] at isRecord
  obtain ⟨page, isPage, rfl⟩ := List.mem_map.1 isRecord
  refine ⟨page, isPage, ?_, fun term isTerm native => ?_⟩
  · rw [Query.find?_id_ofCells, Store.id_of_mem_pageRows planned member]
    rfl
  · obtain ⟨plain, isPlain, equality⟩ := map_eq_ok.1 compiled
    rw [quiet, if_neg Bool.false_ne_true] at equality
    subst equality
    obtain ⟨filter, filtered, isConjunct⟩ :=
      Selector.mem_conjuncts_of_compile isPlain isTerm native
    exact Store.isSatisfiedNatively_of_mem_pageRows planned member native filtered isConjunct

/-! ### Terms on the status -/

theorem Sql.isYes_compareValues_integer (relation : Relation) (m n : Int) :
    (compareValues relation (.integer m) (.integer n)).isYes =
      if relation = .bitAnd then decide (Number.bitAnd m n ≠ 0)
      else Relation.holdsAt relation (compare m n) := by
  cases relation <;> simp [compareValues, Value.bits?, Value.order]

theorem Sql.Value.ofDigits_of_readInt64? {run : List Char} {n : Int}
    (digits : Number.isDigits run = true) (read : Number.readInt64? run = some n) :
    ofDigits run = .integer n := by
  have signless : Number.readInt64? run = Number.checkInt64 (Number.digitsValue run) := by
    unfold Number.readInt64?
    split
    · simp [Number.isDigits] at digits
    · simp [Number.isDigits] at digits
    · exact if_pos digits
  rw [signless] at read
  obtain ⟨inRange, rfl⟩ := Number.checkInt64_eq_some_iff.1 read
  exact if_pos inRange.2

namespace Term

variable {term : Term}

/-- The number that the status is compared with; a value out of range is none. -/
def statusNumber? (value : String) : Option Int :=
  Number.readInt64? (statusDigits value).toList

def isLabelled (term : Term) : Bool :=
  term.values.any fun value => !Sql.isDigits value

/-- Does a term on the status ask for pages to be left out, and for none to be found? -/
def excludes (term : Term) : Bool :=
  if term.negated then term.operator = .equal else term.operator = .notEqual

/-- Does a term that excludes rule out a status? Several values of an inequality are alternatives,
so that they rule out something only where they are the same. -/
def rulesOut (term : Term) (status : Int) : Bool :=
  if term.negated then
    term.values.any fun value => (statusNumber? value).any fun n =>
      if term.isLabelled then Number.bitAnd status n ≠ 0 else status = n
  else
    term.values.all fun value => statusNumber? value = some status

theorem isDigits_statusDigits (value : String) : Sql.isDigits (statusDigits value) = true := by
  unfold statusDigits
  split
  · assumption
  · unfold Status.ofLabel
    split <;> decide

theorem isSatisfiedByColumn_status (field : term.field = "status") {relation : Relation}
    (isRelation : term.operator.relation? = some relation) (catalog : Catalog) (page : Page)
    {run : String} (digits : Sql.isDigits run = true) {n : Int}
    (written : Value.ofDigits run.toList = .integer n) :
    term.isSatisfiedByColumn catalog page run =
      (compareValues relation (.integer page.status) (.integer n)).isYes := by
  have resolved : resolveNative catalog term.field run = .ok (some run) := by
    rw [field]
    rfl
  have status : page.binding statusColumn = .integer page.status :=
    Table.cell_eq (by decide : Page.columns.findIdx? _ = some 4) rfl
  have affinity : Page.affinity statusColumn = .integer := by decide
  have column : nativeColumn "status" = statusColumn := rfl
  rw [isSatisfiedByColumn, isRelation, resolved, field]
  dsimp only
  rw [Operand.ofValue, if_pos digits, column, Test.truth, status]
  simp only [Operand.value, Operand.conversion, affinity, written, Value.convert, ite_self]

section

variable (isStatus : term.isStatus = true)

include isStatus

theorem resolveStatus_of_isStatus :
    term.resolveStatus =
      { term with
        values := term.values.map statusDigits
        operator := if term.isLabelled && term.operator = .equal then .bitAnd else term.operator } :=
  if_pos isStatus

theorem isStatus_resolveStatus : term.resolveStatus.isStatus = true := by
  rw [resolveStatus_of_isStatus isStatus]
  exact isStatus

theorem relation?_resolveStatus_of_equal (equal : term.operator = .equal) :
    term.resolveStatus.operator.relation? =
      some (if term.isLabelled then .bitAnd else .equal) := by
  rw [resolveStatus_of_isStatus isStatus, equal]
  cases term.isLabelled <;> rfl

theorem relation?_resolveStatus_of_notEqual (notEqual : term.operator = .notEqual) :
    term.resolveStatus.operator.relation? = some .notEqual := by
  rw [resolveStatus_of_isStatus isStatus, notEqual]
  cases term.isLabelled <;> rfl

theorem isSatisfiedByColumn_resolveStatus {relation : Relation}
    (isRelation : term.resolveStatus.operator.relation? = some relation) (catalog : Catalog)
    (page : Page) {value : String} {n : Int} (number : statusNumber? value = some n) :
    term.resolveStatus.isSatisfiedByColumn catalog page (statusDigits value) =
      if relation = .bitAnd then decide (Number.bitAnd page.status n ≠ 0)
      else Relation.holdsAt relation (compare page.status n) := by
  have field : term.resolveStatus.field = "status" := by
    rw [resolveStatus_of_isStatus isStatus, Term.field, of_decide_eq_true isStatus]
    rfl
  have digits := isDigits_statusDigits value
  rw [isSatisfiedByColumn_status field isRelation catalog page digits
    (Value.ofDigits_of_readInt64? digits number), isYes_compareValues_integer]

theorem isSatisfiedNatively_resolveStatus (catalog : Catalog) (page : Page) :
    term.resolveStatus.isSatisfiedNatively catalog page =
      ((term.values.any fun value =>
        term.resolveStatus.isSatisfiedByColumn catalog page (statusDigits value)) !=
          term.negated) := by
  have values : term.resolveStatus.values = term.values.map statusDigits := by
    rw [resolveStatus_of_isStatus isStatus]
  have negated : term.resolveStatus.negated = term.negated := by
    rw [resolveStatus_of_isStatus isStatus]
  rw [isSatisfiedNatively, values, negated, List.any_map]
  rfl

/-- A term that excludes is satisfied only by pages with a status that it does not rule out. -/
theorem rulesOut_eq_false (excludes : term.excludes = true) {catalog : Catalog} {page : Page}
    (satisfied : term.resolveStatus.isSatisfiedNatively catalog page = true) :
    term.rulesOut page.status = false := by
  rw [isSatisfiedNatively_resolveStatus isStatus] at satisfied
  unfold Term.excludes at excludes
  unfold rulesOut
  cases negated : term.negated with
  | true =>
      rw [negated, if_pos rfl, decide_eq_true_eq] at excludes
      rw [negated, Bool.bne_true, Bool.not_eq_true', List.any_eq_false] at satisfied
      rw [if_pos rfl, List.any_eq_false]
      intro value member
      cases number : statusNumber? value with
      | none => simp
      | some n =>
          have differs := satisfied value member
          rw [isSatisfiedByColumn_resolveStatus isStatus
            (relation?_resolveStatus_of_equal isStatus excludes) catalog page number] at differs
          cases labelled : term.isLabelled with
          | true => simpa [labelled] using differs
          | false => simpa [labelled, Relation.holdsAt] using differs
  | false =>
      rw [negated, if_neg Bool.false_ne_true, decide_eq_true_eq] at excludes
      rw [negated, Bool.bne_false, List.any_eq_true] at satisfied
      obtain ⟨value, member, differs⟩ := satisfied
      rw [if_neg Bool.false_ne_true, List.all_eq_false]
      refine ⟨value, member, fun same => ?_⟩
      rw [isSatisfiedByColumn_resolveStatus isStatus
        (relation?_resolveStatus_of_notEqual isStatus excludes) catalog page
          (of_decide_eq_true same)] at differs
      simp [Relation.holdsAt] at differs

end

end Term

/-! ### Finds that exclude -/

/-- Does a term on the status alone mention a number from the mark of unpublished pages on? -/
def Selector.mentionsUnpublished (selector : Selector) : Bool :=
  selector.statusNumbers.any fun n => Status.unpublished ≤ n

theorem Selector.statusBound?_of_mentionsUnpublished {selector : Selector}
    (mentions : selector.mentionsUnpublished = true) (single : Bool) :
    selector.statusBound? single = none := by
  obtain ⟨n, mentioned, large⟩ := List.any_eq_true.1 mentions
  unfold statusBound?
  split
  · next greatest isGreatest =>
    have most : n ≤ greatest := (List.max?_eq_some_iff.1 isGreatest).2 n mentioned
    exact if_neg (Int.not_lt.2 (Int.le_trans (of_decide_eq_true large) most))
  · next empty =>
    rw [List.max?_eq_none_iff] at empty
    rw [empty] at mentioned
    cases mentioned

theorem Selector.exists_statusBound?_of_silent {selector : Selector}
    (silent : selector.mentionsUnpublished = false) (single : Bool) :
    ∃ bound, selector.statusBound? single = some bound ∧ bound ≤ Status.unpublished := by
  refine statusBound?_of_below fun term isTerm isStatus value isValue => ?_
  have mentioned : Term.statusNumber value ∈ selector.statusNumbers :=
    List.mem_flatMap.2
      ⟨term, List.mem_filter.2 ⟨isTerm, isStatus⟩, List.mem_map.2 ⟨value, isValue, rfl⟩⟩
  have small := List.any_eq_false.1 silent _ mentioned
  rw [decide_eq_true_eq] at small
  exact Int.not_le.1 small

namespace Finder

variable {finder other : Finder} {selector : Selector} {single : Bool}

theorem rows_find_congr {catalog : Catalog} {selector' : Selector}
    (same : finder.queryFor catalog selector single = other.queryFor catalog selector' single)
    (engine : Engine) :
    (finder.find catalog engine selector single).rows =
      (other.find catalog engine selector' single).rows := by
  unfold find
  rw [same]
  cases other.queryFor catalog selector' single with
  | error => rfl
  | ok query =>
      dsimp only
      cases engine.execute query with
      | error => rfl
      | ok result =>
          dsimp only
          split
          · rfl
          · rcases resolveTotal engine query result.assemble.length single with ⟨_ | total, _⟩
            · rfl
            · rfl

/-- A mention of such a number takes the bound away, whatever the term with the mention asks. -/
theorem prepare_of_mentionsUnpublished (checked : finder.checkStatus = true)
    (mentions : selector.mentionsUnpublished = true) (single : Bool) :
    finder.prepare selector single =
      { finder with checkStatus := false }.prepare (selector.map Term.resolveStatus) single := by
  have unbounded : selector.withStatusBound single = selector.map Term.resolveStatus := by
    rw [Selector.withStatusBound, Selector.statusBound?_of_mentionsUnpublished mentions]
    exact List.append_nil _
  unfold prepare
  rw [if_pos checked, unbounded]
  rfl

theorem mem_prepare_resolveStatus (checked : finder.checkStatus = true) {term : Term}
    (member : term ∈ selector) : term.resolveStatus ∈ finder.prepare selector single := by
  have among : term.resolveStatus ∈ selector.withStatusBound single :=
    List.mem_append_left _ (List.mem_map_of_mem member)
  unfold prepare
  rw [if_pos checked]
  cases single
  · exact among
  · exact List.mem_append_left _ among

end Finder

theorem status_lt_of_isSatisfiedNatively {bound : Int}
    (known : bound = Status.hidden ∨ bound = Status.unpublished) {catalog : Catalog} {page : Page}
    (satisfied : (statusTerm bound).isSatisfiedNatively catalog page = true) :
    page.status < bound := by
  have digits : isDigits (toString bound) = true := by rcases known with rfl | rfl <;> decide
  have below : (statusTerm bound).isSatisfiedByColumn catalog page (toString bound) = true := by
    simpa [Term.isSatisfiedNatively, statusTerm, Term.single] using satisfied
  have less : (statusTerm bound).operator.relation? = some .less := rfl
  rw [Term.isSatisfiedByColumn_status rfl less catalog page digits (ofDigits_bound known),
    isYes_compareValues_integer] at below
  exact Int.compare_eq_lt.1 (of_decide_eq_true below)

/-- Terms on the status that only exclude rule out what they say. Unpublished pages stay out of
sight only as long as no such term mentions them: with a mention, the find is one that does not
check the status. -/
theorem Finder.find_of_excludes {schema : Schema} (valid : schema.Valid) (store : Store)
    (now : Date.Moment) (pageNumber : Option Int) {finder : Finder}
    (checked : finder.checkStatus = true) (quiet : finder.debug = false) {written : String}
    {selector : Selector} (parsed : Selector.read written = .ok selector)
    (excluding : ∀ term ∈ selector, term.isStatus = true → term.excludes = true) (single : Bool) :
    let rows :=
      (finder.find (store.catalog schema now pageNumber) store.engine selector single).rows
    (∀ found, rows = .ok found → ∀ row ∈ found, ∃ page ∈ store.pages,
      Dictionary.find? row "id" = some (.integer page.id) ∧
        (∀ term ∈ selector, term.isStatus = true → term.rulesOut page.status = false) ∧
          (page.status < Status.unpublished ∨ selector.mentionsUnpublished = true)) ∧
      (selector.mentionsUnpublished = true →
        rows = ({ finder with checkStatus := false }.find (store.catalog schema now pageNumber)
          store.engine (selector.map Term.resolveStatus) single).rows) := by
  refine ⟨fun found isFound row isRow => ?_, fun mentions => ?_⟩
  · obtain ⟨page, isPage, isId, satisfied⟩ :=
      isSatisfiedNatively_of_mem_find valid quiet parsed isFound row isRow
    refine ⟨page, isPage, isId, fun term isTerm isStatus => ?_, ?_⟩
    · exact Term.rulesOut_eq_false isStatus (excluding term isTerm isStatus)
        (satisfied _ (mem_prepare_resolveStatus checked isTerm)
          (Term.kind_of_isStatus (Term.isStatus_resolveStatus isStatus)))
    · rw [or_iff_not_imp_right, Bool.not_eq_true]
      intro silent
      obtain ⟨bound, bounded, most⟩ := Selector.exists_statusBound?_of_silent silent single
      have known := Selector.statusBound?_cases bounded
      exact Int.lt_of_lt_of_le (status_lt_of_isSatisfiedNatively known
        (satisfied _ (mem_prepare_statusTerm checked bounded) rfl)) most
  · refine rows_find_congr ?_ store.engine
    rw [queryFor, prepare_of_mentionsUnpublished checked mentions]
    rfl

/-- A term that excludes pages that are marked as unpublished and as nothing else. -/
def noDrafts : Term :=
  { fields := ["status"], values := ["unpublished"], operator := .notEqual, negated := false
    text := "status!=unpublished" }

def noDraftsQuery : Query :=
  { joins := []
    conjuncts := [.enclosed (.test (.compare statusColumn .notEqual (.digits "2048")))]
    scores := [], orders := [], window := none, comment := "" }

/-- The draft of a store is found, as its status is more than the mark alone. -/
theorem Finder.find_of_excludes_threePages :
    Selector.read "status!=unpublished" = .ok [noDrafts] ∧ noDrafts.excludes = true ∧
      (∀ page ∈ threePages.pages, page.id = 3 → page.status = 2049) ∧
        ∃ rows, (Finder.new.find (threePages.catalog titleSchema ⟨0, false⟩ none) threePages.engine
            [noDrafts] false).rows = .ok rows ∧
          (rows.map fun row => Dictionary.find? row "id").Perm
            [some (.integer 1), some (.integer 2), some (.integer 3)] ∧
          (∀ row ∈ rows, ∃ page ∈ threePages.pages,
            Dictionary.find? row "id" = some (.integer page.id) ∧
              noDrafts.rulesOut page.status = false) ∧
          ({ Finder.new with checkStatus := false }.find
            (threePages.catalog titleSchema ⟨0, false⟩ none) threePages.engine
              [noDrafts.resolveStatus] false).rows = .ok rows := by
  have parsed : Selector.read "status!=unpublished" = .ok [noDrafts] := rfl
  have excludes : noDrafts.excludes = true := by decide
  have compiled : Finder.new.queryFor (threePages.catalog titleSchema ⟨0, false⟩ none) [noDrafts]
      false = .ok noDraftsQuery := rfl
  let plan : Plan := ⟨[], [], threePages.baseSource⟩
  have planned : threePages.boundPlan? noDraftsQuery = some plan := rfl
  have executed : threePages.engine.execute noDraftsQuery = .ok (plan.resultSet noDraftsQuery) :=
    rfl
  have found := find_rows compiled executed rfl
  have kept : (threePages.pages.filter fun page =>
      !(plan.pageRows noDraftsQuery page.record).isEmpty) = threePages.pages := by decide
  have ids := Store.perm_ids_filter planned rfl
  rw [kept] at ids
  have valid : titleSchema.Valid := by decide
  have checked : Finder.new.checkStatus = true := rfl
  have excluding : ∀ term ∈ [noDrafts], term.isStatus = true → term.excludes = true := by decide
  obtain ⟨ruled, unbounded⟩ :=
    find_of_excludes valid threePages ⟨0, false⟩ none checked rfl parsed excluding false
  refine ⟨parsed, excludes, by decide, _, found, ids, fun row member => ?_, ?_⟩
  · obtain ⟨page, isPage, isId, spared, -⟩ := ruled _ found row member
    exact ⟨page, isPage, isId, spared _ (List.mem_singleton_self _) rfl⟩
  · exact (unbounded (by decide)).symm.trans found

end PageTree
