import PageTree.Proofs.Compile.Naming
import PageTree.Proofs.Store.Execution

/-!
Unpublished and hidden pages. A find that checks the status adds a term on it to the selector. Main
statement: the rows of the find belong to pages below the bound of that term, whatever the other
terms ask for.
-/

namespace PageTree

open Sql

/-! ### Terms and their conjuncts -/

/-- The filter of a term on a column of the page table is a conjunct of its own. -/
theorem Selector.mem_conjuncts_of_compile {catalog : Catalog} {selector : Selector} {query : Query}
    (compiled : selector.compile catalog = .ok query) {term : Term} (member : term ∈ selector)
    (native : term.kind = .native) :
    ∃ filter, term.nativeFilter catalog = .ok filter ∧ .enclosed filter ∈ query.conjuncts := by
  obtain ⟨parts, areParts, rfl⟩ := map_eq_ok.1 compiled
  obtain ⟨before, part, isPart, gives⟩ := Part.exists_of_mem areParts member
  rw [Part.ofTerm, native] at gives
  obtain ⟨filter, filtered, equality⟩ := bind_eq_ok.1 gives
  cases equality
  refine ⟨filter, filtered, List.mem_append_left _ ?_⟩
  exact List.mem_flatMap.2 ⟨_, isPart, List.mem_singleton_self _⟩

/-! ### The bound on the status -/

def statusColumn : Column :=
  ⟨"pages", "status"⟩

/-- The term that a bound on the status adds. -/
def statusTerm (bound : Int) : Term :=
  Term.single "status" .less (toString bound)

theorem Selector.statusBound?_cases {selector : Selector} {single : Bool} {bound : Int}
    (bounded : selector.statusBound? single = some bound) :
    bound = Status.hidden ∨ bound = Status.unpublished := by
  unfold statusBound? at bounded
  split at bounded
  · split at bounded
    · cases bounded
      exact .inr rfl
    · cases bounded
  · cases bounded
    cases single
    · exact .inl rfl
    · exact .inr rfl

theorem Selector.statusBound?_of_noStatus {selector : Selector} {single : Bool}
    (unasked : ∀ term ∈ selector, term.isStatus = false) :
    selector.statusBound? single = some (if single then Status.unpublished else Status.hidden) := by
  have none : selector.filter Term.isStatus = [] :=
    List.filter_eq_nil_iff.2 fun term member => by simp [unasked term member]
  rw [statusBound?, statusNumbers, none]
  rfl

theorem Selector.statusBound?_of_below {selector : Selector} {single : Bool}
    (below : ∀ term ∈ selector, term.isStatus = true →
      ∀ value ∈ term.values, Term.statusNumber value < Status.unpublished) :
    ∃ bound, selector.statusBound? single = some bound ∧ bound ≤ Status.unpublished := by
  unfold statusBound?
  split
  · next greatest isGreatest =>
    have mentioned : greatest ∈ selector.statusNumbers := List.max?_mem isGreatest
    obtain ⟨term, isTerm, isValue⟩ := List.mem_flatMap.1 mentioned
    obtain ⟨value, among, rfl⟩ := List.mem_map.1 isValue
    obtain ⟨member, status⟩ := List.mem_filter.1 isTerm
    exact ⟨_, if_pos (below term member status value among), Int.le_refl _⟩
  · cases single
    · exact ⟨_, rfl, by decide⟩
    · exact ⟨_, rfl, by decide⟩

theorem Finder.mem_prepare_statusTerm {finder : Finder} (checked : finder.checkStatus = true)
    {selector : Selector} {single : Bool} {bound : Int}
    (bounded : selector.statusBound? single = some bound) :
    statusTerm bound ∈ finder.prepare selector single := by
  have member : statusTerm bound ∈ selector.withStatusBound single := by
    rw [Selector.withStatusBound, bounded]
    exact List.mem_append_right _ (List.mem_singleton_self _)
  unfold Finder.prepare
  rw [if_pos checked]
  cases single
  · exact member
  · exact List.mem_append_left _ member

theorem nativeFilter_statusTerm (catalog : Catalog) {bound : Int}
    (known : bound = Status.hidden ∨ bound = Status.unpublished) :
    (statusTerm bound).nativeFilter catalog =
      .ok (.test (.compare statusColumn .less (.digits (toString bound)))) := by
  rcases known with rfl | rfl
  · rfl
  · rfl

theorem Sql.Value.lt_of_isYes_less {n bound : Int} {run : String}
    (written : Value.ofDigits run.toList = .integer bound)
    (less : (compareValues .less ((Value.integer n).convert .integer)
      ((Value.ofDigits run.toList).convert .integer)).isYes = true) : n < bound := by
  rw [written] at less
  simp only [Value.convert, compareValues, reduceCtorEq, or_self, if_false, Truth.isYes_ofBool,
    Relation.holdsAt, Value.order] at less
  exact Int.compare_eq_lt.1 (of_decide_eq_true less)

theorem ofDigits_bound {bound : Int} (known : bound = Status.hidden ∨ bound = Status.unpublished) :
    Value.ofDigits (toString bound).toList = .integer bound := by
  rcases known with rfl | rfl
  · decide
  · decide

/-- A page in a row of a plan with the bound among its conjuncts is below the bound. -/
theorem Store.status_lt_of_mem_pageRows {store : Store} {query : Query} {plan : Plan}
    (planned : store.boundPlan? query = some plan) {bound : Int}
    (known : bound = Status.hidden ∨ bound = Status.unpublished)
    (bounded : .enclosed (.test (.compare statusColumn .less (.digits (toString bound)))) ∈
      query.conjuncts)
    {page : Page} {binding : Binding} (member : binding ∈ plan.pageRows query page.record) :
    page.status < bound := by
  obtain ⟨-, -, base, resolved⟩ := Store.boundPlan?_eq_some.1 planned
  have own : plan.base.provides statusColumn = true :=
    base ▸ store.provides_of_pageColumn (by decide)
  have named : statusColumn ∈ query.columns := by
    refine List.mem_append_left _ (List.mem_append_left _ (List.mem_append_right _ ?_))
    refine List.mem_flatMap.2 ⟨.compare statusColumn .less (.digits (toString bound)), ?_, ?_⟩
    · exact List.mem_flatMap.2 ⟨_, List.mem_map.2 ⟨_, bounded, rfl⟩, List.mem_singleton_self _⟩
    · simp [Test.columns]
  have status : binding statusColumn = .integer page.status := by
    rw [Plan.eq_cell_of_mem_joinAll (List.mem_filter.1 member).1 (resolved _ named) own, base]
    exact store.cell_status page
  have affinity : plan.affinity statusColumn = .integer := by
    rw [Plan.affinity_of_base own, base]
    exact (by decide : ((Table.affinity? ⟨Page.columns, []⟩ "status").getD .text) = .integer)
  have less := Plan.holds_of_mem_pageRows member bounded
  simp only [Plan.holds, Conjunct.filter, Condition.eval, Test.truth, reduceCtorEq, if_false,
    Operand.conversion, Operand.value, affinity, status] at less
  exact Value.lt_of_isYes_less (ofDigits_bound known) less

theorem Store.id_of_mem_pageRows {store : Store} {query : Query} {plan : Plan}
    (planned : store.boundPlan? query = some plan) {page : Page} {binding : Binding}
    (member : binding ∈ plan.pageRows query page.record) :
    binding Query.idColumn = .integer page.id := by
  obtain ⟨-, -, base, resolved⟩ := Store.boundPlan?_eq_some.1 planned
  have own : plan.base.provides Query.idColumn = true :=
    base ▸ store.provides_of_pageColumn (by decide)
  have named : Query.idColumn ∈ query.columns := by simp [Query.columns]
  rw [Plan.eq_cell_of_mem_joinAll (List.mem_filter.1 member).1 (resolved _ named) own, base]
  exact store.cell_id page

/-! ### Rows of a find -/

/-- A store with a published page, a hidden one and a draft. -/
def threePages : Store :=
  { Store.new ⟨0, false⟩ with
    pages :=
      [⟨1, 0, 0, "home", 1, "", ""⟩, ⟨2, 1, 0, "menu", 1025, "", ""⟩,
        ⟨3, 1, 0, "draft", 2049, "", ""⟩] }

/-- The query for all published pages of such a store. -/
def publishedQuery : Query :=
  { joins := []
    conjuncts :=
      [.enclosed (.test (.compare Query.idColumn .greater (.digits "0"))),
        .enclosed (.test (.compare statusColumn .less (.digits "1024")))]
    scores := [], orders := [], window := none, comment := "" }

end PageTree
