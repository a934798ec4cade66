import PageTree.Proofs.Store.Execution

/-!
Windows and totals of queries that are carried out as they are. A store finds the rows of a query
and puts them in order without regard to its window, which is cut out of them last, and it counts
as many rows as it finds.
-/

namespace PageTree

open Sql

namespace Query

theorem windowed_map {α β : Type} (query : Query) (f : α → β) (rows : List α) :
    query.windowed (rows.map f) = (query.windowed rows).map f := by
  unfold windowed
  cases query.window with
  | none => rfl
  | some window =>
      dsimp only
      rw [Window.slice, Window.slice, List.map_take, List.map_drop]

/-- The query whose rows are counted for a total: neither window nor order. -/
def counted (query : Query) : Query :=
  { query with window := none, orders := [] }

theorem columns_statement (query : Query) :
    query.statement.columns =
      ([idColumn.text, templateColumn.text] ++ query.scores.map Score.render)
        ++ (if query.countsFoundRows then [foundRowsColumn] else []) := rfl

theorem render_ne_foundRowsColumn (score : Score) : score.render ≠ foundRowsColumn := by
  -- the equation lemma of `Score.render` would unfold its long texts, so none is asked for
  delta Score.render foundRowsColumn
  intro same
  have first := congrArg (fun text : String => text.toList.head?) same
  simp at first

/-- The counted query reads as the statement without its limit, its order and the mark that asks for
the number of rows. -/
theorem statement_counted (query : Query) :
    query.counted.statement = query.statement.withoutFoundRows.withoutLimit := by
  have kept : ([idColumn.text, templateColumn.text] ++ query.scores.map Score.render).filter
      (fun column => column ≠ foundRowsColumn) =
        [idColumn.text, templateColumn.text] ++ query.scores.map Score.render := by
    rw [List.filter_eq_self, List.forall_mem_append, List.forall_mem_map]
    refine ⟨by decide, fun score _ => ?_⟩
    exact decide_eq_true (render_ne_foundRowsColumn score)
  have mark : (if query.countsFoundRows then [foundRowsColumn] else []).filter
      (fun column => column ≠ foundRowsColumn) = [] := by
    split <;> decide
  have columns : query.statement.withoutFoundRows.columns =
      [idColumn.text, templateColumn.text] ++ query.scores.map Score.render := by
    rw [Statement.withoutFoundRows]
    dsimp only
    rw [columns_statement, List.filter_append, kept, mark, List.append_nil]
  have uncounted : query.counted.statement.columns =
      [idColumn.text, templateColumn.text] ++ query.scores.map Score.render := by
    rw [columns_statement]
    exact List.append_nil _
  exact congrArg
    (fun columns => { query.statement with columns, orders := [], limit := none : Statement })
    (uncounted.trans columns.symm)

end Query

namespace Plan

variable (plan : Plan) (query : Query)

/-- The window is cut out of the rows that the query has without it. -/
theorem assemble_resultSet_eq (comment : String) :
    (plan.resultSet query).assemble =
      query.windowed
        (plan.resultSet { query with window := none, comment }).assemble := by
  rw [ResultSet.assemble, ResultSet.assemble, query.windowed_map]
  refine congrArg (List.map _) ?_
  exact (query.windowed_map _ _).symm

theorem length_rows_resultSet (windowless : query.window = none) :
    (plan.resultSet query).rows.length = (plan.groupedRows query).length := by
  have whole (rows : List Binding) : query.windowed rows = rows := by
    rw [Query.windowed, windowless]
  rw [resultSet, whole, List.length_map, sortedRows, List.length_mergeSort]

theorem length_rows_resultSet_of_window {window : Window} (windowed : query.window = some window) :
    (plan.resultSet query).rows.length =
      min window.count.toNat ((plan.groupedRows query).length - window.start.toNat) := by
  have cut (rows : List Binding) : query.windowed rows = window.slice rows := by
    rw [Query.windowed, windowed]
  rw [resultSet, cut, List.length_map, Window.slice, List.length_take, List.length_drop,
    sortedRows, List.length_mergeSort]

end Plan

namespace Store

variable {store : Store} {query : Query}

theorem execute_of_runnablePlan? {plan : Plan} (plain : query.isPlain = true)
    (runnable : store.runnablePlan? query = some plan) :
    store.execute query = .ok (plan.resultSet query) := by
  rw [execute, if_pos plain, executePlain, runnable]

theorem execute_of_runnablePlan?_eq_none (plain : query.isPlain = true)
    (stuck : store.runnablePlan? query = none) :
    store.execute query = .error (.database .rejectedStatement) := by
  rw [execute, if_pos plain, executePlain, stuck]

theorem foundRows_of_runnablePlan? {plan : Plan} (plain : query.isPlain = true)
    (runnable : store.runnablePlan? query = some plan) :
    store.foundRows query = .ok (plan.groupedRows query).length := by
  rw [foundRows, if_pos plain, foundRowsPlain, runnable]

/-- Where a query can be carried out, so can the one that is counted. -/
theorem runnablePlan?_counted {plan : Plan} (runnable : store.runnablePlan? query = some plan) :
    store.runnablePlan? query.counted = some plan := by
  have bound := boundPlan?_of_runnablePlan? runnable
  obtain ⟨planned, short⟩ := Option.filter_eq_some_iff.1 runnable
  refine Option.filter_eq_some_iff.2 ⟨?_, short⟩
  unfold plan? at planned ⊢
  split at planned
  · next allowed =>
    rw [Bool.and_eq_true] at allowed
    have small : query.counted.isWithinLimits = true := by
      have size := allowed.2
      simp only [Query.isWithinLimits, Bool.and_eq_true, decide_eq_true_eq] at size ⊢
      exact ⟨⟨size.1.1, Nat.zero_le _⟩, size.2⟩
    have readable : query.counted.isReadable = true := allowed.1
    rw [readable, small, Bool.and_true, if_pos rfl]
    rw [boundPlan?_eq_some] at bound ⊢
    obtain ⟨inner, left, base, resolved⟩ := bound
    refine ⟨inner, left, base, fun column member => resolved column ?_⟩
    rw [Query.columns, List.mem_append] at member ⊢
    rcases member with before | ordered
    · exact .inl before
    · simp [Query.counted] at ordered
  · cases planned

end Store

end PageTree
