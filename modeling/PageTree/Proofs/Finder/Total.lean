import PageTree.Proofs.Finder.Window

/-!
The total of a find. Main statement: after a find that returned rows the total is the number of rows
that it returns without its `limit` and `start` terms, which is also the number of rows of the
statement that is counted for it.
-/

namespace PageTree

open Sql

namespace Finder

variable {schema : Schema} {store : Store} {finder : Finder} {selector : Selector}
  {now : Date.Moment} {pageNumber : Option Int}

theorem total_eq_length (names : schema.HasWordNames) (reached : Store.Reachable schema store)
    (comment : isPlainComment (finder.commentFor selector).toList = true) {rows : List Row}
    (found : (finder.find (store.catalog schema now pageNumber) store.engine selector
      false).rows = .ok rows)
    (some : rows ≠ []) :
    ∃ full query result,
      (finder.find (store.catalog schema now pageNumber) store.engine selector.withoutWindow
        false).rows = .ok full ∧
      (finder.find (store.catalog schema now pageNumber) store.engine selector
        false).finder.total = full.length ∧
      finder.queryFor (store.catalog schema now pageNumber) selector false = .ok query ∧
      store.foundRows query = .ok full.length ∧
      query.counted.statement = query.statement.withoutFoundRows.withoutLimit ∧
      store.execute query.counted = .ok result ∧ result.rows.length = full.length := by
  cases compiled : finder.queryFor (store.catalog schema now pageNumber) selector false with
  | error error =>
      rw [find_rows_of_queryFor_error compiled] at found
      cases found
  | ok query =>
      have shorter := queryFor_withoutWindow_of_ok compiled
      have plain := isPlain_of_queryFor names reached comment compiled
      have plainer := isPlain_of_queryFor names reached
        (isPlainComment_commentFor_withoutWindow comment) shorter
      cases runnable : store.runnablePlan? query with
      | none =>
          rw [find_rows_of_runnablePlan?_eq_none plain runnable compiled] at found
          cases found
      | some plan =>
          obtain ⟨returned, total⟩ := find_of_runnablePlan? plain runnable compiled
          rw [returned] at found
          cases found
          have full := (find_of_runnablePlan? plainer runnable shorter).1
          have whole : (plan.resultSet { query with
              window := none, comment := finder.commentFor selector.withoutWindow }).assemble.length
                = (plan.groupedRows query).length := by
            rw [ResultSet.assemble, List.length_map, plan.length_rows_resultSet _ rfl]
            rfl
          refine ⟨_, query, plan.resultSet query.counted, full, ?_, rfl, ?_,
            query.statement_counted, ?_, ?_⟩
          · rw [total some, whole]
          · rw [Store.foundRows_of_runnablePlan? plain runnable, whole]
          · exact Store.execute_of_runnablePlan? plain (Store.runnablePlan?_counted runnable)
          · rw [plan.length_rows_resultSet _ rfl, whole]
            rfl

/-- One row of two is asked for, and both are counted. -/
theorem total_eq_length_titledStore :
    ∃ selector rows full, Selector.read "limit=1" = .ok selector ∧
      (Finder.new.find (titledStore.catalog titleSchema ⟨0, false⟩ none) titledStore.engine
        selector false).rows = .ok rows ∧ rows.length = 1 ∧
      (Finder.new.find (titledStore.catalog titleSchema ⟨0, false⟩ none) titledStore.engine
        selector.withoutWindow false).rows = .ok full ∧
      (Finder.new.find (titledStore.catalog titleSchema ⟨0, false⟩ none) titledStore.engine
        selector false).finder.total = full.length ∧ full.length = 2 := by
  let term : Term :=
    { fields := ["limit"], values := ["1"], operator := .equal, negated := false
      text := "limit=1" }
  let plan : Plan := ⟨[], [], titledStore.baseSource⟩
  let query : Query := { ordinaryQuery with window := some ⟨none, 1⟩ }
  have parsed : Selector.read "limit=1" = .ok [term] := rfl
  have windowless : Selector.withoutWindow [term] = [] := rfl
  have shorter : Finder.new.queryFor (titledStore.catalog titleSchema ⟨0, false⟩ none)
      (Selector.withoutWindow [term]) false = .ok ordinaryQuery := windowless ▸ queryFor_nil
  have window : Selector.window? [term] none = some ⟨none, 1⟩ := by decide
  have compiled : Finder.new.queryFor (titledStore.catalog titleSchema ⟨0, false⟩ none) [term]
      false = .ok query := by
    rw [queryFor_of_withoutWindow shorter, window]
    rfl
  have plain : query.isPlain = true :=
    isPlain_of_queryFor (by decide) Store.reachable_titledStore (by decide) compiled
  have runnable : titledStore.runnablePlan? query = some plan := rfl
  have both : (plan.groupedRows query).length = 2 := by decide
  have one : (plan.resultSet query).assemble.length = 1 := by
    rw [ResultSet.assemble, List.length_map,
      plan.length_rows_resultSet_of_window query rfl, both]
    rfl
  have found := (find_of_runnablePlan? plain runnable compiled).1
  have some : (plan.resultSet query).assemble ≠ [] :=
    List.ne_nil_of_length_pos (one ▸ Nat.one_pos)
  obtain ⟨full, _, result, whole, total, again, counted, -⟩ :=
    total_eq_length (by decide) Store.reachable_titledStore (by decide) found some
  cases compiled.symm.trans again
  have rows : titledStore.foundRows query = .ok 2 := by
    rw [Store.foundRows_of_runnablePlan? plain runnable, both]
    rfl
  refine ⟨[term], _, full, parsed, found, one, whole, total, ?_⟩
  exact Int.ofNat_inj.1 (Except.ok.inj (counted.symm.trans rows))

/-- Where the name of a field opens a comment, an order may hold a limit of its own, which the
statement that is counted has not. -/
theorem total_unclosedStore :
    ∃ selector rows full, Store.Reachable unclosedSchema unclosedStore ∧
      Selector.read
        "sort=a/*, sort=b LIMIT 1/*, id!='*/,(SELECT 1 AS _sort_b) --', start=1, limit=1" =
          .ok selector ∧
      (anyStatus.find unclosedCatalog unclosedStore.engine selector false).rows = .ok rows ∧
      rows.length = 1 ∧
      (anyStatus.find unclosedCatalog unclosedStore.engine selector.withoutWindow false).rows =
        .ok full ∧
      full.length = 1 ∧
      (anyStatus.find unclosedCatalog unclosedStore.engine selector false).finder.total = 2 := by
  obtain ⟨whole, windowed, total⟩ := Unclosed.find_selector
  exact ⟨Unclosed.selector, _, _, Store.reachable_unclosedStore, Unclosed.read_selector, windowed,
    rfl, whole, rfl, total⟩

end Finder

end PageTree
