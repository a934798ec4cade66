import Mathlib.Data.List.Induction
import PageTree.Proofs.Compile.Frame
import PageTree.Proofs.Sql.ConditionTruth

/-!
Joins that are merged by alias. Main statement: a list of joins leaves one record for each alias, in
order of first use, with the kind and the table of the first join under it and the conditions of all
of them; and a statement takes each record once, those that drop rows before those that keep them.
-/

namespace PageTree

open Sql

@[simp]
theorem Sql.Truth.and_self (t : Truth) : t.and t = t := by
  cases t <;> rfl

namespace Join

/-- The joins under an alias, in order. -/
def under (joins : List Join) (aliasName : String) : List Join :=
  joins.filter fun join => join.aliasName = aliasName

/-- What a list of joins leaves under an alias. -/
structure IsLeftBy (joins : List Join) (aliasName : String) (record : Join) : Prop where
  named : record.aliasName = aliasName
  first : ∃ first, (under joins aliasName).head? = some first ∧ record.kind = first.kind ∧
    record.table = first.table
  on : ∀ truth : Test → Truth, record.on.eval truth =
    Truth.all ((under joins aliasName).map fun join => join.on.eval truth)

variable {joins merged : List Join} {join record : Join} {aliasName : String}
  {names : List String}

theorem under_concat_of_eq (joins : List Join) (join : Join) :
    under (joins ++ [join]) join.aliasName = under joins join.aliasName ++ [join] := by
  simp [under]

theorem under_concat_of_ne (joins : List Join) (other : join.aliasName ≠ aliasName) :
    under (joins ++ [join]) aliasName = under joins aliasName := by
  simp [under, other]

theorem under_eq_nil (fresh : join.aliasName ∉ joins.map Join.aliasName) :
    under joins join.aliasName = [] := by
  rw [under, List.filter_eq_nil_iff]
  intro other isOther same
  exact fresh (of_decide_eq_true same ▸ List.mem_map_of_mem isOther)

/-! ### One more join -/

theorem isLeftBy_concat_fresh (fresh : join.aliasName ∉ joins.map Join.aliasName) :
    IsLeftBy (joins ++ [join]) join.aliasName join := by
  have alone : under (joins ++ [join]) join.aliasName = [join] := by
    rw [under_concat_of_eq, under_eq_nil fresh, List.nil_append]
  refine ⟨rfl, ⟨join, by rw [alone, List.head?_cons], rfl, rfl⟩, fun truth => ?_⟩
  rw [alone, List.map_singleton, Truth.all_cons, Truth.all_nil, Truth.and_yes]

namespace IsLeftBy

theorem concat_of_ne (left : IsLeftBy joins aliasName record) (other : join.aliasName ≠ aliasName) :
    IsLeftBy (joins ++ [join]) aliasName record := by
  have same := under_concat_of_ne joins other
  exact ⟨left.named, same ▸ left.first, same ▸ left.on⟩

/-- A further join under the alias only adds its condition. -/
theorem concat_of_on (left : IsLeftBy joins join.aliasName record) {on : Filter}
    (both : ∀ truth : Test → Truth,
      on.eval truth = (record.on.eval truth).and (join.on.eval truth)) :
    IsLeftBy (joins ++ [join]) join.aliasName { record with on } := by
  obtain ⟨first, isFirst, kind, table⟩ := left.first
  refine ⟨left.named, ⟨first, ?_, kind, table⟩, fun truth => ?_⟩
  · rw [under_concat_of_eq, List.head?_append, isFirst, Option.some_or]
  · rw [under_concat_of_eq, List.map_append, Truth.all_append, ← left.on truth, both truth,
      List.map_singleton, Truth.all_cons, Truth.all_nil, Truth.and_yes]

/-- A condition that is there already adds nothing, as it is no truer twice. -/
theorem concat_of_same (left : IsLeftBy joins join.aliasName record)
    (again : record.on.same join.on = true) :
    IsLeftBy (joins ++ [join]) join.aliasName record := by
  refine left.concat_of_on fun truth => ?_
  rw [← Condition.eq_of_same again, Truth.and_self]

theorem concat_of_conj (left : IsLeftBy joins join.aliasName record) :
    IsLeftBy (joins ++ [join]) join.aliasName
      { record with on := .conj [record.on, join.on] } := by
  refine left.concat_of_on fun truth => ?_
  rw [Condition.eval_conj, List.map_cons, List.map_singleton, Truth.all_cons, Truth.all_cons,
    Truth.all_nil, Truth.and_yes]

end IsLeftBy

theorem forall₂_isLeftBy_concat_fresh
    (left : List.Forall₂ (IsLeftBy joins) names merged) (fresh : join.aliasName ∉ names) :
    List.Forall₂ (IsLeftBy (joins ++ [join])) names merged := by
  induction left with
  | nil => exact .nil
  | cons first _ induction =>
      rw [List.mem_cons, not_or] at fresh
      exact .cons (first.concat_of_ne fresh.1) (induction fresh.2)

/-- The record of the alias takes the condition, and all others stay what they are. -/
theorem forall₂_isLeftBy_addTo
    (left : List.Forall₂ (IsLeftBy joins) names merged) (apart : names.Nodup)
    (used : join.aliasName ∈ names) :
    List.Forall₂ (IsLeftBy (joins ++ [join])) names (join.addTo merged) := by
  induction left with
  | nil => cases used
  | @cons name record names records first rest induction =>
      rw [List.nodup_cons] at apart
      rw [addTo]
      by_cases here : record.aliasName = join.aliasName
      · obtain rfl : join.aliasName = name := here.symm.trans first.named
        have others := forall₂_isLeftBy_concat_fresh rest apart.1
        rw [if_pos here]
        split
        · next again => exact .cons (first.concat_of_same again) others
        · exact .cons first.concat_of_conj others
      · rw [if_neg here]
        have elsewhere : join.aliasName ≠ name := fun same => here (first.named.trans same.symm)
        exact .cons (first.concat_of_ne elsewhere)
          (induction apart.2 ((List.mem_cons.1 used).resolve_left elsewhere))

/-! ### Lists of joins -/

theorem eraseDups_concat (names : List String) (name : String) :
    (names ++ [name]).eraseDups =
      if name ∈ names then names.eraseDups else names.eraseDups ++ [name] := by
  rw [List.eraseDups_append]
  by_cases used : name ∈ names
  · simp [used, List.removeAll]
  · simp [used, List.removeAll, List.eraseDups_cons]

theorem map_aliasName_eq (left : List.Forall₂ (IsLeftBy joins) names merged) :
    merged.map Join.aliasName = names := by
  have named := map_eq_map_of_forall₂ left (f := id) (g := Join.aliasName)
    fun _ _ isLeft => isLeft.named.symm
  rw [← named, List.map_id]

theorem merge_concat (joins : List Join) (join : Join) :
    merge (joins ++ [join]) = join.addTo (merge joins) := by
  rw [merge, List.foldl_append]
  rfl

/-- The induction is on the joins added so far, the last one last. -/
theorem forall₂_isLeftBy_merge (joins : List Join) :
    List.Forall₂ (IsLeftBy joins) (joins.map Join.aliasName).eraseDups (merge joins) := by
  induction joins using List.reverseRecOn with
  | nil => exact .nil
  | append_singleton joins join induction =>
      have names := map_aliasName_eq induction
      have apart := nodup_merge joins
      rw [names] at apart
      rw [List.map_append, List.map_singleton, eraseDups_concat, merge_concat]
      by_cases used : join.aliasName ∈ joins.map Join.aliasName
      · rw [if_pos used]
        exact forall₂_isLeftBy_addTo induction apart (List.mem_eraseDups.2 used)
      · have fresh : join.aliasName ∉ (joins.map Join.aliasName).eraseDups :=
          fun again => used (List.mem_eraseDups.1 again)
        rw [if_neg used, addTo_of_notMem (names ▸ fresh)]
        exact List.rel_append (forall₂_isLeftBy_concat_fresh induction fresh)
          (.cons (isLeftBy_concat_fresh used) .nil)

end Join

/-! ### Statements -/

/-- The lines of the joins stand between the first two lines of a statement and the rest. -/
theorem Sql.Statement.lines_eq (s : Statement) :
    s.lines =
      { s with joins := [], leftJoins := [] }.lines.take 2
        ++ s.joins.map (fun join => "JOIN " ++ join)
        ++ s.leftJoins.map (fun join => "LEFT JOIN " ++ join)
        ++ { s with joins := [], leftJoins := [] }.lines.drop 2 := by
  simp only [lines, List.map_nil, List.append_nil, List.append_assoc, List.cons_append,
    List.nil_append, List.take_succ_cons, List.take_zero, List.drop_succ_cons, List.drop_zero]
  rfl

namespace Query

theorem lines_statement (query : Query) :
    query.statement.lines =
      { query with joins := [] }.statement.lines.take 2
        ++ (query.joinsOf .inner).map (fun join => "JOIN " ++ join.render)
        ++ (query.joinsOf .left).map (fun join => "LEFT JOIN " ++ join.render)
        ++ { query with joins := [] }.statement.lines.drop 2 := by
  rw [query.statement.lines_eq]
  simp only [statement, joinTexts, List.map_map, Function.comp_def]
  rfl

theorem perm_orderedJoins (query : Query) : query.orderedJoins.Perm query.joins := by
  have other : query.joinsOf .left = query.joins.filter fun join => !decide (join.kind = .inner) :=
    List.filter_congr fun join _ => by cases join.kind <;> rfl
  rw [orderedJoins, other]
  exact List.filter_append_perm _ query.joins

end Query

/-- Joins are merged into one record for each alias, in order of first use. A statement that takes
them has a line for each record, once: those that drop rows before those that keep them, and either
kind in that order. -/
theorem Join.merged_once (joins : List Join) (query : Query) :
    (merge joins).map Join.aliasName = (joins.map Join.aliasName).eraseDups ∧
      ((merge joins).map Join.aliasName).Nodup ∧
      List.Forall₂ (IsLeftBy joins) (joins.map Join.aliasName).eraseDups (merge joins) ∧
      ∃ inner left : List Join,
        (inner ++ left).Perm (merge joins) ∧
        (inner.Sublist (merge joins) ∧ ∀ join ∈ inner, join.kind = .inner) ∧
        (left.Sublist (merge joins) ∧ ∀ join ∈ left, join.kind = .left) ∧
        { query with joins := merge joins }.statement.lines =
          { query with joins := [] }.statement.lines.take 2
            ++ inner.map (fun join => "JOIN " ++ join.render)
            ++ left.map (fun join => "LEFT JOIN " ++ join.render)
            ++ { query with joins := [] }.statement.lines.drop 2 := by
  let flushed : Query := { query with joins := merge joins }
  have kinds (kind : JoinKind) :
      (flushed.joinsOf kind).Sublist (merge joins) ∧ ∀ join ∈ flushed.joinsOf kind, join.kind = kind :=
    ⟨List.filter_sublist, fun join member => of_decide_eq_true (List.mem_filter.1 member).2⟩
  exact ⟨map_aliasName_eq (forall₂_isLeftBy_merge joins), nodup_merge joins,
    forall₂_isLeftBy_merge joins, flushed.joinsOf .inner, flushed.joinsOf .left,
    flushed.perm_orderedJoins, kinds .inner, kinds .left, flushed.lines_statement⟩

end PageTree
