import PageTree.Sql.Truth

/-!
Truth of conditions that are put together by merging nested connectives. Merging and leaving a lone
operand bare change the tree and keep its truth.
-/

namespace PageTree.Sql

namespace Truth

@[simp] theorem any_cons (t : Truth) (ts : List Truth) : any (t :: ts) = t.or (any ts) :=
  rfl

@[simp] theorem all_nil : all [] = .yes :=
  rfl

@[simp] theorem any_nil : any [] = .no :=
  rfl

@[simp] theorem and_yes (t : Truth) : t.and .yes = t := by
  cases t <;> rfl

@[simp] theorem yes_and (t : Truth) : Truth.yes.and t = t := by
  cases t <;> rfl

@[simp] theorem or_no (t : Truth) : t.or .no = t := by
  cases t <;> rfl

@[simp] theorem no_or (t : Truth) : Truth.no.or t = t := by
  cases t <;> rfl

theorem and_assoc (t s r : Truth) : (t.and s).and r = t.and (s.and r) := by
  cases t <;> cases s <;> cases r <;> rfl

theorem or_assoc (t s r : Truth) : (t.or s).or r = t.or (s.or r) := by
  cases t <;> cases s <;> cases r <;> rfl

theorem all_append (ts ss : List Truth) : all (ts ++ ss) = (all ts).and (all ss) := by
  induction ts with
  | nil => simp
  | cons t ts induction =>
      rw [List.cons_append, all_cons, all_cons, induction, and_assoc]

theorem any_append (ts ss : List Truth) : any (ts ++ ss) = (any ts).or (any ss) := by
  induction ts with
  | nil => simp
  | cons t ts induction =>
      rw [List.cons_append, any_cons, any_cons, induction, or_assoc]

@[simp] theorem isYes_any (ts : List Truth) : (any ts).isYes = ts.any isYes := by
  induction ts with
  | nil => rfl
  | cons t ts induction => simp [induction]

theorem any_eq_no_iff {ts : List Truth} : any ts = .no ↔ ∀ t ∈ ts, t = .no := by
  induction ts with
  | nil => simp
  | cons t ts induction =>
      rw [any_cons, List.forall_mem_cons, ← induction]
      cases t <;> cases any ts <;> decide

theorem exists_of_all_eq_no {ts : List Truth} (no : all ts = .no) : ∃ t ∈ ts, t = .no := by
  induction ts with
  | nil => cases no
  | cons t ts induction =>
      by_cases first : t = .no
      · exact ⟨t, List.mem_cons_self .., first⟩
      · have rest : all ts = .no := by
          rw [all_cons] at no
          cases t <;> cases others : all ts <;> simp_all [and]
        obtain ⟨s, isOne, same⟩ := induction rest
        exact ⟨s, List.mem_cons_of_mem _ isOne, same⟩

end Truth

namespace Condition

universe u v

variable {α : Type u} {β : Type v}

theorem all_eval_conjuncts (truth : α → Truth) (c : Condition α) :
    Truth.all (c.conjuncts.map (eval truth)) = c.eval truth := by
  cases c <;> simp [conjuncts]

theorem any_eval_disjuncts (truth : α → Truth) (c : Condition α) :
    Truth.any (c.disjuncts.map (eval truth)) = c.eval truth := by
  cases c <;> simp [disjuncts]

theorem all_eval_flatMap_conjuncts (truth : α → Truth) (cs : List (Condition α)) :
    Truth.all ((cs.flatMap conjuncts).map (eval truth)) =
      Truth.all (cs.map (eval truth)) := by
  induction cs with
  | nil => rfl
  | cons c cs induction =>
      rw [List.flatMap_cons, List.map_append, Truth.all_append,
        all_eval_conjuncts, induction, List.map_cons, Truth.all_cons]

theorem any_eval_flatMap_disjuncts (truth : α → Truth) (cs : List (Condition α)) :
    Truth.any ((cs.flatMap disjuncts).map (eval truth)) =
      Truth.any (cs.map (eval truth)) := by
  induction cs with
  | nil => rfl
  | cons c cs induction =>
      rw [List.flatMap_cons, List.map_append, Truth.any_append,
        any_eval_disjuncts, induction, List.map_cons, Truth.any_cons]

@[simp] theorem eval_conj (truth : α → Truth) (cs : List (Condition α)) :
    (conj cs).eval truth = Truth.all (cs.map (eval truth)) := by
  rw [← all_eval_flatMap_conjuncts]
  unfold conj
  split
  · next c lone => simp [lone]
  · rw [eval_all]

@[simp] theorem eval_disj (truth : α → Truth) (cs : List (Condition α)) :
    (disj cs).eval truth = Truth.any (cs.map (eval truth)) := by
  rw [← any_eval_flatMap_disjuncts]
  unfold disj
  split
  · next c lone => simp [lone]
  · rw [eval_any]

@[simp] theorem eval_negateIf (truth : α → Truth) (c : Condition α) (negate : Bool) :
    (c.negateIf negate).eval truth =
      if negate then (c.eval truth).not else c.eval truth := by
  cases negate <;> rfl

end Condition

end PageTree.Sql
