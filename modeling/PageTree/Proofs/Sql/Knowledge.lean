import PageTree.Proofs.Query.Naming
import PageTree.Proofs.Sql.ConditionTruth

/-!
Truth of conditions by what is known of their tests. Main statements: a condition of tests with
known truths has a known truth, and a truth that is known stays when more of the tests become known.
-/

namespace PageTree.Sql

namespace Truth

/-- Does the second truth say what the first one says, where that says anything? -/
def Refines (t s : Truth) : Prop :=
  t = .unknown ∨ t = s

namespace Refines

variable {t s t' s' : Truth}

theorem refl (t : Truth) : Refines t t :=
  .inr rfl

theorem eq_yes (refines : t.Refines s) (yes : t = .yes) : s = .yes := by
  rcases refines with unknown | same
  · exact absurd (yes.symm.trans unknown) (by decide)
  · exact same.symm.trans yes

theorem not (refines : t.Refines s) : t.not.Refines s.not := by
  rcases refines with rfl | rfl
  · exact .inl rfl
  · exact refl _

theorem and (first : t.Refines s) (second : t'.Refines s') : (t.and t').Refines (s.and s') := by
  rcases first with rfl | rfl <;> rcases second with rfl | rfl
  · exact .inl rfl
  · cases t' <;> cases s <;> first | exact .inl rfl | exact refl _
  · cases t <;> cases s' <;> first | exact .inl rfl | exact refl _
  · exact refl _

theorem or (first : t.Refines s) (second : t'.Refines s') : (t.or t').Refines (s.or s') := by
  rcases first with rfl | rfl <;> rcases second with rfl | rfl
  · exact .inl rfl
  · cases t' <;> cases s <;> first | exact .inl rfl | exact refl _
  · cases t <;> cases s' <;> first | exact .inl rfl | exact refl _
  · exact refl _

end Refines

theorem and_ne_unknown {t s : Truth} (first : t ≠ .unknown) (second : s ≠ .unknown) :
    t.and s ≠ .unknown := by
  cases t <;> cases s <;> simp_all [and]

theorem or_ne_unknown {t s : Truth} (first : t ≠ .unknown) (second : s ≠ .unknown) :
    t.or s ≠ .unknown := by
  cases t <;> cases s <;> simp_all [or]

theorem not_ne_unknown {t : Truth} (known : t ≠ .unknown) : t.not ≠ .unknown := by
  cases t <;> simp_all [not]

theorem all_ne_unknown {ts : List Truth} (known : ∀ t ∈ ts, t ≠ .unknown) : all ts ≠ .unknown := by
  induction ts with
  | nil => simp
  | cons t ts induction =>
      rw [List.forall_mem_cons] at known
      exact and_ne_unknown known.1 (induction known.2)

theorem any_ne_unknown {ts : List Truth} (known : ∀ t ∈ ts, t ≠ .unknown) : any ts ≠ .unknown := by
  induction ts with
  | nil => simp
  | cons t ts induction =>
      rw [List.forall_mem_cons] at known
      exact or_ne_unknown known.1 (induction known.2)

/-- Truths that are known are negated as statements are. -/
theorem isYes_not {t : Truth} (known : t ≠ .unknown) : t.not.isYes = !t.isYes := by
  cases t <;> simp_all [not, isYes]

end Truth

namespace Condition

universe u

variable {α : Type u} {f g : α → Truth}

mutual

theorem eval_ne_unknown : (c : Condition α) → Forall (fun a => f a ≠ .unknown) c →
    c.eval f ≠ .unknown
  | .test a, known => known a (List.mem_singleton_self a)
  | .fragment a, known => known a (List.mem_singleton_self a)
  | .never, _ => by simp [eval]
  | .all cs, known => Truth.all_ne_unknown (evalEach_ne_unknown cs known)
  | .any cs, known => Truth.any_ne_unknown (evalEach_ne_unknown cs known)
  | .not c, known => Truth.not_ne_unknown (eval_ne_unknown c known)

theorem evalEach_ne_unknown : (cs : List (Condition α)) →
    (∀ a ∈ testsEach cs, f a ≠ .unknown) → ∀ t ∈ evalEach f cs, t ≠ .unknown
  | [], _ => by simp [evalEach]
  | c :: cs, known => List.forall_mem_cons.2
      ⟨eval_ne_unknown c fun a member => known a (List.mem_append_left _ member),
        evalEach_ne_unknown cs fun a member => known a (List.mem_append_right _ member)⟩

end

mutual

theorem eval_refines : (c : Condition α) → Forall (fun a => (f a).Refines (g a)) c →
    (c.eval f).Refines (c.eval g)
  | .test a, refines => refines a (List.mem_singleton_self a)
  | .fragment a, refines => refines a (List.mem_singleton_self a)
  | .never, _ => .refl _
  | .all cs, refines => (evalEach_refines cs refines).1
  | .any cs, refines => (evalEach_refines cs refines).2
  | .not c, refines => (eval_refines c refines).not

theorem evalEach_refines : (cs : List (Condition α)) →
    (∀ a ∈ testsEach cs, (f a).Refines (g a)) →
      (Truth.all (evalEach f cs)).Refines (Truth.all (evalEach g cs)) ∧
        (Truth.any (evalEach f cs)).Refines (Truth.any (evalEach g cs))
  | [], _ => ⟨.refl _, .refl _⟩
  | c :: cs, refines => by
      have first := eval_refines c fun a member => refines a (List.mem_append_left _ member)
      have rest := evalEach_refines cs fun a member => refines a (List.mem_append_right _ member)
      exact ⟨first.and rest.1, first.or rest.2⟩

end

end Condition

end PageTree.Sql
