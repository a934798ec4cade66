import PageTree.Sql.Condition

/-!
Three-valued truth: a test on a missing value is neither true nor false. Conditions take the least
truth of a conjunction and the greatest of a disjunction.
-/

namespace PageTree.Sql

inductive Truth where
  | no
  | unknown
  | yes
  deriving DecidableEq, Repr

namespace Truth

def ofBool (b : Bool) : Truth :=
  if b then .yes else .no

def and : Truth → Truth → Truth
  | .no, _ => .no
  | _, .no => .no
  | .yes, t => t
  | .unknown, _ => .unknown

def or : Truth → Truth → Truth
  | .yes, _ => .yes
  | _, .yes => .yes
  | .no, t => t
  | .unknown, _ => .unknown

def not : Truth → Truth
  | .no => .yes
  | .unknown => .unknown
  | .yes => .no

def isYes : Truth → Bool
  | .yes => true
  | _ => false

def all (ts : List Truth) : Truth :=
  ts.foldr and .yes

def any (ts : List Truth) : Truth :=
  ts.foldr or .no

@[simp] theorem all_cons (t : Truth) (ts : List Truth) : all (t :: ts) = t.and (all ts) :=
  rfl

theorem isYes_iff {t : Truth} : t.isYes = true ↔ t = .yes := by
  cases t <;> simp [isYes]

@[simp] theorem isYes_and (t s : Truth) : (t.and s).isYes = (t.isYes && s.isYes) := by
  cases t <;> cases s <;> rfl

@[simp] theorem isYes_or (t s : Truth) : (t.or s).isYes = (t.isYes || s.isYes) := by
  cases t <;> cases s <;> rfl

@[simp] theorem isYes_ofBool (b : Bool) : (ofBool b).isYes = b := by
  cases b <;> rfl

@[simp] theorem isYes_all (ts : List Truth) : (all ts).isYes = ts.all isYes := by
  induction ts with
  | nil => rfl
  | cons t ts ih => simp [ih]

end Truth

namespace Condition

universe u

variable {α : Type u}

mutual

/-- The truth of a condition, given the truth of its tests. -/
def eval (truth : α → Truth) : Condition α → Truth
  | .test a => truth a
  | .fragment a => truth a
  | .never => .no
  | .all cs => Truth.all (evalEach truth cs)
  | .any cs => Truth.any (evalEach truth cs)
  | .not c => (eval truth c).not

def evalEach (truth : α → Truth) : List (Condition α) → List Truth
  | [] => []
  | c :: cs => eval truth c :: evalEach truth cs

end

mutual

/-- Is one of the marked tests looked at when operands are taken from left to right, and no further
once the result is settled? -/
def reaches (truth : α → Truth) (marked : α → Bool) : Condition α → Bool
  | .test a => marked a
  | .fragment a => marked a
  | .never => false
  | .all cs => reachesEach truth marked .no cs
  | .any cs => reachesEach truth marked .yes cs
  | .not c => reaches truth marked c

/-- The same of operands of which one with the truth `settled` settles the result. -/
def reachesEach (truth : α → Truth) (marked : α → Bool) (settled : Truth) :
    List (Condition α) → Bool
  | [] => false
  | c :: cs =>
    reaches truth marked c
      || (eval truth c ≠ settled && reachesEach truth marked settled cs)

end

theorem evalEach_eq_map (truth : α → Truth) (cs : List (Condition α)) :
    evalEach truth cs = cs.map (eval truth) := by
  induction cs with
  | nil => rfl
  | cons c cs ih => simp [evalEach, ih]

@[simp] theorem eval_all (truth : α → Truth) (cs : List (Condition α)) :
    (Condition.all cs).eval truth = Truth.all (cs.map (eval truth)) := by
  simp [eval, evalEach_eq_map]

@[simp] theorem eval_any (truth : α → Truth) (cs : List (Condition α)) :
    (Condition.any cs).eval truth = Truth.any (cs.map (eval truth)) := by
  simp [eval, evalEach_eq_map]

theorem isYes_of_mem_necessaryTests {truth : α → Truth} {c : Condition α} {a : α}
    (mem : a ∈ c.necessaryTests) (holds : (c.eval truth).isYes = true) :
    (truth a).isYes = true := by
  obtain ⟨d, hd, ha⟩ := List.mem_filterMap.mp mem
  have isTest : d = .test a := by
    cases d <;> simp_all
  subst isTest
  cases c with
  | all cs =>
    simp only [eval_all, Truth.isYes_all, List.all_map, List.all_eq_true] at holds
    exact holds _ hd
  | _ => simp_all [conjuncts, eval]

end Condition

end PageTree.Sql
