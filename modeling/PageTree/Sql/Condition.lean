/-!
Boolean conditions over tests of any kind, and their text. Text gets parentheses wherever an
operand could otherwise be torn apart by the connective around it.
-/

namespace PageTree.Sql

universe u v

inductive Condition (α : Type u) where
  /-- A test whose text binds tighter than any connective. -/
  | test (a : α)
  /-- A test whose text may itself contain connectives. -/
  | fragment (a : α)
  | never
  | all (conditions : List (Condition α))
  | any (conditions : List (Condition α))
  | not (condition : Condition α)
  deriving Repr

namespace Condition

variable {α : Type u} {β : Type v}

instance : Inhabited (Condition α) :=
  ⟨.never⟩

/-- The conditions that must all hold for `c`. -/
def conjuncts : Condition α → List (Condition α)
  | .all cs => cs
  | c => [c]

def disjuncts : Condition α → List (Condition α)
  | .any cs => cs
  | c => [c]

/-- All of the conditions, with nested conjunctions merged and a lone one left bare. -/
def conj (cs : List (Condition α)) : Condition α :=
  match cs.flatMap conjuncts with
  | [c] => c
  | flat => .all flat

/-- One of the conditions, with nested disjunctions merged and a lone one left bare. -/
def disj (cs : List (Condition α)) : Condition α :=
  match cs.flatMap disjuncts with
  | [c] => c
  | flat => .any flat

def negateIf (c : Condition α) (negate : Bool) : Condition α :=
  if negate then .not c else c

def size : Condition α → Nat
  | .all cs => cs.length
  | .any cs => cs.length
  | .not _ => 1
  | _ => 0

/-- Does the text keep together as an operand of a connective? -/
def isTight : Condition α → Bool
  | .test _ => true
  | .never => true
  | .not _ => true
  | _ => false

/-- The text `s` of `c` as one of several operands. -/
def enclose (c : Condition α) (s : String) : String :=
  if c.isTight then s else "(" ++ s ++ ")"

/-- The text of a list of conditions with the given texts: `empty` for none, a lone text bare. -/
def joinTexts (separator empty : String) (cs : List (Condition α)) (texts : List String) :
    String :=
  match texts with
  | [] => empty
  | [s] => s
  | _ => separator.intercalate (List.zipWith enclose cs texts)

mutual

/-- The text of a condition, given the texts of its tests. -/
def render (text : α → String) : Condition α → String
  | .test a => text a
  | .fragment a => text a
  | .never => "1>2"
  | .all cs => joinTexts " AND " "1=1" cs (renderEach text cs)
  | .any cs => joinTexts " OR " "1>2" cs (renderEach text cs)
  | .not c => "NOT (" ++ render text c ++ ")"

def renderEach (text : α → String) : List (Condition α) → List String
  | [] => []
  | c :: cs => render text c :: renderEach text cs

end

theorem renderEach_eq_map (text : α → String) (cs : List (Condition α)) :
    renderEach text cs = cs.map (render text) := by
  induction cs with
  | nil => rfl
  | cons c cs ih => simp [renderEach, ih]

mutual

/-- The test that the text of a condition begins with. -/
def lead? : Condition α → Option α
  | .test a => some a
  | .fragment a => some a
  | .never => none
  | .all cs => leadEach? cs
  | .any cs => leadEach? cs
  | .not _ => none

def leadEach? : List (Condition α) → Option α
  | [] => none
  | c :: cs => if cs.isEmpty || c.isTight then lead? c else none

end

mutual

/-- The tests that stand directly after a parenthesis in the text of a condition. -/
def enclosedLeads : Condition α → List α
  | .test _ => []
  | .fragment _ => []
  | .never => []
  | .all cs => enclosedLeadsEach (1 < cs.length) cs
  | .any cs => enclosedLeadsEach (1 < cs.length) cs
  | .not c => (lead? c).toList ++ enclosedLeads c

/-- The same of operands, which are enclosed when there are several. -/
def enclosedLeadsEach (several : Bool) : List (Condition α) → List α
  | [] => []
  | c :: cs =>
    (if several && !c.isTight then (lead? c).toList else []) ++ enclosedLeads c
      ++ enclosedLeadsEach several cs

end

mutual

/-- Every test of a condition, from left to right. -/
def tests : Condition α → List α
  | .test a => [a]
  | .fragment a => [a]
  | .never => []
  | .all cs => testsEach cs
  | .any cs => testsEach cs
  | .not c => tests c

def testsEach : List (Condition α) → List α
  | [] => []
  | c :: cs => tests c ++ testsEach cs

end

/-- Tests without which a condition does not hold: the ones directly in its conjunction. -/
def necessaryTests (c : Condition α) : List α :=
  c.conjuncts.filterMap fun
    | .test a => some a
    | _ => none

mutual

def same [DecidableEq α] : Condition α → Condition α → Bool
  | .test a, .test b => a = b
  | .fragment a, .fragment b => a = b
  | .never, .never => true
  | .all cs, .all ds => sameEach cs ds
  | .any cs, .any ds => sameEach cs ds
  | .not c, .not d => same c d
  | _, _ => false

def sameEach [DecidableEq α] : List (Condition α) → List (Condition α) → Bool
  | [], [] => true
  | c :: cs, d :: ds => same c d && sameEach cs ds
  | _, _ => false

end

mutual

theorem eq_of_same [DecidableEq α] : {c d : Condition α} → same c d = true → c = d
  | .test _, d, h => by cases d <;> simp_all [same]
  | .fragment _, d, h => by cases d <;> simp_all [same]
  | .never, d, h => by cases d <;> simp_all [same]
  | .all _, d, h => by
    cases d <;> simp only [same, Bool.false_eq_true] at h
    rw [eq_of_sameEach h]
  | .any _, d, h => by
    cases d <;> simp only [same, Bool.false_eq_true] at h
    rw [eq_of_sameEach h]
  | .not _, d, h => by
    cases d <;> simp only [same, Bool.false_eq_true] at h
    rw [eq_of_same h]

theorem eq_of_sameEach [DecidableEq α] :
    {cs ds : List (Condition α)} → sameEach cs ds = true → cs = ds
  | [], ds, h => by cases ds <;> simp_all [sameEach]
  | _ :: _, ds, h => by
    cases ds with
    | nil => simp [sameEach] at h
    | cons d ds =>
      simp only [sameEach, Bool.and_eq_true] at h
      rw [eq_of_same h.1, eq_of_sameEach h.2]

end

end Condition

end PageTree.Sql
