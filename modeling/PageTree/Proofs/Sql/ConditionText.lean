import PageTree.Proofs.Sql.BooleanText

/-!
The text of a condition says what the condition says. A recipe lists the steps by which a condition
is put together; its truth is computed without the condition. Main statement: the text of the
condition, with its tests taken as units, has exactly one reading, which has the truth of the
recipe.
-/

namespace PageTree.Sql

abbrev TruthFunction := (TestText → Truth) → Truth

/-- A boolean text together with what it says. -/
structure Fragment where
  text : MarkedText
  meaning : BooleanExpression
  reads : text.Reads meaning

namespace Fragment

def ofTest (atom : TestText) : Fragment :=
  { text := [.test atom], meaning := .test atom
    reads := ⟨[.test atom], rfl, .conjunction (.operand (.test atom))⟩ }

def render (fragment : Fragment) : String :=
  fragment.text.text

def truth (given : TestText → Truth) (fragment : Fragment) : Truth :=
  fragment.meaning.eval given

end Fragment

/-! ### Texts with marks -/

namespace MarkedText

@[simp] theorem text_append (s t : MarkedText) :
    MarkedText.text (s ++ t) = s.text ++ t.text := by
  simp [text]

@[simp] theorem text_ofString (s : String) : (ofString s).text = s := by
  simp [text, ofString, List.flatMap_map, Symbol.spelling]

theorem text_intercalate (separator : String) (texts : List MarkedText) :
    MarkedText.text ((ofString separator).intercalate texts) =
      separator.intercalate (texts.map text) := by
  induction texts with
  | nil => rfl
  | cons s rest induction =>
      cases rest with
      | nil => simp
      | cons t rest =>
          rw [List.intercalate_cons_cons, List.map_cons, List.map_cons,
            String.intercalate_cons_cons, text_append, text_append, induction,
            text_ofString, List.map_cons]

end MarkedText

namespace Condition

universe u

variable {α : Type u}

def markOperand (c : Condition α) (s : MarkedText) : MarkedText :=
  if c.isTight then s else MarkedText.ofString "(" ++ s ++ MarkedText.ofString ")"

def joinMarked (separator empty : String) (cs : List (Condition α)) (texts : List MarkedText) :
    MarkedText :=
  match texts with
  | [] => MarkedText.ofString empty
  | [s] => s
  | _ => (MarkedText.ofString separator).intercalate (List.zipWith markOperand cs texts)

mutual

/-- The text of a condition in which the tests are marked. -/
def mark : Condition Fragment → MarkedText
  | .test unit => unit.text
  | .fragment verbatim => verbatim.text
  | .never => MarkedText.ofString "1>2"
  | .all cs => joinMarked " AND " "1=1" cs (markEach cs)
  | .any cs => joinMarked " OR " "1>2" cs (markEach cs)
  | .not c => MarkedText.ofString "NOT (" ++ mark c ++ MarkedText.ofString ")"

def markEach : List (Condition Fragment) → List MarkedText
  | [] => []
  | c :: cs => mark c :: markEach cs

end

theorem markEach_eq_map (cs : List (Condition Fragment)) : markEach cs = cs.map mark := by
  induction cs with
  | nil => rfl
  | cons c cs induction => rw [markEach, induction, List.map_cons]

theorem text_markOperand (c : Condition α) (s : MarkedText) :
    (markOperand c s).text = enclose c s.text := by
  unfold markOperand enclose
  split <;> simp [String.append_assoc]

theorem text_joinMarked (separator empty : String) (cs : List (Condition α))
    (texts : List MarkedText) :
    (joinMarked separator empty cs texts).text =
      joinTexts separator empty cs (texts.map MarkedText.text) := by
  unfold joinMarked
  split
  · simp [joinTexts]
  · simp [joinTexts]
  · next notNil notLone =>
    rw [MarkedText.text_intercalate, List.map_zipWith]
    simp only [text_markOperand]
    rw [← List.zipWith_map_right]
    match texts with
    | [] => exact absurd rfl notNil
    | [s] => exact absurd rfl (notLone s)
    | s :: t :: rest => rfl

mutual

/-- Without its marks the text is the one that a query is printed with. -/
theorem text_mark : (c : Condition Fragment) → c.mark.text = c.render Fragment.render
  | .test _ => rfl
  | .fragment _ => rfl
  | .never => by rw [mark, render, MarkedText.text_ofString]
  | .all cs => by rw [mark, render, text_joinMarked, text_markEach]
  | .any cs => by rw [mark, render, text_joinMarked, text_markEach]
  | .not c => by
      rw [mark, render, MarkedText.text_append, MarkedText.text_append, text_mark,
        MarkedText.text_ofString, MarkedText.text_ofString]

theorem text_markEach : (cs : List (Condition Fragment)) →
    (markEach cs).map MarkedText.text = renderEach Fragment.render cs
  | [] => rfl
  | c :: cs => by rw [markEach, renderEach, List.map_cons, text_mark, text_markEach]

end

end Condition

/-! ### Texts and their truth -/

namespace MarkedText

/-- The text is written for an expression of a level, and the expression has this truth. -/
def Means (s : MarkedText) (level : BooleanLevel) (value : TruthFunction) : Prop :=
  ∃ tokens e, BooleanToken.scan s = some tokens ∧ BooleanGrammar level tokens e ∧
    ∀ given, e.eval given = value given

variable {s t : MarkedText} {v w : TruthFunction} {level : BooleanLevel}

theorem Means.disjunction (means : s.Means level v) : s.Means .disjunction v := by
  obtain ⟨tokens, e, scanned, grammatical, truth⟩ := means
  cases level with
  | disjunction => exact ⟨tokens, e, scanned, grammatical, truth⟩
  | conjunction => exact ⟨tokens, e, scanned, .conjunction grammatical, truth⟩
  | operand => exact ⟨tokens, e, scanned, .conjunction (.operand grammatical), truth⟩

theorem Means.conjunction (means : s.Means .operand v) : s.Means .conjunction v := by
  obtain ⟨tokens, e, scanned, grammatical, truth⟩ := means
  exact ⟨tokens, e, scanned, .operand grammatical, truth⟩

theorem Means.enclosed (means : s.Means .disjunction v) :
    Means (ofString "(" ++ s ++ ofString ")") .operand v := by
  obtain ⟨tokens, e, scanned, grammatical, truth⟩ := means
  refine ⟨_, e, ?_, .enclosed grammatical, truth⟩
  have closing : BooleanToken.scan (s ++ ofString ")") = some (tokens ++ [.closing]) := by
    rw [BooleanToken.scan, BooleanToken.scanFrom_append [] s rfl, ← BooleanToken.scan, scanned]
    rfl
  rw [List.append_assoc, BooleanToken.scan_opening, closing]
  rfl

theorem Means.not (means : s.Means .disjunction v) :
    Means (ofString "NOT (" ++ s ++ ofString ")") .operand fun given => (v given).not := by
  obtain ⟨tokens, e, scanned, grammatical, truth⟩ := means.enclosed
  refine ⟨.not :: tokens, .not e, ?_, .not grammatical, fun given => ?_⟩
  · rw [List.append_assoc, BooleanToken.scan_not, ← List.append_assoc, scanned]
    rfl
  · rw [BooleanExpression.eval, truth]

theorem scan_connected {connective : String} {token : BooleanToken}
    {left right : List BooleanToken}
    (apart : BooleanToken.beginsApart (ofString connective ++ t) = true)
    (connects : BooleanToken.scan (ofString connective ++ t) =
      BooleanToken.append? (some [token]) (BooleanToken.scan t))
    (first : BooleanToken.scan s = some left) (last : BooleanToken.scan t = some right) :
    BooleanToken.scan (s ++ ofString connective ++ t) = some (left ++ token :: right) := by
  rw [BooleanToken.scan, List.append_assoc, BooleanToken.scanFrom_append [] s apart,
    ← BooleanToken.scan, connects, first, last]
  rfl

theorem Means.and (first : s.Means .conjunction v) (last : t.Means .operand w) :
    Means (s ++ ofString " AND " ++ t) .conjunction fun given => (v given).and (w given) := by
  obtain ⟨left, e, scanned, grammatical, truth⟩ := first
  obtain ⟨right, f, scanned', grammatical', truth'⟩ := last
  exact ⟨_, _, scan_connected rfl (BooleanToken.scan_and t) scanned scanned',
    .and grammatical grammatical',
    fun given => by rw [BooleanExpression.eval, truth, truth']⟩

theorem Means.or (first : s.Means .disjunction v) (last : t.Means .conjunction w) :
    Means (s ++ ofString " OR " ++ t) .disjunction fun given => (v given).or (w given) := by
  obtain ⟨left, e, scanned, grammatical, truth⟩ := first
  obtain ⟨right, f, scanned', grammatical', truth'⟩ := last
  exact ⟨_, _, scan_connected rfl (BooleanToken.scan_or t) scanned scanned',
    .or grammatical grammatical',
    fun given => by rw [BooleanExpression.eval, truth, truth']⟩

/-- Operands one after the other, joined from the left as the grammar takes them. -/
theorem intercalate_cons_cons_eq (separator s t : MarkedText) (rest : List MarkedText) :
    separator.intercalate (s :: t :: rest) =
      separator.intercalate ((s ++ separator ++ t) :: rest) := by
  cases rest with
  | nil => simp [List.intercalate_cons_cons]
  | cons r rest => simp [List.intercalate_cons_cons, List.append_assoc]

theorem Means.all (first : s.Means .conjunction v) (rest : List (MarkedText × TruthFunction))
    (operands : ∀ operand ∈ rest, operand.1.Means .operand operand.2) :
    Means ((ofString " AND ").intercalate (s :: rest.map Prod.fst)) .conjunction
      fun given => (v given).and (Truth.all (rest.map fun operand => operand.2 given)) := by
  induction rest generalizing s v with
  | nil => simpa using first
  | cons operand rest induction =>
      rw [List.map_cons, intercalate_cons_cons_eq]
      have joined := induction (first.and (operands operand List.mem_cons_self))
        fun other member => operands other (List.mem_cons_of_mem _ member)
      simpa only [List.map_cons, Truth.all_cons, Truth.and_assoc] using joined

theorem Means.any (first : s.Means .disjunction v) (rest : List (MarkedText × TruthFunction))
    (operands : ∀ operand ∈ rest, operand.1.Means .operand operand.2) :
    Means ((ofString " OR ").intercalate (s :: rest.map Prod.fst)) .disjunction
      fun given => (v given).or (Truth.any (rest.map fun operand => operand.2 given)) := by
  induction rest generalizing s v with
  | nil => simpa using first
  | cons operand rest induction =>
      rw [List.map_cons, intercalate_cons_cons_eq]
      have joined := induction
        (first.or (operands operand List.mem_cons_self).conjunction)
        fun other member => operands other (List.mem_cons_of_mem _ member)
      simpa only [List.map_cons, Truth.any_cons, Truth.or_assoc] using joined

end MarkedText

namespace Condition

universe u

variable {α : Type u}

mutual

def TestsSatisfy (p : α → Prop) : Condition α → Prop
  | .test a => p a
  | .fragment _ => True
  | .never => True
  | .all cs => TestsSatisfyEach p cs
  | .any cs => TestsSatisfyEach p cs
  | .not c => TestsSatisfy p c

def TestsSatisfyEach (p : α → Prop) : List (Condition α) → Prop
  | [] => True
  | c :: cs => TestsSatisfy p c ∧ TestsSatisfyEach p cs

end

theorem testsSatisfyEach_iff {p : α → Prop} {cs : List (Condition α)} :
    TestsSatisfyEach p cs ↔ ∀ c ∈ cs, c.TestsSatisfy p := by
  induction cs with
  | nil => simp [TestsSatisfyEach]
  | cons c cs induction => simp [TestsSatisfyEach, induction]

theorem testsSatisfy_conj {p : α → Prop} {cs : List (Condition α)}
    (each : ∀ c ∈ cs, c.TestsSatisfy p) : (conj cs).TestsSatisfy p := by
  have flat : ∀ c ∈ cs.flatMap conjuncts, c.TestsSatisfy p := by
    intro c member
    obtain ⟨d, mem, inner⟩ := List.mem_flatMap.mp member
    have whole := each d mem
    cases d with
    | all ds => exact testsSatisfyEach_iff.mp whole c inner
    | _ => obtain rfl := List.mem_singleton.mp inner; exact whole
  unfold conj
  split
  · next c lone => exact flat c (by simp [lone])
  · exact testsSatisfyEach_iff.mpr flat

theorem testsSatisfy_disj {p : α → Prop} {cs : List (Condition α)}
    (each : ∀ c ∈ cs, c.TestsSatisfy p) : (disj cs).TestsSatisfy p := by
  have flat : ∀ c ∈ cs.flatMap disjuncts, c.TestsSatisfy p := by
    intro c member
    obtain ⟨d, mem, inner⟩ := List.mem_flatMap.mp member
    have whole := each d mem
    cases d with
    | any ds => exact testsSatisfyEach_iff.mp whole c inner
    | _ => obtain rfl := List.mem_singleton.mp inner; exact whole
  unfold disj
  split
  · next c lone => exact flat c (by simp [lone])
  · exact testsSatisfyEach_iff.mpr flat

def IsOperand (fragment : Fragment) : Prop :=
  fragment.text.Means .operand fun given => fragment.truth given

/-- The level at which the bare text of a condition binds. -/
def level (c : Condition α) : BooleanLevel :=
  if c.isTight then .operand else .disjunction

/-- An operand is enclosed exactly when its bare text would not hold together. -/
theorem means_markOperand {c : Condition α} {s : MarkedText} {v : TruthFunction}
    (means : s.Means c.level v) : (markOperand c s).Means .operand v := by
  unfold markOperand
  unfold level at means
  split at means
  · next tight => simpa [tight] using means
  · next loose => simpa [loose] using means.enclosed

theorem means_joined (cs : List (Condition Fragment))
    (each : ∀ c ∈ cs, c.mark.Means c.level fun given => c.eval (Fragment.truth given)) :
    (joinMarked " AND " "1=1" cs (markEach cs)).Means .disjunction
        (fun given => Truth.all (cs.map (eval (Fragment.truth given)))) ∧
      (joinMarked " OR " "1>2" cs (markEach cs)).Means .disjunction
        (fun given => Truth.any (cs.map (eval (Fragment.truth given)))) := by
  have operands : ∀ ds ⊆ cs, ∀ operand ∈ ds.map fun c =>
      (markOperand c c.mark, fun given => c.eval (Fragment.truth given)),
      operand.1.Means .operand operand.2 := by
    intro ds subset operand member
    obtain ⟨c, mem, rfl⟩ := List.mem_map.mp member
    exact means_markOperand (each c (subset mem))
  match cs with
  | [] =>
    exact
      ⟨⟨_, _, rfl, .conjunction (.operand (.constant true)), fun _ => rfl⟩,
        ⟨_, _, rfl, .conjunction (.operand (.constant false)), fun _ => rfl⟩⟩
  | [c] =>
    have lone := (each c List.mem_cons_self).disjunction
    exact ⟨by simpa [joinMarked, markEach] using lone, by simpa [joinMarked, markEach] using lone⟩
  | c :: d :: rest =>
    have first := operands [c] (by simp) _ (List.mem_singleton.mpr rfl)
    have others := operands (d :: rest) (List.subset_cons_self _ _)
    have texts : List.zipWith markOperand (c :: d :: rest) (markEach (c :: d :: rest)) =
        markOperand c c.mark :: ((d :: rest).map fun c =>
          (markOperand c c.mark, fun given => c.eval (Fragment.truth given))).map Prod.fst := by
      simp [markEach_eq_map, List.zipWith_map_right, Function.comp_def]
    constructor
    · have joined := (first.conjunction.all _ others).disjunction
      rw [← texts] at joined
      simpa [joinMarked, markEach, Function.comp_def] using joined
    · have joined := first.disjunction.any _ others
      rw [← texts] at joined
      simpa [joinMarked, markEach, Function.comp_def] using joined

mutual

/-- The text of a condition means the condition. The level says where the text may stand: the text
of a test, a negation or a condition that never holds is an operand as it is. -/
theorem means_mark : (c : Condition Fragment) → c.TestsSatisfy IsOperand →
    c.mark.Means c.level fun given => c.eval (Fragment.truth given)
  | .test _, operand => operand
  | .fragment verbatim, _ => by
      obtain ⟨tokens, scanned, grammatical⟩ := verbatim.reads
      exact ⟨tokens, _, scanned, grammatical, fun _ => rfl⟩
  | .never, _ => ⟨_, _, rfl, .constant false, fun _ => rfl⟩
  | .all cs, operands => by
      have joined := (means_joined cs (means_markEach cs operands)).1
      simpa [mark, level, isTight] using joined
  | .any cs, operands => by
      have joined := (means_joined cs (means_markEach cs operands)).2
      simpa [mark, level, isTight] using joined
  | .not c, operands => (means_mark c operands).disjunction.not

theorem means_markEach : (cs : List (Condition Fragment)) → TestsSatisfyEach IsOperand cs →
    ∀ c ∈ cs, c.mark.Means c.level fun given => c.eval (Fragment.truth given)
  | [], _ => by simp
  | c :: cs, operands =>
    List.forall_mem_cons.mpr ⟨means_mark c operands.1, means_markEach cs operands.2⟩

end

end Condition

/-! ### Recipes -/

/-- The steps by which a condition is put together. -/
inductive ConditionRecipe where
  | compare (left operator right : String)
  | isNull (column : String)
  | isNotNull (column : String)
  | raw (fragment : Fragment)
  | never
  /-- A conjunction that merges the conjunctions in it and leaves a lone condition bare. -/
  | conj (parts : List ConditionRecipe)
  | disj (parts : List ConditionRecipe)
  | all (parts : List ConditionRecipe)
  | any (parts : List ConditionRecipe)
  | not (part : ConditionRecipe)
  | negateIf (part : ConditionRecipe) (negate : Bool)

namespace ConditionRecipe

mutual

def build : ConditionRecipe → Condition Fragment
  | .compare left operator right => .test (.ofTest (.comparison left operator right))
  | .isNull column => .test (.ofTest (.nullCheck column false))
  | .isNotNull column => .test (.ofTest (.nullCheck column true))
  | .raw fragment => .fragment fragment
  | .never => .never
  | .conj parts => .conj (buildEach parts)
  | .disj parts => .disj (buildEach parts)
  | .all parts => .all (buildEach parts)
  | .any parts => .any (buildEach parts)
  | .not part => .not (build part)
  | .negateIf part negate => (build part).negateIf negate

def buildEach : List ConditionRecipe → List (Condition Fragment)
  | [] => []
  | part :: parts => build part :: buildEach parts

end

mutual

/-- The truth of a recipe, without regard to the condition it builds. -/
def truth (given : TestText → Truth) : ConditionRecipe → Truth
  | .compare left operator right => given (.comparison left operator right)
  | .isNull column => given (.nullCheck column false)
  | .isNotNull column => given (.nullCheck column true)
  | .raw fragment => fragment.truth given
  | .never => .no
  | .conj parts => Truth.all (truthEach given parts)
  | .disj parts => Truth.any (truthEach given parts)
  | .all parts => Truth.all (truthEach given parts)
  | .any parts => Truth.any (truthEach given parts)
  | .not part => (truth given part).not
  | .negateIf part negate => if negate then (truth given part).not else truth given part

def truthEach (given : TestText → Truth) : List ConditionRecipe → List Truth
  | [] => []
  | part :: parts => truth given part :: truthEach given parts

end

mutual

theorem eval_build (given : TestText → Truth) : (recipe : ConditionRecipe) →
    recipe.build.eval (Fragment.truth given) = recipe.truth given
  | .compare .. => rfl
  | .isNull _ => rfl
  | .isNotNull _ => rfl
  | .raw _ => rfl
  | .never => rfl
  | .conj parts => by rw [build, Condition.eval_conj, eval_buildEach, truth]
  | .disj parts => by rw [build, Condition.eval_disj, eval_buildEach, truth]
  | .all parts => by rw [build, Condition.eval_all, eval_buildEach, truth]
  | .any parts => by rw [build, Condition.eval_any, eval_buildEach, truth]
  | .not part => by rw [build, Condition.eval, eval_build, truth]
  | .negateIf part negate => by rw [build, Condition.eval_negateIf, eval_build, truth]

theorem eval_buildEach (given : TestText → Truth) : (parts : List ConditionRecipe) →
    (buildEach parts).map (Condition.eval (Fragment.truth given)) = truthEach given parts
  | [] => rfl
  | part :: parts => by
      rw [buildEach, List.map_cons, eval_build, eval_buildEach, truthEach]

end

theorem isOperand_ofTest (atom : TestText) : Condition.IsOperand (.ofTest atom) :=
  ⟨[.test atom], .test atom, rfl, .test atom, fun _ => rfl⟩

mutual

theorem testsSatisfy_build : (recipe : ConditionRecipe) →
    recipe.build.TestsSatisfy Condition.IsOperand
  | .compare .. => isOperand_ofTest _
  | .isNull _ => isOperand_ofTest _
  | .isNotNull _ => isOperand_ofTest _
  | .raw _ => trivial
  | .never => trivial
  | .conj parts => Condition.testsSatisfy_conj (testsSatisfy_buildEach parts)
  | .disj parts => Condition.testsSatisfy_disj (testsSatisfy_buildEach parts)
  | .all parts => Condition.testsSatisfyEach_iff.mpr (testsSatisfy_buildEach parts)
  | .any parts => Condition.testsSatisfyEach_iff.mpr (testsSatisfy_buildEach parts)
  | .not part => testsSatisfy_build part
  | .negateIf part negate => by
      cases negate with
      | false => exact testsSatisfy_build part
      | true => exact testsSatisfy_build part

theorem testsSatisfy_buildEach : (parts : List ConditionRecipe) →
    ∀ c ∈ buildEach parts, c.TestsSatisfy Condition.IsOperand
  | [] => by simp [buildEach]
  | part :: parts =>
    List.forall_mem_cons.mpr ⟨testsSatisfy_build part, testsSatisfy_buildEach parts⟩

end

/-- The text of a condition has one reading, and that has the truth of the recipe of the condition
whatever the truth of its tests. -/
theorem reading_of_text (recipe : ConditionRecipe) :
    recipe.build.mark.text = recipe.build.render Fragment.render ∧
      ∃ e, recipe.build.mark.Reads e ∧
        (∀ other, recipe.build.mark.Reads other → other = e) ∧
        ∀ given, e.eval given = recipe.truth given := by
  refine ⟨Condition.text_mark _, ?_⟩
  obtain ⟨tokens, e, scanned, grammatical, truth⟩ :=
    (Condition.means_mark _ (testsSatisfy_build recipe)).disjunction
  have reads : recipe.build.mark.Reads e := ⟨tokens, scanned, grammatical⟩
  refine ⟨e, reads, fun other otherReads => otherReads.unique reads, fun given => ?_⟩
  exact (truth given).trans (eval_build given recipe)

end ConditionRecipe

end PageTree.Sql
