import PageTree.Proofs.Sql.Quoting
import PageTree.Query.Basic
import PageTree.Schema.Validation

/-!
Well-named queries: every table and alias is a plain name, and every column one that a selector can
name. Main statement: the statement of such a query is clean, whatever its values.
-/

namespace PageTree

open Sql

universe u

namespace Sql.Condition

variable {α : Type u} {p : α → Prop}

def Forall (p : α → Prop) (c : Condition α) : Prop :=
  ∀ a ∈ c.tests, p a

theorem testsEach_eq_flatMap (cs : List (Condition α)) : testsEach cs = cs.flatMap tests := by
  induction cs with
  | nil => rfl
  | cons c cs induction => rw [testsEach, induction, List.flatMap_cons]

@[simp] theorem forall_test (a : α) : Forall p (.test a) ↔ p a := by
  simp [Forall, tests]

@[simp] theorem forall_fragment (a : α) : Forall p (.fragment a) ↔ p a := by
  simp [Forall, tests]

@[simp] theorem forall_never : Forall p .never := by
  simp [Forall, tests]

@[simp] theorem forall_all (cs : List (Condition α)) :
    Forall p (.all cs) ↔ ∀ c ∈ cs, Forall p c := by
  simp only [Forall, tests, testsEach_eq_flatMap, List.mem_flatMap]
  exact ⟨fun holds c member a isTest => holds a ⟨c, member, isTest⟩,
    fun holds a ⟨c, member, isTest⟩ => holds c member a isTest⟩

@[simp] theorem forall_any (cs : List (Condition α)) :
    Forall p (.any cs) ↔ ∀ c ∈ cs, Forall p c :=
  forall_all cs

@[simp] theorem forall_not (c : Condition α) : Forall p (.not c) ↔ Forall p c := Iff.rfl

theorem forall_flatMap_conjuncts (cs : List (Condition α)) :
    (∀ c ∈ cs.flatMap conjuncts, Forall p c) ↔ ∀ c ∈ cs, Forall p c := by
  have each (c : Condition α) : (∀ d ∈ c.conjuncts, Forall p d) ↔ Forall p c := by
    cases c <;> simp [conjuncts]
  rw [List.forall_mem_flatMap]
  exact forall₂_congr fun c _ => each c

theorem forall_flatMap_disjuncts (cs : List (Condition α)) :
    (∀ c ∈ cs.flatMap disjuncts, Forall p c) ↔ ∀ c ∈ cs, Forall p c := by
  have each (c : Condition α) : (∀ d ∈ c.disjuncts, Forall p d) ↔ Forall p c := by
    cases c <;> simp [disjuncts]
  rw [List.forall_mem_flatMap]
  exact forall₂_congr fun c _ => each c

@[simp] theorem forall_conj (cs : List (Condition α)) :
    Forall p (conj cs) ↔ ∀ c ∈ cs, Forall p c := by
  rw [← forall_flatMap_conjuncts]
  unfold conj
  split
  · next lone => simp [lone]
  · exact forall_all _

@[simp] theorem forall_disj (cs : List (Condition α)) :
    Forall p (disj cs) ↔ ∀ c ∈ cs, Forall p c := by
  rw [← forall_flatMap_disjuncts]
  unfold disj
  split
  · next lone => simp [lone]
  · exact forall_any _

@[simp] theorem forall_negateIf (c : Condition α) (negate : Bool) :
    Forall p (c.negateIf negate) ↔ Forall p c := by
  cases negate <;> simp [negateIf]

end Sql.Condition

/-! ### Names -/

theorem isPlainChar_of_isFieldChar {c : Char} (field : Term.isFieldChar c = true) :
    isPlainChar c = true := by
  by_contra special
  simp only [isPlainChar, Bool.and_eq_true, decide_eq_true_eq, not_and_or, not_not] at special
  rcases special with (((rfl | rfl) | rfl) | rfl) | rfl <;> exact absurd field (by decide)

/-- A run of the characters of field names. -/
def isFieldText (text : String) : Bool :=
  text.toList.all Term.isFieldChar

theorem isPlainText_of_isFieldText {text : String} (field : isFieldText text = true) :
    isPlainText text = true := by
  simp only [isFieldText, isPlainText, List.all_eq_true] at field ⊢
  exact fun c member => isPlainChar_of_isFieldChar (field c member)

theorem isFieldChar_of_letter {c : Char} (letter : (c.isAlphanum || c = '_') = true) :
    Term.isFieldChar c = true := by
  simp only [Bool.or_eq_true, decide_eq_true_eq] at letter
  simp only [Term.isFieldChar, Bool.or_eq_true, decide_eq_true_eq]
  exact .inl (.inl (letter.imp_left (Text.isAlphanumeric_of_ascii c)))

theorem isFieldText_of_isTableName {name : String} (plain : Schema.isTableName name = true) :
    isFieldText name = true := by
  unfold Schema.isTableName at plain
  unfold isFieldText
  split at plain
  · exact absurd plain (by decide)
  · next c cs spelled =>
    rw [Bool.and_eq_true, List.all_eq_true] at plain
    rw [spelled, List.all_cons, Bool.and_eq_true, List.all_eq_true]
    refine ⟨isFieldChar_of_letter ?_, fun d member => isFieldChar_of_letter (plain.2 d member)⟩
    obtain ⟨first, -⟩ := plain
    simp only [Bool.or_eq_true] at first
    rcases first with letter | underscore
    · simp [Char.isAlphanum, letter]
    · simp [underscore]

theorem isWord_of_isTableName {name : String} (plain : Schema.isTableName name = true) :
    isWord name = true := by
  unfold Schema.isTableName at plain
  unfold isWord
  cases spelled : name.toList with
  | nil => simp [spelled] at plain
  | cons c cs =>
      simp only [spelled, Bool.and_eq_true, List.all_eq_true] at plain
      simp only [Bool.and_eq_true, List.all_eq_true]
      refine ⟨by simp [isNameStart, plain.1], fun d member => ?_⟩
      have letter := plain.2 d member
      simp only [Char.isAlphanum, Bool.or_eq_true, decide_eq_true_eq] at letter
      rcases letter with (letter | digit) | underscore
      · simp [isNameChar, isNameStart, letter]
      · simp [isNameChar, digit]
      · simp [isNameChar, isNameStart, underscore]

/-! ### Well-named queries -/

structure Sql.Column.IsWellNamed (column : Column) : Prop where
  aliasName : Schema.isTableName column.aliasName = true
  name : isFieldText column.name = true

def Sql.Operand.IsWellNamed : Operand → Prop
  | .column c => c.IsWellNamed
  | .digits run => isDigits run = true
  | _ => True

def Sql.Test.IsWellNamed : Test → Prop
  | .compare left _ right => left.IsWellNamed ∧ right.IsWellNamed
  | .isNull column => column.IsWellNamed
  | .isNotNull column => column.IsWellNamed
  | .like subject _ _ => subject.IsWellNamed
  | .never => True

abbrev Filter.IsWellNamed (filter : Filter) : Prop :=
  Condition.Forall Test.IsWellNamed filter

structure Join.IsWellNamed (join : Join) : Prop where
  table : Schema.isTableName join.table = true
  aliasName : Schema.isTableName join.aliasName = true
  on : Filter.IsWellNamed join.on

def OrderExpression.IsWellNamed : OrderExpression → Prop
  | .random => True
  | .column c => c.IsWellNamed
  | .score label => isFieldText label = true

structure Query.IsWellNamed (query : Query) : Prop where
  joins : ∀ join ∈ query.joins, join.IsWellNamed
  conjuncts : ∀ conjunct ∈ query.conjuncts, Filter.IsWellNamed conjunct.filter
  scores : ∀ score ∈ query.scores, score.subject.IsWellNamed
  orders : ∀ order ∈ query.orders, order.expression.IsWellNamed
  comment : query.comment = ""

/-! ### The text of a well-named query -/

namespace Sql

theorem Clean.appendText {s t : String} (left : Clean s.toList) (right : Clean t.toList) :
    Clean (s ++ t).toList := by
  rw [String.toList_append]
  exact left.append right

namespace Condition

variable {α : Type u} {text : α → String}

theorem clean_enclose (c : Condition α) {s : String} (clean : Clean s.toList) :
    Clean (c.enclose s).toList := by
  unfold enclose
  split
  · exact clean
  · exact (Clean.appendText (by decide) clean).appendText (by decide)

theorem clean_joinTexts {separator empty : String} (cs : List (Condition α)) {texts : List String}
    (between : Clean separator.toList) (without : Clean empty.toList)
    (clean : ∀ s ∈ texts, Clean s.toList) :
    Clean (joinTexts separator empty cs texts).toList := by
  unfold joinTexts
  split
  · exact without
  · exact clean _ (List.mem_singleton_self _)
  · apply between.intercalate
    intro s member
    rw [← List.map_uncurry_zip_eq_zipWith, List.mem_map] at member
    obtain ⟨⟨c, t⟩, pair, rfl⟩ := member
    exact clean_enclose c (clean t (List.of_mem_zip pair).2)

mutual

theorem clean_render : (c : Condition α) → Forall (fun a => Clean (text a).toList) c →
    Clean (c.render text).toList
  | .test a, clean => (forall_test a).1 clean
  | .fragment a, clean => (forall_fragment a).1 clean
  | .never, _ => by rw [render]; decide
  | .all cs, clean =>
      clean_joinTexts cs (by decide) (by decide)
        (clean_renderEach cs ((forall_all cs).1 clean))
  | .any cs, clean =>
      clean_joinTexts cs (by decide) (by decide)
        (clean_renderEach cs ((forall_any cs).1 clean))
  | .not c, clean =>
      (Clean.appendText (by decide) (clean_render c clean)).appendText (by decide)

theorem clean_renderEach : (cs : List (Condition α)) →
    (∀ c ∈ cs, Forall (fun a => Clean (text a).toList) c) →
    ∀ s ∈ renderEach text cs, Clean s.toList
  | [], _ => by simp [renderEach]
  | c :: cs, clean => by
      rw [List.forall_mem_cons] at clean
      rw [renderEach, List.forall_mem_cons]
      exact ⟨clean_render c clean.1, clean_renderEach cs clean.2⟩

end

end Condition

theorem Column.IsWellNamed.clean_text {column : Column} (named : column.IsWellNamed) :
    Clean column.text.toList := by
  have clean {name : String} (field : isFieldText name = true) : Clean name.toList :=
    .of_isPlainText (isPlainText_of_isFieldText field)
  exact ((clean (isFieldText_of_isTableName named.aliasName)).appendText (by decide)).appendText
    (clean named.name)

theorem Operand.IsWellNamed.clean_render {operand : Operand} (named : operand.IsWellNamed) :
    Clean operand.render.toList := by
  cases operand with
  | column c => exact Column.IsWellNamed.clean_text named
  | integer n => exact .toString n
  | text value => exact .quoted value
  | digits run =>
      refine .of_plain (List.all_eq_true.2 fun c member => isPlainChar_of_isAlphanum ?_)
      simp only [IsWellNamed, isDigits, Number.isDigits, Bool.and_eq_true, List.all_eq_true]
        at named
      simp [Char.isAlphanum, named.2 c member]

theorem Test.IsWellNamed.clean_render {test : Test} (named : test.IsWellNamed) :
    Clean test.render.toList := by
  cases test with
  | compare left relation right =>
      refine (named.1.clean_text.appendText ?_).appendText named.2.clean_render
      cases relation <;> decide
  | isNull column =>
      have clean := Column.IsWellNamed.clean_text named
      exact ((clean.appendText (by decide)).appendText (by decide)).appendText (by decide)
  | isNotNull column =>
      have clean := Column.IsWellNamed.clean_text named
      exact ((clean.appendText (by decide)).appendText (by decide)).appendText (by decide)
  | never => decide
  | like subject pattern marked =>
      have clean := Column.IsWellNamed.clean_text named
      refine ((clean.appendText (by decide)).appendText (.quoted pattern)).appendText ?_
      cases marked <;> decide

theorem Score.isFieldText_label {score : Score} (named : score.subject.IsWellNamed) :
    isFieldText score.label = true := by
  have aliasName := isFieldText_of_isTableName named.aliasName
  have name := named.name
  have mark : scoreMark.toList.all Term.isFieldChar = true := by decide
  have bar : "_".toList.all Term.isFieldChar = true := by decide
  unfold isFieldText at aliasName name ⊢
  simp only [label, String.toList_append, List.all_append, aliasName, name, mark, bar,
    Bool.and_self]

theorem Score.clean_render {score : Score} (named : score.subject.IsWellNamed) :
    Clean score.render.toList := by
  have column := named.clean_text
  have phrase := Clean.quoted score.phrase
  have label : Clean score.label.toList :=
    .of_isPlainText (isPlainText_of_isFieldText (isFieldText_label named))
  have first := (Clean.appendText (by decide : Clean "(LENGTH(".toList) column).appendText
    (by decide : Clean ")-LENGTH(REPLACE(LOWER(".toList)
  have second := ((first.appendText column).appendText
    (by decide : Clean "),LOWER(".toList)).appendText phrase
  have third := (second.appendText (by decide : Clean "),'')))/LENGTH(".toList)).appendText phrase
  exact (third.appendText (by decide : Clean ") AS ".toList)).appendText label

theorem isBlank_of_isAlphanum (c : Char) (letter : c.isAlphanum = true) :
    Text.isBlank c = false := by
  change ((decide ('A'.val ≤ c.val ∧ c.val ≤ 'Z'.val)
    || (decide ('a'.val ≤ c.val) && decide (c.val ≤ 'z'.val)))
      || (decide ('0'.val ≤ c.val) && decide (c.val ≤ '9'.val))) = true at letter
  simp only [Bool.or_eq_true, Bool.and_eq_true, decide_eq_true_eq,
    UInt32.le_iff_toNat_le] at letter
  change (((65 ≤ c.toNat ∧ c.toNat ≤ 90) ∨ (97 ≤ c.toNat ∧ c.toNat ≤ 122)) ∨
    (48 ≤ c.toNat ∧ c.toNat ≤ 57)) at letter
  simp only [Text.isBlank, Bool.or_eq_false_iff, Bool.and_eq_false_iff, decide_eq_false_iff_not,
    beq_eq_false_iff_ne]
  omega

namespace Statement

theorem clean_trimColumn {column : String} (clean : Clean column.toList) :
    Clean (trimColumn column).toList := by
  rw [trimColumn, String.toList_ofList]
  have trimmed := clean.trimWhere (by decide) isBlank_of_isAlphanum
  refine trimmed.trimWhere (by decide) fun c letter => ?_
  by_contra comma
  simp only [Bool.not_eq_false, decide_eq_true_eq] at comma
  exact absurd letter (by rw [comma]; decide)

theorem clean_clauseLines {keyword separator : String} {fragments : List String}
    (keywordClean : Clean keyword.toList) (between : Clean separator.toList)
    (clean : ∀ fragment ∈ fragments, Clean fragment.toList) :
    ∀ line ∈ clauseLines keyword separator fragments, Clean line.toList := by
  intro line member
  unfold clauseLines at member
  split at member
  · simp at member
  · rw [List.mem_singleton.1 member]
    exact keywordClean.appendText (between.intercalate clean)

theorem clean_selectLine {s : Statement} (columns : ∀ column ∈ s.columns, Clean column.toList) :
    Clean s.selectLine.toList := by
  rw [selectLine, String.toList_ofList]
  refine Clean.dropEndWhile ?_ (by decide) isBlank_of_isAlphanum
  have listed : Clean (",".intercalate
      ((s.withoutFoundRows.columns.map trimColumn).filter fun column => column ≠ "")).toList := by
    refine Clean.intercalate (by decide) fun column member => ?_
    obtain ⟨written, among, rfl⟩ := List.mem_map.1 (List.mem_filter.1 member).1
    exact clean_trimColumn (columns written (List.mem_filter.1 among).1)
  refine (Clean.appendText (by decide) ?_).appendText listed
  split <;> decide

theorem clean_fromLine {s : Statement} (tables : ∀ table ∈ s.tables, Clean table.toList) :
    Clean s.fromLine.toList := by
  refine Clean.appendText (by decide) (Clean.intercalate (by decide) fun name member => ?_)
  obtain ⟨table, among, rfl⟩ := List.mem_map.1 member
  exact (Clean.appendText (by decide) (tables table among)).appendText (by decide)

/-- A statement is clean when all of its fragments are. -/
theorem clean_render {s : Statement}
    (columns : ∀ column ∈ s.columns, Clean column.toList)
    (tables : ∀ table ∈ s.tables, Clean table.toList)
    (joins : ∀ join ∈ s.joins ++ s.leftJoins, Clean join.toList)
    (conditions : ∀ condition ∈ s.conditions, Clean condition.toList)
    (groups : ∀ group ∈ s.groups, Clean group.toList)
    (orders : ∀ order ∈ s.orders, Clean order.toList)
    (limit : ∀ limit ∈ s.limit, Clean limit.toList) (comment : s.comment = "") :
    Clean s.render.toList := by
  refine Clean.intercalate (by decide) fun line member => ?_
  simp only [lines, comment, reduceIte, List.mem_append, List.mem_cons, List.not_mem_nil, or_false,
    List.mem_map, Option.mem_toList] at member
  rcases member with ((((((((rfl | rfl) | ⟨join, among, rfl⟩) | ⟨join, among, rfl⟩) | among) |
    among) | among) | ⟨text, among, rfl⟩))
  · exact clean_selectLine columns
  · exact clean_fromLine tables
  · exact Clean.appendText (by decide) (joins join (List.mem_append_left _ among))
  · exact Clean.appendText (by decide) (joins join (List.mem_append_right _ among))
  · exact clean_clauseLines (by decide) (by decide) conditions line among
  · exact clean_clauseLines (by decide) (by decide) groups line among
  · exact clean_clauseLines (by decide) (by decide) orders line among
  · exact Clean.appendText (by decide) (limit text among)

end Statement

end Sql

theorem Join.IsWellNamed.clean_render {join : Join} (named : join.IsWellNamed) :
    Clean join.render.toList := by
  have clean {name : String} (plain : Schema.isTableName name = true) : Clean name.toList :=
    .of_isPlainText (isPlainText_of_isFieldText (isFieldText_of_isTableName plain))
  have on : Clean (join.on.render Test.render).toList :=
    Condition.clean_render join.on fun test member => (named.on test member).clean_render
  refine Clean.appendText (Clean.appendText ?_ (by decide)) on
  exact Clean.appendText (Clean.appendText (clean named.table) (by decide)) (clean named.aliasName)

theorem Conjunct.clean_render {conjunct : Conjunct}
    (named : Filter.IsWellNamed conjunct.filter) : Clean conjunct.render.toList := by
  cases conjunct with
  | plain test => exact ((Condition.forall_test test).1 named).clean_render
  | enclosed filter =>
      have clean : Clean (filter.render Test.render).toList :=
        Condition.clean_render filter fun test member => (named test member).clean_render
      exact (Clean.appendText (by decide) clean).appendText (by decide)

theorem Order.clean_render {order : Order} (named : order.expression.IsWellNamed) :
    Clean order.render.toList := by
  have directed {text : String} (clean : Clean text.toList) :
      Clean (if order.descending then text ++ " DESC" else text).toList := by
    split
    · exact clean.appendText (by decide)
    · exact clean
  cases expression : order.expression with
  | random =>
      simp only [Order.render, expression]
      exact directed (by decide)
  | column c =>
      simp only [Order.render, expression]
      rw [expression] at named
      exact directed (Column.IsWellNamed.clean_text named)
  | score label =>
      simp only [Order.render, expression]
      rw [expression] at named
      exact directed (.of_isPlainText (isPlainText_of_isFieldText named))

theorem Window.clean_render (window : Window) : Clean window.render.toList := by
  unfold Window.render
  split
  · exact ((Clean.toString _).appendText (by decide)).appendText (Clean.toString _)
  · exact Clean.toString _

theorem Query.IsWellNamed.clean_render {query : Query} (named : query.IsWellNamed) :
    Clean query.render.toList := by
  have joins (kind : JoinKind) : ∀ join ∈ query.joinTexts kind, Clean join.toList := by
    intro text member
    obtain ⟨join, among, rfl⟩ := List.mem_map.1 member
    exact (named.joins join (List.mem_filter.1 among).1).clean_render
  apply Statement.clean_render
  · intro column member
    simp only [statement, List.mem_append, List.mem_cons, List.not_mem_nil, or_false,
      List.mem_map] at member
    rcases member with (((rfl | rfl) | ⟨score, among, rfl⟩) | counts)
    · decide
    · decide
    · exact Score.clean_render (named.scores score among)
    · split at counts
      · rw [List.mem_singleton.1 counts]
        decide
      · simp at counts
  · intro table member
    rw [List.mem_singleton.1 member]
    decide
  · intro join member
    rcases List.mem_append.1 member with inner | left
    · exact joins .inner join inner
    · exact joins .left join left
  · intro condition member
    obtain ⟨conjunct, among, rfl⟩ := List.mem_map.1 member
    exact Conjunct.clean_render (named.conjuncts conjunct among)
  · intro group member
    rw [List.mem_singleton.1 member]
    decide
  · intro text member
    obtain ⟨order, among, rfl⟩ := List.mem_map.1 member
    exact Order.clean_render (named.orders order among)
  · intro text member
    obtain ⟨window, -, rfl⟩ := Option.map_eq_some_iff.1 member
    exact window.clean_render
  · exact named.comment

end PageTree
