import Mathlib.Data.List.TakeWhile
import PageTree.Store.Table

/-!
Which texts match the pattern made from a value. Marked wildcards stand for themselves, so the items
of the pattern are the characters of the value, between or beside items for any text. Main
statements: the tests for a value inside, at the start and at the end of a text hold where the text
holds the value, when the case of plain letters is left out of account.
-/

namespace PageTree

namespace Text

/-- The text with its plain letters in lower case. -/
def lower (cs : List Char) : List Char :=
  cs.map Char.toLower

@[simp] theorem lower_nil : lower [] = [] := rfl

@[simp] theorem lower_cons (c : Char) (cs : List Char) :
    lower (c :: cs) = c.toLower :: lower cs := rfl

@[simp] theorem lower_append (cs ds : List Char) : lower (cs ++ ds) = lower cs ++ lower ds :=
  List.map_append ..

theorem lower_eq_append {cs front back : List Char} (split : lower cs = front ++ back) :
    ∃ before after, cs = before ++ after ∧ lower before = front ∧ lower after = back :=
  List.map_eq_append_iff.1 split

end Text

namespace Sql

open Text

/-! ### Reading patterns -/

theorem readPattern_cons {mark : Option Char} {c : Char} (plain : mark ≠ some c) (cs : List Char) :
    readPattern mark (c :: cs) = .ofChar c :: readPattern mark cs := by
  cases cs with
  | nil => rfl
  | cons d cs => rw [readPattern, if_neg plain]

theorem toList_any : "%".toList = ['%'] := rfl

/-- What is read of a value without its wildcards' meaning: each of its characters. -/
theorem readPattern_escapeLike (value rest : List Char) :
    readPattern (some likeMark) (value.flatMap escapeLikeChar ++ rest) =
      value.map .char ++ readPattern (some likeMark) rest := by
  induction value with
  | nil => rfl
  | cons c value induction =>
      rw [List.flatMap_cons, List.append_assoc, List.map_cons, List.cons_append, ← induction]
      unfold escapeLikeChar
      split
      · exact if_pos rfl
      · next plain =>
          simp only [Bool.or_eq_true, decide_eq_true_eq, isWildcard, not_or] at plain
          obtain ⟨⟨notAny, notOne⟩, notMark⟩ := plain
          rw [List.singleton_append, readPattern_cons (by simpa using Ne.symm notMark),
            PatternItem.ofChar, if_neg notAny, if_neg notOne]

/-! ### Matching them -/

theorem matchesItems_any (text : List Char) : matchesItems [.any] text = true := by
  rw [matchesItems, anySuffix_iff]
  exact ⟨text, [], (List.append_nil text).symm, rfl⟩

theorem matchesItems_chars (value : List Char) (items : List PatternItem) (text : List Char) :
    matchesItems (value.map .char ++ items) text = true ↔
      ∃ front back, text = front ++ back ∧ lower front = lower value ∧
        matchesItems items back = true := by
  induction value generalizing text with
  | nil =>
      constructor
      · exact fun found => ⟨[], text, rfl, rfl, found⟩
      · rintro ⟨front, back, rfl, same, found⟩
        rw [List.map_eq_nil_iff.1 same]
        exact found
  | cons c value induction =>
      rw [List.map_cons, List.cons_append]
      cases text with
      | nil =>
          constructor
          · intro found
            cases found
          · rintro ⟨front, back, empty, same, -⟩
            rw [(List.append_eq_nil_iff.1 empty.symm).1] at same
            cases same
      | cons d text =>
          rw [matchesItems, Bool.and_eq_true, induction, sameLetter, decide_eq_true_eq]
          constructor
          · rintro ⟨letter, front, back, rfl, same, found⟩
            exact ⟨d :: front, back, rfl, by rw [lower_cons, lower_cons, same, letter], found⟩
          · rintro ⟨front, back, split, same, found⟩
            cases front with
            | nil => cases same
            | cons e front =>
                rw [List.cons_append, List.cons.injEq] at split
                obtain ⟨rfl, rfl⟩ := split
                rw [lower_cons, lower_cons, List.cons.injEq] at same
                exact ⟨same.1.symm, front, back, rfl, same.2, found⟩

theorem matchesItems_front (value text : List Char) :
    matchesItems (value.map .char ++ [.any]) text = true ↔ lower value <+: lower text := by
  rw [matchesItems_chars]
  constructor
  · rintro ⟨front, back, rfl, same, -⟩
    exact ⟨lower back, by rw [← same, lower_append]⟩
  · rintro ⟨rest, joined⟩
    obtain ⟨front, back, rfl, same, -⟩ := lower_eq_append joined.symm
    exact ⟨front, back, rfl, same, matchesItems_any back⟩

theorem matchesItems_whole (value text : List Char) :
    matchesItems (value.map .char) text = true ↔ lower text = lower value := by
  have whole := matchesItems_chars value [] text
  rw [List.append_nil] at whole
  rw [whole]
  constructor
  · rintro ⟨front, back, rfl, same, empty⟩
    rw [List.isEmpty_iff.1 empty, List.append_nil]
    exact same
  · exact fun same => ⟨text, [], (List.append_nil text).symm, same, rfl⟩

theorem matchesItems_suffix (value text : List Char) :
    matchesItems (.any :: value.map .char) text = true ↔ lower value <:+ lower text := by
  rw [matchesItems, anySuffix_iff]
  constructor
  · rintro ⟨front, back, rfl, found⟩
    exact ⟨lower front, by rw [lower_append, (matchesItems_whole value back).1 found]⟩
  · rintro ⟨rest, joined⟩
    obtain ⟨front, back, rfl, -, same⟩ := lower_eq_append joined.symm
    exact ⟨front, back, rfl, (matchesItems_whole value back).2 same⟩

theorem matchesItems_infix (value text : List Char) :
    matchesItems (.any :: (value.map .char ++ [.any])) text = true ↔
      lower value <:+: lower text := by
  rw [matchesItems, anySuffix_iff]
  constructor
  · rintro ⟨front, back, rfl, found⟩
    obtain ⟨rest, joined⟩ := (matchesItems_front value back).1 found
    exact ⟨lower front, rest, by rw [lower_append, ← joined, List.append_assoc]⟩
  · rintro ⟨before, after, joined⟩
    rw [List.append_assoc] at joined
    obtain ⟨front, back, rfl, -, same⟩ := lower_eq_append joined.symm
    exact ⟨front, back, rfl, (matchesItems_front value back).2 ⟨after, same.symm⟩⟩

/-! ### Texts without null characters -/

theorem dropNulls_eq_self {text : String} (noNull : '\x00' ∉ text.toList) :
    dropNulls text = text := by
  rw [dropNulls, List.filter_eq_self.2, String.ofList_toList]
  intro c member
  exact decide_eq_true fun isNull => noNull (isNull ▸ member)

theorem noNull_escapeLike {value : String} (noNull : '\x00' ∉ value.toList) :
    '\x00' ∉ (escapeLike value).toList := by
  rw [toList_escapeLike]
  intro isNull
  obtain ⟨c, member, escaped⟩ := List.mem_flatMap.1 isNull
  unfold escapeLikeChar at escaped
  split at escaped
  · rcases List.mem_cons.1 escaped with isMark | same
    · exact absurd isMark (by decide)
    · exact noNull (List.mem_singleton.1 same ▸ member)
  · exact noNull (List.mem_singleton.1 escaped ▸ member)

theorem beforeNull_eq_self {cs : List Char} (noNull : '\x00' ∉ cs) : beforeNull cs = cs := by
  rw [beforeNull, List.takeWhile_eq_self_iff]
  intro c member
  exact decide_eq_true fun isNull => noNull (isNull ▸ member)

namespace Test

variable {affinity : Column → Affinity} {binding : Binding} {target : Column} {value text : String}

section

variable (holds : (binding target).text? = some text) (noNull : '\x00' ∉ text.toList)

include holds noNull

theorem truth_like (pattern : String) :
    (Test.like target pattern true).truth affinity binding =
      .ofBool (matchesItems (readPattern (some likeMark) pattern.toList) text.toList) := by
  simp only [truth, holds, if_true, matchesPattern_eq, beforeNull_eq_self noNull]

variable (valueNoNull : '\x00' ∉ value.toList)

include valueNoNull

theorem truth_contains :
    (contains target value).truth affinity binding = .yes ↔
      lower value.toList <:+: lower text.toList := by
  have items : readPattern (some likeMark) ("%" ++ escapeLike (dropNulls value) ++ "%").toList =
      .any :: (value.toList.map .char ++ [.any]) := by
    rw [String.toList_append, String.toList_append, toList_escapeLike,
      dropNulls_eq_self valueNoNull, List.append_assoc, toList_any, List.singleton_append,
      readPattern_cons (by decide), readPattern_escapeLike]
    rfl
  rw [contains, truth_like holds noNull, items, ← Truth.isYes_iff, Truth.isYes_ofBool,
    matchesItems_infix]

theorem truth_startsWith :
    (startsWith target value).truth affinity binding = .yes ↔
      lower value.toList <+: lower text.toList := by
  have items : readPattern (some likeMark) (escapeLike (dropNulls value) ++ "%").toList =
      value.toList.map .char ++ [.any] := by
    rw [String.toList_append, toList_escapeLike, dropNulls_eq_self valueNoNull,
      readPattern_escapeLike]
    rfl
  rw [startsWith, truth_like holds noNull, items, ← Truth.isYes_iff, Truth.isYes_ofBool,
    matchesItems_front]

theorem truth_endsWith :
    (endsWith target value).truth affinity binding = .yes ↔
      lower value.toList <:+ lower text.toList := by
  have items : readPattern (some likeMark) ("%" ++ escapeLike (dropNulls value)).toList =
      .any :: value.toList.map .char := by
    have read := readPattern_escapeLike value.toList []
    rw [List.append_nil, readPattern, List.append_nil] at read
    rw [String.toList_append, toList_escapeLike, dropNulls_eq_self valueNoNull, toList_any,
      List.singleton_append, readPattern_cons (by decide), read]
    rfl
  rw [endsWith, truth_like holds noNull, items, ← Truth.isYes_iff, Truth.isYes_ofBool,
    matchesItems_suffix]

end

end Test

end Sql

end PageTree
