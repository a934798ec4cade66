import PageTree.Sql.Literal
import PageTree.Text.Blank

/-!
Pattern matches and counts of a phrase, both without regard to the case of plain letters. `%` stands
for any text and `_` for any one character. Texts end at their first null character.
-/

namespace PageTree.Sql

inductive PatternItem where
  | any
  | one
  | char (c : Char)
  deriving DecidableEq, Repr

def PatternItem.ofChar (c : Char) : PatternItem :=
  if c = '%' then .any else if c = '_' then .one else .char c

/-- The items of a pattern; a character after the mark, if there is one, stands for itself. -/
def readPattern (mark : Option Char) : List Char → List PatternItem
  | [] => []
  | [c] => [.ofChar c]
  | c :: d :: cs =>
    if mark = some c then .char d :: readPattern mark cs
    else .ofChar c :: readPattern mark (d :: cs)

def sameLetter (c d : Char) : Bool :=
  c.toLower = d.toLower

/-- Does the predicate hold of the text after some of its leading characters? -/
def anySuffix (p : List Char → Bool) : List Char → Bool
  | [] => p []
  | c :: cs => p (c :: cs) || anySuffix p cs

theorem anySuffix_iff (p : List Char → Bool) (cs : List Char) :
    anySuffix p cs = true ↔ ∃ front back, cs = front ++ back ∧ p back = true := by
  induction cs with
  | nil =>
    constructor
    · exact fun h => ⟨[], [], rfl, h⟩
    · rintro ⟨front, back, h, hp⟩
      obtain ⟨rfl, rfl⟩ := List.append_eq_nil_iff.1 h.symm
      exact hp
  | cons c cs ih =>
    simp only [anySuffix, Bool.or_eq_true, ih]
    constructor
    · rintro (h | ⟨front, back, rfl, h⟩)
      · exact ⟨[], c :: cs, rfl, h⟩
      · exact ⟨c :: front, back, rfl, h⟩
    · rintro ⟨front, back, h, hp⟩
      cases front with
      | nil => exact .inl (by simpa using h ▸ hp)
      | cons d front =>
        obtain ⟨rfl, rfl⟩ := List.cons.inj h
        exact .inr ⟨front, back, rfl, hp⟩

/-- Does the whole text match the items? -/
def matchesItems : List PatternItem → List Char → Bool
  | [], text => text.isEmpty
  | .any :: items, text => anySuffix (matchesItems items) text
  | .one :: items, text =>
    match text with
    | _ :: rest => matchesItems items rest
    | [] => false
  | .char c :: items, text =>
    match text with
    | d :: rest => sameLetter c d && matchesItems items rest
    | [] => false

/-- How far an attempt to match a whole text comes. -/
inductive Attempt where
  | matched
  | mismatched
  /-- The text is too short for the items, and so is every end of it. -/
  | exhausted
  deriving DecidableEq, Repr

/-- The first attempt on an end of the text, from the longest on, that decides about all of them. -/
def attemptEnds (attempt : List Char → Attempt) : List Char → Attempt
  | [] =>
    match attempt [] with
    | .mismatched => .exhausted
    | outcome => outcome
  | c :: cs =>
    match attempt (c :: cs) with
    | .mismatched => attemptEnds attempt cs
    | outcome => outcome

/-- An attempt that gives up as soon as no end of the text can match, so that texts are not searched
again and again for every `%` of a pattern. -/
def attempt : List PatternItem → List Char → Attempt
  | [], text => if text.isEmpty then .matched else .mismatched
  | .any :: items, text => attemptEnds (attempt items) text
  | .one :: items, text =>
    match text with
    | _ :: rest => attempt items rest
    | [] => .exhausted
  | .char c :: items, text =>
    match text with
    | d :: rest => if sameLetter c d then attempt items rest else .mismatched
    | [] => .exhausted

/-- Does an attempt on the text come out right: matched exactly for the texts `p` holds of, and
exhausted only when `p` holds of no end of the text? -/
def Attempt.Sound (p : List Char → Bool) (outcome : Attempt) (text : List Char) : Prop :=
  (outcome = .matched ↔ p text = true) ∧
    (outcome = .exhausted → anySuffix p text = false)

theorem anySuffix_anySuffix (p : List Char → Bool) (cs : List Char) :
    anySuffix (anySuffix p) cs = anySuffix p cs := by
  induction cs with
  | nil => rfl
  | cons c cs ih => simp [anySuffix, ih]

theorem attemptEnds_sound {p : List Char → Bool} {attempt : List Char → Attempt}
    (h : ∀ text, (attempt text).Sound p text) (text : List Char) :
    (attemptEnds attempt text).Sound (anySuffix p) text := by
  induction text with
  | nil =>
    obtain ⟨hm, he⟩ := h []
    simp only [attemptEnds, Attempt.Sound, anySuffix]
    cases ho : attempt [] <;> simp_all [anySuffix]
  | cons c cs ih =>
    obtain ⟨hm, he⟩ := h (c :: cs)
    obtain ⟨im, ie⟩ := ih
    simp only [Attempt.Sound, anySuffix_anySuffix] at ie ⊢
    simp only [attemptEnds]
    cases ho : attempt (c :: cs) with
    | matched => simp_all [anySuffix]
    | mismatched =>
      rw [ho] at hm
      simp only [reduceCtorEq, false_iff, Bool.not_eq_true] at hm
      simp only [anySuffix, hm, Bool.false_or]
      exact ⟨im, ie⟩
    | exhausted =>
      have hn := he ho
      simp [hn]

/-- A character more in front leaves no end that holds, where what holds needs a character and then
an end of the rest. -/
theorem anySuffix_cons_eq_false {p q : List Char → Bool} (empty : p [] = false)
    (tail : ∀ c cs, p (c :: cs) = true → q cs = true) {rest : List Char}
    (none : anySuffix q rest = false) (first : Char) : anySuffix p (first :: rest) = false := by
  rw [Bool.eq_false_iff, Ne, anySuffix_iff]
  rintro ⟨front, back, heq, hp⟩
  cases back with
  | nil => exact Bool.false_ne_true (empty.symm.trans hp)
  | cons e back =>
    obtain ⟨front', rfl⟩ : ∃ front', rest = front' ++ back := by
      cases front with
      | nil => exact ⟨[], (List.cons.inj heq).2⟩
      | cons _ front => exact ⟨front ++ [e], by simpa using (List.cons.inj heq).2⟩
    exact Bool.eq_false_iff.1 none ((anySuffix_iff _ _).2 ⟨_, _, rfl, tail e back hp⟩)

theorem attempt_sound (items : List PatternItem) (text : List Char) :
    (attempt items text).Sound (matchesItems items) text := by
  induction items generalizing text with
  | nil =>
    constructor
    · cases text <;> simp [attempt, matchesItems]
    · cases text <;> simp [attempt]
  | cons item items ih =>
    cases item with
    | any => exact attemptEnds_sound ih text
    | one =>
      cases text with
      | nil => simp [attempt, Attempt.Sound, matchesItems, anySuffix]
      | cons d rest =>
        exact ⟨(ih rest).1, fun h => anySuffix_cons_eq_false rfl (fun _ _ => id) ((ih rest).2 h) d⟩
    | char c =>
      cases text with
      | nil => simp [attempt, Attempt.Sound, matchesItems, anySuffix]
      | cons d rest =>
        by_cases hl : sameLetter c d = true
        · refine ⟨by simpa [attempt, matchesItems, hl] using (ih rest).1, fun h => ?_⟩
          refine anySuffix_cons_eq_false rfl (fun e back hp => ?_)
            ((ih rest).2 (by simpa [attempt, hl] using h)) d
          simp only [matchesItems, Bool.and_eq_true] at hp
          exact hp.2
        · simp [attempt, Attempt.Sound, matchesItems, hl]

/-- An attempt decides whether the whole text matches. -/
theorem attempt_eq_matched_iff (items : List PatternItem) (text : List Char) :
    attempt items text = .matched ↔ matchesItems items text = true :=
  (attempt_sound items text).1

def beforeNull (cs : List Char) : List Char :=
  cs.takeWhile fun c => c ≠ '\x00'

def matchesPattern (pattern : String) (mark : Option Char) (text : String) : Bool :=
  attempt (readPattern mark pattern.toList) (beforeNull text.toList) = .matched

theorem matchesPattern_eq (pattern : String) (mark : Option Char) (text : String) :
    matchesPattern pattern mark text =
      matchesItems (readPattern mark pattern.toList) (beforeNull text.toList) := by
  rw [Bool.eq_iff_iff, matchesPattern, decide_eq_true_iff, attempt_eq_matched_iff]

/-- The text without the leftmost occurrences of `phrase` that do not overlap; `skip` characters
belong to an occurrence found before. -/
def removeFrom (phrase : List Char) : Nat → List Char → List Char
  | _, [] => []
  | skip + 1, _ :: cs => removeFrom phrase skip cs
  | 0, c :: cs =>
    if phrase.isPrefixOf (c :: cs) then removeFrom phrase (phrase.length - 1) cs
    else c :: removeFrom phrase 0 cs

/-- The text without the occurrences of `phrase`; nothing occurs of an empty phrase. -/
def removeAll (phrase text : List Char) : List Char :=
  if phrase.isEmpty then text else removeFrom phrase 0 text

/-- How often a phrase occurs in a text, none for an empty phrase: the characters that removing it
takes away, by its length. -/
def countPhrase? (phrase text : String) : Option Int :=
  let lowered := text.toList.map Char.toLower
  let kept := removeAll (phrase.toList.map Char.toLower) lowered
  let taken : Int := ((beforeNull text.toList).length : Int) - (beforeNull kept).length
  if phrase.length = 0 then none else some (taken.tdiv phrase.length)

end PageTree.Sql
