import PageTree.Error
import PageTree.Proofs.Data.Result
import PageTree.Proofs.Text.Pieces

/-!
Selectors in writing. A draft is a term before it is written: every value comes with the quote that
stands around it, which is one that the value does not contain. Main statements: drafts written with
commas between them are read back as the terms they are, in order, whatever their values hold; and
a selector that was read from any text, with quotes left open or not, is read back from its own.
-/

namespace PageTree

open Text

/-! ### Characters of names and operators -/

namespace Term

/-- A character of one field name. -/
def isNameChar (c : Char) : Bool :=
  isAlphanumeric c || c = '_' || c = '.'

theorem isFieldChar_of_isNameChar {c : Char} (name : isNameChar c = true) :
    isFieldChar c = true := by
  rw [isFieldChar, ← isNameChar, name, Bool.true_or]

def blankCodes : List Nat :=
  [9, 10, 11, 12, 13, 0x20, 0x85, 0xa0, 0x1680, 0x2000, 0x2001, 0x2002, 0x2003, 0x2004, 0x2005,
    0x2006, 0x2007, 0x2008, 0x2009, 0x200a, 0x2028, 0x2029, 0x202f, 0x205f, 0x3000]

theorem isBlank_of_isFieldChar {c : Char} (field : isFieldChar c = true) : isBlank c = false := by
  by_contra blank
  -- There are but a few blanks, and each of them is looked at.
  have code : c.toNat ∈ blankCodes := by
    simp only [isBlank, Bool.not_eq_false, Bool.or_eq_true, Bool.and_eq_true, decide_eq_true_eq,
      beq_iff_eq] at blank
    simp only [blankCodes, List.mem_cons, List.not_mem_nil, or_false]
    omega
  have outside : ∀ n ∈ blankCodes, isFieldChar (Char.ofNat n) = false := by decide +kernel
  have strange := outside c.toNat code
  rw [Char.ofNat_toNat, field] at strange
  cases strange

theorem isFieldChar_of_isOperatorChar {c : Char} (operator : isOperatorChar c = true) :
    isFieldChar c = false := by
  have outside : operatorChars.all (fun c => !isFieldChar c) = true := by decide +kernel
  simpa using List.all_eq_true.1 outside c (List.contains_iff_mem.1 operator)

theorem isBlank_of_isOperatorChar {c : Char} (operator : isOperatorChar c = true) :
    isBlank c = false := by
  have outside : operatorChars.all (fun c => !isBlank c) = true := by decide
  simpa using List.all_eq_true.1 outside c (List.contains_iff_mem.1 operator)

theorem isOperatorChar_of_mem_token (operator : Operator) :
    ∀ c ∈ operator.token.toList, isOperatorChar c = true := by
  have all : operator.token.toList.all isOperatorChar = true := by
    cases operator <;> decide
  exact List.all_eq_true.1 all

theorem isOperatorChar_of_isQuote {c : Char} (quote : isQuote c = true) :
    isOperatorChar c = false := by
  simp only [isQuote, Bool.or_eq_true, decide_eq_true_eq] at quote
  rcases quote with rfl | rfl <;> decide

theorem isQuote_of_isFieldChar {c : Char} (field : isFieldChar c = true) : isQuote c = false := by
  by_contra quote
  simp only [isQuote, Bool.not_eq_false, Bool.or_eq_true, decide_eq_true_eq] at quote
  rcases quote with rfl | rfl <;> exact absurd field (by decide)

theorem operatorOfRun?_token (operator : Operator) :
    operatorOfRun? operator.token.toList = some (operator, operator.token.toList.length) := by
  rw [operatorOfRun?, String.ofList_toList, Operator.ofToken?_token]

end Term

/-! ### Quoted values -/

structure QuotedValue where
  value : String
  quote : Char
  isQuote : isQuote quote = true
  apart : quote ∉ value.toList

namespace QuotedValue

def text (quoted : QuotedValue) : String :=
  String.singleton quoted.quote ++ quoted.value ++ String.singleton quoted.quote

/-- Every value that does not hold both quotes can be written. -/
theorem exists_value_eq {value : String} (free : ¬('"' ∈ value.toList ∧ '\'' ∈ value.toList)) :
    ∃ quoted : QuotedValue, quoted.value = value := by
  rw [not_and_or] at free
  rcases free with double | single
  · exact ⟨{ value, quote := '"', isQuote := rfl, apart := double }, rfl⟩
  · exact ⟨{ value, quote := '\'', isQuote := rfl, apart := single }, rfl⟩

theorem toList_text (quoted : QuotedValue) :
    quoted.text.toList = quoted.quote :: (quoted.value.toList ++ [quoted.quote]) := by
  simp [text]

theorem isWhole_text (sep : Char) (quoted : QuotedValue) : IsWhole sep quoted.text.toList := by
  rw [toList_text]
  exact isWhole_quoted quoted.isQuote quoted.apart

theorem isTight_text (quoted : QuotedValue) : IsTight quoted.text.toList := by
  have inked := isBlank_of_isQuote quoted.isQuote
  rw [toList_text]
  exact ⟨⟨quoted.quote, rfl, inked⟩, ⟨quoted.quote, by simp [List.getLast?_cons], inked⟩⟩

theorem unquote_trim_text (quoted : QuotedValue) :
    String.ofList (unquote (trim quoted.text.toList)) = quoted.value := by
  rw [trim_eq quoted.isTight_text, toList_text, unquote_quoted quoted.quote quoted.isQuote,
    String.ofList_toList]

end QuotedValue

/-! ### Terms -/

structure Draft where
  negated : Bool
  fields : List String
  operator : Operator
  values : List QuotedValue
  fields_ne_nil : fields ≠ []
  isName : ∀ field ∈ fields, field ≠ "" ∧ ∀ c ∈ field.toList, Term.isNameChar c = true
  values_ne_nil : values ≠ []

namespace Draft

def mark (draft : Draft) : String :=
  if draft.negated then "!" else ""

def names (draft : Draft) : String :=
  "|".intercalate draft.fields

def valueTexts (draft : Draft) : String :=
  "|".intercalate (draft.values.map QuotedValue.text)

def text (draft : Draft) : String :=
  draft.mark ++ draft.names ++ draft.operator.token ++ draft.valueTexts

def term (draft : Draft) : Term where
  fields := draft.fields
  values := draft.values.map QuotedValue.value
  operator := draft.operator
  negated := draft.negated
  text := draft.text

/-- What follows the mark. -/
def body (draft : Draft) : List Char :=
  draft.names.toList ++ (draft.operator.token.toList ++ draft.valueTexts.toList)

theorem toList_text (draft : Draft) : draft.text.toList = draft.mark.toList ++ draft.body := by
  simp [text, body]

theorem toList_names (draft : Draft) :
    draft.names.toList = ['|'].intercalate (draft.fields.map String.toList) :=
  String.toList_intercalate

theorem toList_valueTexts (draft : Draft) :
    draft.valueTexts.toList
      = ['|'].intercalate (draft.values.map fun quoted => quoted.text.toList) := by
  rw [valueTexts, String.toList_intercalate, List.map_map]
  rfl

theorem isFieldChar_of_mem_names (draft : Draft) :
    ∀ c ∈ draft.names.toList, Term.isFieldChar c = true := by
  rw [toList_names]
  refine forall_mem_intercalate (by decide) ?_
  rw [List.forall_mem_map]
  exact fun field member c spelled =>
    Term.isFieldChar_of_isNameChar ((draft.isName field member).2 c spelled)

/-- Names begin with a name character, so neither a mark nor a blank is their first. -/
theorem exists_names_eq_cons (draft : Draft) :
    ∃ c rest, draft.names.toList = c :: rest ∧ Term.isFieldChar c = true := by
  cases spelled : draft.names.toList with
  | cons c rest =>
      exact ⟨c, rest, rfl, draft.isFieldChar_of_mem_names c (spelled ▸ List.mem_cons_self ..)⟩
  | nil =>
      obtain ⟨field, fields, listed⟩ := List.exists_cons_of_ne_nil draft.fields_ne_nil
      have named := (draft.isName field (listed ▸ List.mem_cons_self ..)).1
      rw [toList_names, listed] at spelled
      cases fields with
      | nil => exact absurd (String.toList_eq_nil_iff.1 (by simpa using spelled)) named
      | cons next fields => simp at spelled

theorem exists_token_eq_cons (operator : Operator) :
    ∃ c rest, operator.token.toList = c :: rest ∧ Term.isOperatorChar c = true := by
  cases operator <;> exact ⟨_, _, rfl, by decide⟩

theorem isTight_valueTexts (draft : Draft) : IsTight draft.valueTexts.toList := by
  rw [toList_valueTexts]
  refine IsTight.intercalate ?_ (by simpa using draft.values_ne_nil)
  rw [List.forall_mem_map]
  exact fun quoted _ => quoted.isTight_text

theorem exists_valueTexts_eq_cons (draft : Draft) :
    ∃ c rest, draft.valueTexts.toList = c :: rest ∧ isQuote c = true := by
  obtain ⟨quoted, values, listed⟩ := List.exists_cons_of_ne_nil draft.values_ne_nil
  rw [toList_valueTexts, listed, List.map_cons, QuotedValue.toList_text]
  cases values with
  | nil => exact ⟨quoted.quote, _, by rw [List.map_nil, List.intercalate_singleton], quoted.isQuote⟩
  | cons next values =>
      exact ⟨quoted.quote, _, by rw [List.map_cons, List.intercalate_cons_cons]; rfl,
        quoted.isQuote⟩

theorem readMark_text (draft : Draft) :
    Term.readMark draft.text.toList = (draft.negated, draft.body) := by
  obtain ⟨c, rest, spelled, field⟩ := draft.exists_names_eq_cons
  rw [toList_text, mark]
  cases negated : draft.negated with
  | false =>
      have unmarked : c ≠ '!' := by
        rintro rfl
        exact absurd field (by decide)
      rw [if_neg (by decide), body, spelled]
      simp [Term.readMark, unmarked]
  | true =>
      have untrimmed : trimStart draft.body = draft.body :=
        trimStart_eq ⟨c, by simp [body, spelled], Term.isBlank_of_isFieldChar field⟩
      rw [if_pos rfl]
      exact congrArg (Prod.mk true) untrimmed

theorem takeWhile_body (draft : Draft) :
    draft.body.takeWhile Term.isFieldChar = draft.names.toList := by
  obtain ⟨c, rest, spelled, operates⟩ := exists_token_eq_cons draft.operator
  rw [body, List.takeWhile_append_of_pos draft.isFieldChar_of_mem_names, spelled, List.cons_append,
    List.takeWhile_cons_of_neg (by simp [Term.isFieldChar_of_isOperatorChar operates]),
    List.append_nil]

theorem dropWhile_body (draft : Draft) :
    draft.body.dropWhile Term.isFieldChar
      = draft.operator.token.toList ++ draft.valueTexts.toList := by
  obtain ⟨c, rest, spelled, operates⟩ := exists_token_eq_cons draft.operator
  rw [body, List.dropWhile_append_of_pos draft.isFieldChar_of_mem_names, spelled, List.cons_append,
    List.dropWhile_cons_of_neg (by simp [Term.isFieldChar_of_isOperatorChar operates])]

theorem trimStart_token_append (draft : Draft) :
    trimStart (draft.operator.token.toList ++ draft.valueTexts.toList)
      = draft.operator.token.toList ++ draft.valueTexts.toList := by
  obtain ⟨c, rest, spelled, operates⟩ := exists_token_eq_cons draft.operator
  exact trimStart_eq ⟨c, by simp [spelled], Term.isBlank_of_isOperatorChar operates⟩

/-- The quote of the first value ends the run of operator characters. -/
theorem takeWhile_token_append (draft : Draft) :
    (draft.operator.token.toList ++ draft.valueTexts.toList).takeWhile Term.isOperatorChar
      = draft.operator.token.toList := by
  obtain ⟨c, rest, spelled, quote⟩ := draft.exists_valueTexts_eq_cons
  rw [List.takeWhile_append_of_pos (Term.isOperatorChar_of_mem_token draft.operator), spelled,
    List.takeWhile_cons_of_neg (by simp [Term.isOperatorChar_of_isQuote quote]), List.append_nil]

theorem splitAt_names (draft : Draft) :
    splitAt '|' draft.names.toList = draft.fields.map String.toList := by
  rw [splitAt_eq_splitOn, toList_names]
  refine List.splitOn_intercalate '|' ?_ (by simpa using draft.fields_ne_nil)
  rw [List.forall_mem_map]
  exact fun field member bar => absurd ((draft.isName field member).2 '|' bar) (by decide)

theorem readValues_valueTexts (draft : Draft) :
    Term.readValues draft.valueTexts.toList = draft.values.map QuotedValue.value := by
  have split : splitUnquoted '|' draft.valueTexts.toList
      = draft.values.map fun quoted => quoted.text.toList := by
    rw [toList_valueTexts]
    refine splitUnquoted_intercalate (by decide) ?_ (by simpa using draft.values_ne_nil)
    rw [List.forall_mem_map]
    exact fun quoted _ => quoted.isWhole_text '|'
  rw [Term.readValues, trim_eq draft.isTight_valueTexts, split, List.map_map]
  exact List.map_congr_left fun quoted _ => quoted.unquote_trim_text

theorem read_text (draft : Draft) : Term.read draft.text.toList = .ok draft.term := by
  have named : draft.names.toList ≠ [] := by
    obtain ⟨c, rest, spelled, -⟩ := draft.exists_names_eq_cons
    rw [spelled]
    exact List.cons_ne_nil c rest
  have operates : draft.operator.token.toList ≠ [] := by
    obtain ⟨c, rest, spelled, -⟩ := exists_token_eq_cons draft.operator
    rw [spelled]
    exact List.cons_ne_nil c rest
  have full : (draft.fields.map String.toList).any List.isEmpty = false := by
    rw [List.any_eq_false, List.forall_mem_map]
    intro field member
    simpa using (draft.isName field member).1
  simp only [Term.read, readMark_text, takeWhile_body, dropWhile_body, trimStart_token_append,
    takeWhile_token_append, Term.operatorOfRun?_token, splitAt_names, List.drop_left,
    readValues_valueTexts, List.isEmpty_iff, named, operates, full]
  simp [term, Function.comp_def]

theorem isTight_text (draft : Draft) : IsTight draft.text.toList := by
  obtain ⟨c, rest, spelled, field⟩ := draft.exists_names_eq_cons
  obtain ⟨d, last, solid⟩ := draft.isTight_valueTexts.last
  rw [toList_text, body, ← List.append_assoc, ← List.append_assoc]
  refine IsTight.append ?_ ⟨d, last, solid⟩
  rw [mark, spelled]
  cases draft.negated with
  | false => exact ⟨c, rfl, Term.isBlank_of_isFieldChar field⟩
  | true => exact ⟨'!', rfl, by decide⟩

/-- Commas stand in the quotes of values only. -/
theorem isWhole_text (draft : Draft) : IsWhole ',' draft.text.toList := by
  have mark : IsWhole ',' draft.mark.toList := by
    rw [Draft.mark]
    cases draft.negated <;> exact isWhole_of_all (by decide)
  have names : IsWhole ',' draft.names.toList := by
    refine isWhole_of_plain fun c member => ?_
    have field := draft.isFieldChar_of_mem_names c member
    refine ⟨?_, Term.isQuote_of_isFieldChar field⟩
    rintro rfl
    exact absurd field (by decide)
  have token : IsWhole ',' draft.operator.token.toList := by
    cases draft.operator <;> exact isWhole_of_all (by decide)
  have values : IsWhole ',' draft.valueTexts.toList := by
    rw [toList_valueTexts]
    refine IsWhole.intercalate (by decide) (by decide) ?_
    rw [List.forall_mem_map]
    exact fun quoted _ => quoted.isWhole_text ','
  rw [toList_text, body]
  exact mark.append (names.append (token.append values))

end Draft

namespace Selector

theorem pieces_intercalate_of_arePieces {texts : List (List Char)} (are : ArePieces ',' texts)
    (tight : ∀ text ∈ texts, IsTight text) : pieces ([',', ' '].intercalate texts) = texts := by
  cases texts with
  | nil => rfl
  | cons first later =>
      have blank : ' ' ≠ ',' ∧ isQuote ' ' = false := by decide
      have indented := (are.indent blank).splitUnquoted_eq (by decide) (List.cons_ne_nil first _)
      have trimmed : ((first :: later.map (' ' :: ·)).map trim) = first :: later := by
        rw [List.forall_mem_cons] at tight
        have rest : ∀ text ∈ later, (trim ∘ (' ' :: ·)) text = id text := fun text member =>
          (trim_blank_cons text).trans (trim_eq (tight.2 text member))
        rw [List.map_cons, trim_eq tight.1, List.map_map, List.map_congr_left rest, List.map_id]
      rw [pieces, intercalate_pair, indented, trimmed, List.filter_eq_self]
      exact fun text member => by simpa using (tight text member).ne_nil

theorem pieces_intercalate {texts : List (List Char)} (whole : ∀ text ∈ texts, IsWhole ',' text)
    (tight : ∀ text ∈ texts, IsTight text) : pieces ([',', ' '].intercalate texts) = texts :=
  pieces_intercalate_of_arePieces (.of_isWhole whole) tight

theorem read_texts (drafts : List Draft) :
    read (", ".intercalate (drafts.map Draft.text)) = .ok (drafts.map Draft.term) := by
  -- The drafts are the pieces between commas, and each piece is read on its own.
  have cut : pieces (", ".intercalate (drafts.map Draft.text)).toList
      = drafts.map fun draft => draft.text.toList := by
    rw [String.toList_intercalate, List.map_map]
    refine pieces_intercalate ?_ ?_ <;> rw [List.forall_mem_map]
    · exact fun draft _ => draft.isWhole_text
    · exact fun draft _ => draft.isTight_text
  rw [read, cut, mapM_eq_ok, List.forall₂_map_left_iff, List.forall₂_map_right_iff,
    List.forall₂_same]
  intro draft member
  rw [draft.read_text]

end Selector

/-! ### Terms as they were written -/

namespace Term

/-- The text of the term reads as the term. -/
def IsWritten (term : Term) : Prop :=
  Term.read term.text.toList = .ok term

theorem IsWritten.eq_of_text_eq {term other : Term} (written : term.IsWritten)
    (isOther : other.IsWritten) (same : term.text = other.text) : term = other := by
  unfold IsWritten at written isOther
  rw [same, isOther] at written
  exact (Except.ok.inj written).symm

/-- What follows the names of a term. -/
def afterNames (cs : List Char) : List Char :=
  trimStart ((readMark cs).2.dropWhile isFieldChar)

/-- A text that reads as a term has an operator after the names, none of which is empty, and all
else is values. -/
theorem exists_of_read {cs : List Char} {term : Term} (written : Term.read cs = .ok term) :
    ∃ operator length,
      operatorOfRun? ((afterNames cs).takeWhile isOperatorChar) = some (operator, length) ∧
      (splitAt '|' ((readMark cs).2.takeWhile isFieldChar)).any List.isEmpty = false ∧
      term =
        { fields := (splitAt '|' ((readMark cs).2.takeWhile isFieldChar)).map String.ofList
          values := readValues ((afterNames cs).drop length)
          operator
          negated := (readMark cs).1
          text := String.ofList cs } := by
  simp only [Term.read] at written
  split at written
  · cases written
  split at written
  · cases written
  split at written
  · cases written
  next operator length found =>
  split at written
  · cases written
  · next full =>
    exact ⟨operator, length, found, Bool.eq_false_iff.2 full, (Except.ok.inj written).symm⟩

theorem text_eq_of_read {cs : List Char} {term : Term} (written : Term.read cs = .ok term) :
    term.text = String.ofList cs := by
  obtain ⟨_, _, -, -, rfl⟩ := exists_of_read written
  rfl

theorem IsWritten.values_ne_nil {term : Term} (written : term.IsWritten) : term.values ≠ [] := by
  obtain ⟨_, _, -, -, same⟩ := exists_of_read written
  rw [same, readValues, splitUnquoted]
  simp [splitUnquotedFrom_ne_nil]

theorem IsWritten.fields_ne_nil {term : Term} (written : term.IsWritten) : term.fields ≠ [] := by
  obtain ⟨_, _, -, -, same⟩ := exists_of_read written
  rw [same]
  simp [splitAt_ne_nil]

/-! ### Around a value -/

/-- What stands around the only value of a term. -/
def isMargin (c : Char) : Bool :=
  isBlank c || isQuote c || isFieldChar c || isOperatorChar c

theorem isMargin_of_isBlank {c : Char} (blank : isBlank c = true) : isMargin c = true := by
  rw [isMargin, blank, Bool.true_or, Bool.true_or, Bool.true_or]

theorem isMargin_of_isFieldChar {c : Char} (field : isFieldChar c = true) : isMargin c = true := by
  rw [isMargin, field, Bool.or_true, Bool.true_or]

theorem isMargin_of_isOperatorChar {c : Char} (operator : isOperatorChar c = true) :
    isMargin c = true := by
  rw [isMargin, operator, Bool.or_true]

/-- A text with nothing but margins before and behind another one. -/
def IsAround (cs inner : List Char) : Prop :=
  ∃ front back, cs = front ++ inner ++ back ∧ ∀ c ∈ front ++ back, isMargin c = true

theorem IsAround.trans {cs middle inner : List Char} (around : IsAround cs middle)
    (within : IsAround middle inner) : IsAround cs inner := by
  obtain ⟨front, back, rfl, margins⟩ := around
  obtain ⟨front', back', rfl, others⟩ := within
  refine ⟨front ++ front', back' ++ back, by simp, ?_⟩
  rw [List.forall_mem_append] at margins others
  simp only [List.forall_mem_append]
  exact ⟨⟨margins.1, others.1⟩, others.2, margins.2⟩

theorem isAround_trim (cs : List Char) : IsAround cs (trim cs) := by
  obtain ⟨front, back, whole, before, behind⟩ := exists_eq_append_trim cs
  refine ⟨front, back, by rw [List.append_assoc, ← whole], ?_⟩
  rw [List.forall_mem_append]
  exact ⟨fun c member => isMargin_of_isBlank (before c member),
    fun c member => isMargin_of_isBlank (behind c member)⟩

theorem IsAround.refl (cs : List Char) : IsAround cs cs :=
  ⟨[], [], by simp, by simp⟩

theorem isAround_append {front : List Char} (margins : ∀ c ∈ front, isMargin c = true)
    (cs : List Char) : IsAround (front ++ cs) cs :=
  ⟨front, [], by simp, by simpa using margins⟩

theorem isAround_dropWhile {p : Char → Bool} (margin : ∀ c, p c = true → isMargin c = true)
    (cs : List Char) : IsAround cs (cs.dropWhile p) := by
  have front : ∀ c ∈ cs.takeWhile p, isMargin c = true :=
    fun c member => margin c (List.mem_takeWhile_imp member)
  have around := isAround_append front (cs.dropWhile p)
  rwa [List.takeWhile_append_dropWhile] at around

theorem isAround_unquoteWith? {q : Char} (quote : isQuote q = true) {cs inner : List Char}
    (found : unquoteWith? q cs = some inner) : IsAround cs inner := by
  unfold unquoteWith? at found
  split at found
  · next c rest =>
    split at found
    · next quoted =>
      obtain ⟨rfl, last⟩ := quoted
      cases found
      refine ⟨[c], [c], ?_, ?_⟩
      · rw [List.append_assoc, List.dropLast_append_getLast? c last]
        rfl
      · simp [isMargin, quote]
    · cases found
  · cases found

theorem isAround_unquote (cs : List Char) : IsAround cs (unquote cs) := by
  unfold unquote
  cases double : unquoteWith? '"' cs with
  | some inner => exact isAround_unquoteWith? (by decide) double
  | none =>
      cases single : unquoteWith? '\'' cs with
      | some inner => exact isAround_unquoteWith? (by decide) single
      | none => exact .refl cs

theorem isAround_readMark (cs : List Char) : IsAround cs (readMark cs).2 := by
  unfold readMark
  split
  · next rest =>
    have mark : ∀ c ∈ ['!'], isMargin c = true :=
      List.forall_mem_singleton.2 (isMargin_of_isOperatorChar (by decide))
    exact (isAround_append mark rest).trans (isAround_dropWhile (fun _ => isMargin_of_isBlank) rest)
  · exact .refl cs

theorem length_le_of_operatorOfRun? {run : List Char} {operator : Operator} {length : Nat}
    (found : operatorOfRun? run = some (operator, length)) : length ≤ run.length := by
  unfold operatorOfRun? at found
  split at found
  · cases found
    exact Nat.le_refl _
  · split at found
    · cases found
    · next start rest split =>
      obtain ⟨⟨front, back⟩, first, parts⟩ := Option.map_eq_some_iff.1 split
      obtain ⟨rfl, rfl⟩ := Prod.mk.inj parts
      split at found
      · cases found
      · obtain ⟨_, -, same⟩ := Option.map_eq_some_iff.1 found
        obtain ⟨-, rfl⟩ := Prod.mk.inj same
        rw [(splitFirst?_eq_some first).1]
        simp

theorem isAround_drop {cs : List Char} {operator : Operator} {length : Nat}
    (found : operatorOfRun? (cs.takeWhile isOperatorChar) = some (operator, length)) :
    IsAround cs (cs.drop length) := by
  have spelled : cs.take length = (cs.takeWhile isOperatorChar).take length := by
    conv_lhs => rw [← List.takeWhile_append_dropWhile (p := isOperatorChar) (l := cs)]
    exact List.take_append_of_le_length (length_le_of_operatorOfRun? found)
  have front : ∀ c ∈ cs.take length, isMargin c = true := by
    intro c member
    rw [spelled] at member
    exact isMargin_of_isOperatorChar (List.mem_takeWhile_imp (List.mem_of_mem_take member))
  have around := isAround_append front (cs.drop length)
  rwa [List.take_append_drop] at around

theorem isAround_of_readValues {cs : List Char} {value : String}
    (given : readValues cs = [value]) : IsAround cs value.toList := by
  obtain ⟨piece, single, rfl⟩ := List.map_eq_singleton_iff.1 given
  obtain rfl := eq_of_splitUnquotedFrom_eq_singleton single
  rw [String.toList_ofList]
  exact ((isAround_trim cs).trans (isAround_trim _)).trans (isAround_unquote _)

/-- The text of a term with one value is that value, with margins around it. -/
theorem IsWritten.isAround {term : Term} (written : term.IsWritten) {value : String}
    (values : term.values = [value]) : IsAround term.text.toList value.toList := by
  obtain ⟨operator, length, found, -, same⟩ := exists_of_read written
  rw [same] at values
  have names : IsAround term.text.toList (afterNames term.text.toList) :=
    ((isAround_readMark _).trans (isAround_dropWhile (fun _ => isMargin_of_isFieldChar) _)).trans
      (isAround_dropWhile (fun _ => isMargin_of_isBlank) _)
  exact names.trans ((isAround_drop found).trans (isAround_of_readValues values))

end Term

namespace Selector

theorem forall₂_of_read {s : String} {selector : Selector} (written : read s = .ok selector) :
    List.Forall₂ (fun piece term => Term.read piece = .ok term) (pieces s.toList) selector := by
  refine (mapM_eq_ok.1 written).imp fun piece term outcome => ?_
  cases found : Term.read piece with
  | error fault => simp [found] at outcome
  | ok other => simpa [found] using outcome

theorem isWritten_of_read {s : String} {selector : Selector} (written : read s = .ok selector) :
    ∀ term ∈ selector, term.IsWritten := by
  intro term member
  obtain ⟨piece, -, found⟩ := exists_of_mem_forall₂ (forall₂_of_read written) member
  rw [Term.IsWritten, Term.text_eq_of_read found, String.toList_ofList, found]

/-- Every term asks for something, and terms with one text are one term. -/
structure IsFaithful (selector : Selector) : Prop where
  fields : ∀ term ∈ selector, term.fields ≠ []
  values : ∀ term ∈ selector, term.values ≠ []
  texts : ∀ term ∈ selector, ∀ other ∈ selector, term.text = other.text → term = other

theorem isFaithful_of_read {s : String} {selector : Selector}
    (written : read s = .ok selector) : selector.IsFaithful := by
  have each := isWritten_of_read written
  constructor
  · exact fun term member => (each term member).fields_ne_nil
  · exact fun term member => (each term member).values_ne_nil
  · intro term isTerm other isOther same
    exact (each term isTerm).eq_of_text_eq (each other isOther) same

/-! ### Reading again -/

theorem arePieces_pieces (cs : List Char) : ArePieces ',' (pieces cs) :=
  (arePieces_splitUnquoted ',' cs).trim.filter _

theorem isTight_of_mem_pieces {cs piece : List Char} (member : piece ∈ pieces cs) :
    IsTight piece := by
  obtain ⟨isTrimmed, full⟩ := List.mem_filter.1 member
  obtain ⟨raw, -, rfl⟩ := List.mem_map.1 isTrimmed
  exact isTight_trim (by simpa using full)

theorem toList_text_of_read {s : String} {selector : Selector} (written : read s = .ok selector) :
    selector.text.toList = [',', ' '].intercalate (pieces s.toList) := by
  have each : List.Forall₂ Eq (pieces s.toList) (selector.map fun term => term.text.toList) := by
    rw [List.forall₂_map_right_iff]
    refine (forall₂_of_read written).imp fun piece term found => ?_
    rw [Term.text_eq_of_read found, String.toList_ofList]
  rw [List.forall₂_eq_eq_eq] at each
  rw [text, String.toList_intercalate, List.map_map, each]
  rfl

/-- Texts without their outer blanks have the same quotes open at every comma. -/
theorem read_text_of_read {s : String} {selector : Selector} (written : read s = .ok selector) :
    read selector.text = .ok selector := by
  rw [read, toList_text_of_read written, pieces_intercalate_of_arePieces
    (arePieces_pieces s.toList) fun piece => isTight_of_mem_pieces]
  exact written

/-- Two terms between empty ones; the second opens a quote that nothing closes. -/
def unclosedTerms : Selector :=
  [{ fields := ["title"], values := ["foo"], operator := .equal, negated := false,
      text := "title=foo" },
    { fields := ["a", "b"], values := ["'x, y"], operator := .containsWords, negated := true,
      text := "! a|b ~= 'x, y" }]

theorem read_text_unclosedTerms :
    read ",\x0b title=foo ,, ! a|b ~= 'x, y\n" = .ok unclosedTerms ∧
      read unclosedTerms.text = .ok unclosedTerms := by
  have written : read ",\x0b title=foo ,, ! a|b ~= 'x, y\n" = .ok unclosedTerms := by
    decide +kernel
  exact ⟨written, read_text_of_read written⟩

end Selector

end PageTree
