import Mathlib.Data.List.TakeWhile
import PageTree.Store.Selection

/-!
The text of a test on a column, read as part of a statement: its tokens, the expression they make up
and the value of that expression where the column holds a text. The literal of a value, with its
quotes doubled, is read as the value.
-/

namespace PageTree.Sql

/-- A name that a statement reads as one word, with nothing to be skipped before it. -/
structure IsReadName (name : String) : Prop where
  qualifies : isQualifier name = true
  begins : name.toList.head?.any Lexical.isBlank = false

instance (name : String) : Decidable (IsReadName name) :=
  decidable_of_iff (isQualifier name = true ∧ name.toList.head?.any Lexical.isBlank = false)
    ⟨fun given => ⟨given.1, given.2⟩, fun given => ⟨given.qualifies, given.begins⟩⟩

theorem IsReadName.exists_cons {name : String} (isRead : IsReadName name) :
    ∃ c cs, name.toList = c :: cs ∧ isNameStart c = true ∧ (∀ d ∈ cs, isNameChar d = true) ∧
      Lexical.isBlank c = false := by
  obtain ⟨qualifies, begins⟩ := isRead
  simp only [isQualifier, isBareName, isWord, Bool.and_eq_true] at qualifies
  cases spelled : name.toList with
  | nil =>
      rw [spelled] at qualifies
      exact absurd qualifies.1.1 (by decide)
  | cons c cs =>
      rw [spelled, Bool.and_eq_true] at qualifies
      obtain ⟨starts, named⟩ := qualifies.1.1
      rw [spelled] at begins
      exact ⟨c, cs, rfl, starts, List.all_eq_true.1 named, begins⟩

theorem IsReadName.noNull {name : String} (isRead : IsReadName name) : '\x00' ∉ name.toList := by
  obtain ⟨c, cs, spelled, starts, named, -⟩ := isRead.exists_cons
  rw [spelled, List.mem_cons]
  rintro (rfl | member)
  · exact absurd starts (by decide)
  · exact absurd (named _ member) (by decide)

namespace Lexical

/-! ### Quoted text -/

theorem readQuoted?_cons {quote c : Char} (plain : c ≠ quote) (cs : List Char) :
    readQuoted? quote (c :: cs) = (readQuoted? quote cs).map fun r => (c :: r.1, r.2) := by
  cases cs with
  | nil => simp [readQuoted?, plain]
  | cons d cs => rw [readQuoted?, if_neg plain]

theorem readQuoted?_end {quote : Char} {rest : List Char} (ends : rest.head? ≠ some quote) :
    readQuoted? quote (quote :: rest) = some ([], rest) := by
  cases rest with
  | nil => rw [readQuoted?, if_pos rfl]
  | cons d rest => rw [readQuoted?, if_pos rfl, if_neg fun same => ends (congrArg some same)]

/-- A value is read back from its literal. -/
theorem readQuoted?_escape {value rest : List Char} (noNull : '\x00' ∉ value)
    (ends : rest.head? ≠ some '\'') :
    readQuoted? '\'' (value.flatMap escapeChar ++ '\'' :: rest) = some (value, rest) := by
  induction value with
  | nil => exact readQuoted?_end ends
  | cons c value induction =>
      rw [List.mem_cons, not_or] at noNull
      rw [List.flatMap_cons, List.append_assoc]
      by_cases isQuote : c = '\''
      · subst isQuote
        exact congrArg (Option.map _) (induction noNull.2)
      · rw [escapeChar, if_neg isQuote, if_neg (Ne.symm noNull.1), List.singleton_append,
          readQuoted?_cons isQuote, induction noNull.2]
        rfl

/-! ### Tokens -/

theorem skipToToken_of_begins {c : Char} (notMinus : c ≠ '-') (notSlash : c ≠ '/')
    (notBlank : isBlank c = false) (fuel : Nat) (cs : List Char) :
    skipToToken fuel (c :: cs) = c :: cs := by
  cases fuel with
  | zero => rfl
  | succ fuel =>
      rw [skipToToken]
      · rw [notBlank]
        rfl
      · exact fun _ same => absurd same notMinus
      · exact fun _ _ same => absurd same notSlash

theorem skipToToken_space (fuel : Nat) (cs : List Char) :
    skipToToken (fuel + 1) (' ' :: cs) = skipToToken fuel cs := rfl

theorem notMark_of_isNameStart {c : Char} (starts : isNameStart c = true) :
    c ≠ '-' ∧ c ≠ '/' ∧ c ≠ '\'' ∧ c ≠ '"' ∧ c ≠ '\x60' ∧ c ≠ '[' ∧ c ≠ '.' ∧ c.isDigit = false := by
  refine ⟨?_, ?_, ?_, ?_, ?_, ?_, ?_, ?_⟩
  case refine_8 =>
    rw [Bool.eq_false_iff]
    intro digit
    simp only [Char.isDigit, Bool.and_eq_true, decide_eq_true_eq, ge_iff_le,
      UInt32.le_iff_toNat_le, Char.reduceVal, UInt32.reduceToNat] at digit
    unfold isNameStart Char.isAlpha Char.isUpper Char.isLower at starts
    simp only [Bool.or_eq_true, Bool.and_eq_true, decide_eq_true_eq, ge_iff_le,
      UInt32.le_iff_toNat_le, Char.reduceVal, UInt32.reduceToNat] at starts
    have isCode : c.toNat = c.val.toNat := rfl
    rcases starts with (letter | rfl) | beyond
    · omega
    · exact absurd digit (by decide)
    · omega
  all_goals
    rintro rfl
    exact absurd starts (by decide)

theorem nextToken_word {c : Char} {name rest : List Char} (starts : isNameStart c = true)
    (named : name.all isNameChar = true)
    (ends : ∀ d ∈ rest.head?, isNameChar d = false ∧ d ≠ '\'') :
    nextToken c (name ++ rest) = (.word (String.ofList (c :: name)), rest) := by
  obtain ⟨-, -, notQuote, notLoose, notTick, notBracket, notPoint, notDigit⟩ :=
    notMark_of_isNameStart starts
  rw [List.all_eq_true] at named
  have noText : (name ++ rest).head? ≠ some '\'' := by
    cases name with
    | nil =>
        intro quote
        exact (ends _ quote).2 rfl
    | cons d name =>
        intro quote
        have isName := named d List.mem_cons_self
        rw [Option.some.inj quote] at isName
        exact absurd isName (by decide)
  have stops : rest.takeWhile isNameChar = [] ∧ rest.dropWhile isNameChar = rest := by
    cases rest with
    | nil => exact ⟨rfl, rfl⟩
    | cons d rest =>
        have plain := (ends d rfl).1
        simp [plain]
  simp only [nextToken, notQuote, notLoose, notTick, notBracket, notPoint, notDigit, noText, starts,
    if_true, if_false, decide_false, Bool.false_and, Bool.and_false, Bool.or_self,
    Bool.false_eq_true]
  rw [List.takeWhile_append_of_pos named, List.dropWhile_append_of_pos named, stops.1, stops.2,
    List.append_nil]

theorem readTokens_begins {c : Char} (notMinus : c ≠ '-') (notSlash : c ≠ '/')
    (notBlank : isBlank c = false) (fuel : Nat) (cs : List Char) :
    readTokens (fuel + 1) (c :: cs) =
      (nextToken c cs).1 :: readTokens fuel (nextToken c cs).2 := by
  rw [readTokens, skipToToken_of_begins notMinus notSlash notBlank]

theorem readTokens_space {c : Char} (notMinus : c ≠ '-') (notSlash : c ≠ '/')
    (notBlank : isBlank c = false) (fuel : Nat) (cs : List Char) :
    readTokens (fuel + 1) (' ' :: c :: cs) =
      (nextToken c cs).1 :: readTokens fuel (nextToken c cs).2 := by
  rw [readTokens, skipToToken_space, skipToToken_of_begins notMinus notSlash notBlank]

theorem readTokens_name {name : String} (isRead : IsReadName name) {rest : List Char}
    (ends : ∀ d ∈ rest.head?, isNameChar d = false ∧ d ≠ '\'') (fuel : Nat) :
    readTokens (fuel + 1) (name.toList ++ rest) = .word name :: readTokens fuel rest := by
  obtain ⟨c, cs, spelled, starts, named, notBlank⟩ := isRead.exists_cons
  obtain ⟨notMinus, notSlash, -⟩ := notMark_of_isNameStart starts
  rw [spelled, List.cons_append, readTokens_begins notMinus notSlash notBlank,
    nextToken_word starts (List.all_eq_true.2 named) ends, ← spelled, String.ofList_toList]

/-- A point between names is a token of its own. -/
theorem readTokens_point {name : String} (isRead : IsReadName name) (rest : List Char)
    (fuel : Nat) :
    readTokens (fuel + 1) ('.' :: (name.toList ++ rest)) =
      .mark "." :: readTokens fuel (name.toList ++ rest) := by
  obtain ⟨c, cs, spelled, starts, -, -⟩ := isRead.exists_cons
  obtain ⟨-, -, -, -, -, -, -, notDigit⟩ := notMark_of_isNameStart starts
  have isMark : nextToken '.' (c :: (cs ++ rest)) = markToken ('.' :: c :: (cs ++ rest)) := by
    simp [nextToken, notDigit, isNameStart]
  rw [readTokens_begins (by decide) (by decide) (by decide), spelled, List.cons_append, isMark]
  rfl

theorem readTokens_relation {relation : Relation} (compares : relation ≠ .bitAnd)
    (rest : List Char) (fuel : Nat) :
    readTokens (fuel + 1) (relation.text.toList ++ '\'' :: rest) =
      .mark relation.text :: readTokens fuel ('\'' :: rest) := by
  cases relation with
  | bitAnd => exact absurd rfl compares
  | _ => exact readTokens_begins (by decide) (by decide) (by decide) fuel _

theorem nextToken_literal {value : String} (noNull : '\x00' ∉ value.toList) {rest : List Char}
    (ends : rest.head? ≠ some '\'') :
    nextToken '\'' (value.toList.flatMap escapeChar ++ '\'' :: rest) = (.text value, rest) := by
  rw [nextToken, if_pos rfl, readQuoted?_escape noNull ends, quotedToken, String.ofList_toList]

end Lexical

theorem tokens_of_noNull {text : String} (noNull : '\x00' ∉ text.toList) :
    tokens text = Lexical.readTokens text.toList.length text.toList := by
  have whole : text.toList.takeWhile (fun c => c ≠ '\x00') = text.toList := by
    rw [List.takeWhile_eq_self_iff]
    intro c member
    exact decide_eq_true fun isNull => noNull (isNull ▸ member)
  rw [tokens, whole]

/-! ### Tests -/

/-- A column whose parts a statement reads as names. -/
structure Column.IsRead (column : Column) : Prop where
  aliasName : IsReadName column.aliasName
  name : IsReadName column.name

example : Column.IsRead ⟨"field_title", "data"⟩ :=
  ⟨by decide, by decide⟩

namespace Column

variable {column : Column}

theorem toList_text (column : Column) (rest : List Char) :
    column.text.toList ++ rest =
      column.aliasName.toList ++ '.' :: (column.name.toList ++ rest) := by
  simp [text]

open Lexical in
theorem IsRead.readTokens (isRead : column.IsRead) {rest : List Char}
    (ends : ∀ d ∈ rest.head?, isNameChar d = false ∧ d ≠ '\'') (fuel : Nat) :
    readTokens (fuel + 3) (column.text.toList ++ rest) =
      .word column.aliasName :: .mark "." :: .word column.name :: readTokens fuel rest := by
  have point : ∀ d ∈ ('.' :: (column.name.toList ++ rest)).head?,
      isNameChar d = false ∧ d ≠ '\'' := by
    intro d isPoint
    cases isPoint
    decide
  rw [toList_text, readTokens_name isRead.aliasName point, readTokens_point isRead.name,
    readTokens_name isRead.name ends]

theorem IsRead.noNull (isRead : column.IsRead) : '\x00' ∉ column.text.toList := by
  have whole := toList_text column []
  rw [List.append_nil, List.append_nil] at whole
  rw [whole, List.mem_append, List.mem_cons]
  rintro (inAlias | isPoint | inName)
  · exact isRead.aliasName.noNull inAlias
  · exact absurd isPoint (by decide)
  · exact isRead.name.noNull inName

end Column

namespace Test

open Lexical

variable {column : Column} (isRead : column.IsRead) {value : String}
  (noNull : '\x00' ∉ value.toList)

theorem noNull_escapeChar (c : Char) : '\x00' ∉ escapeChar c := by
  intro isNull
  unfold escapeChar at isNull
  split at isNull
  · simp at isNull
  · split at isNull
    · simp at isNull
    · next notNull => exact notNull (List.mem_singleton.1 isNull).symm

include isRead noNull

theorem tokens_like :
    tokens (Test.like column value true).render =
      [.word column.aliasName, .mark ".", .word column.name, .word "LIKE", .text value,
        .word "ESCAPE", .text "!"] := by
  have spelled : (Test.like column value true).render.toList =
      column.text.toList ++ ' ' :: 'L' :: (['I', 'K', 'E'] ++ ' ' :: '\'' ::
        (value.toList.flatMap escapeChar ++ '\'' :: ' ' :: 'E' :: (['S', 'C', 'A', 'P', 'E'] ++
          ' ' :: '\'' :: ("!".toList.flatMap escapeChar ++ ['\''])))) := by
    simp [render, text, TestText.render, quoted, likeMark]
    rfl
  have whole : '\x00' ∉ (Test.like column value true).render.toList := by
    rw [spelled]
    simp [isRead.noNull, noNull_escapeChar]
  obtain ⟨fuel, enough⟩ : ∃ fuel, (Test.like column value true).render.toList.length = fuel + 7 :=
    ⟨(Test.like column value true).render.toList.length - 7, by rw [spelled]; simp; omega⟩
  rw [tokens_of_noNull whole, enough, spelled, isRead.readTokens (by simp; decide),
    readTokens_space (by decide) (by decide) (by decide),
    nextToken_word (by decide) (by decide) (by simp; decide),
    readTokens_space (by decide) (by decide) (by decide), nextToken_literal noNull (by simp),
    readTokens_space (by decide) (by decide) (by decide),
    nextToken_word (by decide) (by decide) (by simp; decide),
    readTokens_space (by decide) (by decide) (by decide), nextToken_literal (by decide) (by simp)]
  cases fuel <;> rfl

theorem tokens_compare {relation : Relation} (compares : relation ≠ .bitAnd) :
    tokens (Test.compare column relation (.text value)).render =
      [.word column.aliasName, .mark ".", .word column.name, .mark relation.text, .text value] := by
  have spelled : (Test.compare column relation (.text value)).render.toList =
      column.text.toList ++ (relation.text.toList ++
        '\'' :: (value.toList.flatMap escapeChar ++ ['\''])) := by
    simp [render, text, TestText.render, quoted, Operand.render]
  have whole : '\x00' ∉ (Test.compare column relation (.text value)).render.toList := by
    rw [spelled]
    simp [isRead.noNull, noNull_escapeChar]
    cases relation <;> decide
  have ends : ∀ d ∈ (relation.text.toList ++
      '\'' :: (value.toList.flatMap escapeChar ++ ['\''])).head?,
      isNameChar d = false ∧ d ≠ '\'' := by
    cases relation with
    | bitAnd => exact absurd rfl compares
    | _ => simp [Relation.text]; decide
  obtain ⟨fuel, enough⟩ :
      ∃ fuel, (Test.compare column relation (.text value)).render.toList.length = fuel + 5 := by
    obtain ⟨c, cs, isAlias, -⟩ := isRead.aliasName.exists_cons
    obtain ⟨d, ds, isName, -⟩ := isRead.name.exists_cons
    refine ⟨(Test.compare column relation (.text value)).render.toList.length - 5, ?_⟩
    rw [spelled, Column.toList_text, isAlias, isName]
    simp
    omega
  rw [tokens_of_noNull whole, enough, spelled, isRead.readTokens ends, readTokens_relation compares,
    readTokens_begins (by decide) (by decide) (by decide), nextToken_literal noNull (by simp)]
  cases fuel <;> rfl

end Test

/-! ### Expressions -/

/-- The expression that a text is, none when there is more or less to it. -/
def Expression.read? (text : String) : Option Expression :=
  match Grammar.expression? (8 * (tokens text).length + 8) 0 (tokens text) with
  | some (expression, []) => some expression
  | _ => none

def Column.expression (column : Column) : Expression :=
  .name [.plain column.aliasName, .plain column.name]

theorem IsReadName.notReserved {name : String} (isRead : IsReadName name) :
    foldName name ∉ reservedWords ∧ foldName name ∉ valueWords := by
  have qualifies := isRead.qualifies
  simp only [isQualifier, isBareName, Bool.and_eq_true, Bool.not_eq_true',
    List.contains_eq_mem, decide_eq_false_iff_not] at qualifies
  exact ⟨qualifies.1.2, qualifies.2⟩

namespace Grammar

theorem word?_name {name : String} (isRead : IsReadName name) (fuel : Nat) (tokens : List Token) :
    word? (fuel + 1) (foldName name) name tokens = named? fuel (.plain name) tokens := by
  obtain ⟨notReserved, notValue⟩ := isRead.notReserved
  have differs {word : String} (reserved : word ∈ reservedWords ++ valueWords) :
      foldName name ≠ word := by
    rintro rfl
    exact (List.mem_append.1 reserved).elim notReserved notValue
  rw [word?]
  · simp [notReserved, notValue, Token.identifier?]
  all_goals exact differs (by decide)

theorem operand?_column {column : Column} (isRead : column.IsRead) {rest : List Token}
    (ends : rest.head? ≠ some (.mark ".")) (fuel : Nat) :
    operand? (fuel + 3) (.word column.aliasName :: .mark "." :: .word column.name :: rest) =
      some (column.expression, rest) := by
  have isLabel : (Token.word column.name).label? = some column.name := by
    simp [Token.label?, Token.identifier?, isRead.name.notReserved.1, Identifier.plain]
  have parts : Phrase.nameParts? (.plain column.aliasName)
      (.mark "." :: .word column.name :: rest) =
        some ([.plain column.aliasName, .plain column.name], rest) := by
    simp only [Phrase.nameParts?, isLabel, Option.bind_some]
    split
    · exact absurd rfl ends
    · rfl
  rw [operand?, word?_name isRead.aliasName, named?, parts]
  · rfl
  · rintro rest equality
    simp at equality

/-- A literal is an expression of its own where no operator follows. -/
theorem expression?_literal (value : String) {rest : List Token} (level : Nat)
    (ends : Phrase.suffix? rest = none) (fuel : Nat) :
    expression? (fuel + 2) level (.text value :: rest) = some (.literal (.text value), rest) := by
  simp only [expression?, operand?, Option.bind_eq_bind, Option.bind_some, continue?, ends]

theorem expression?_like {column : Column} (isRead : column.IsRead) (pattern mark : String)
    (fuel : Nat) :
    expression? (fuel + 5) 0
        [.word column.aliasName, .mark ".", .word column.name, .word "LIKE", .text pattern,
          .word "ESCAPE", .text mark] =
      some (.like column.expression (.literal (.text pattern)) (some (.literal (.text mark))),
        []) := by
  have suffix : Phrase.suffix? [.word "LIKE", .text pattern, .word "ESCAPE", .text mark] =
      some ((Level.equality, .like false), [.text pattern, .word "ESCAPE", .text mark]) := rfl
  have ends : Phrase.suffix? [] = none := rfl
  have escaped : Phrase.optional? ["escape"] (expression? (fuel + 2) Level.comparison)
      [.word "ESCAPE", .text mark] = some (some (.literal (.text mark)), []) := by
    have isLast := expression?_literal mark Level.comparison ends fuel
    simp only [Phrase.optional?]
    change Option.map _ (expression? (fuel + 2) Level.comparison [.text mark]) = _
    rw [isLast]
    rfl
  have escapes : Phrase.suffix? [.word "ESCAPE", .text mark] = none := rfl
  have isPattern := expression?_literal pattern Level.comparison escapes fuel
  rw [expression?, operand?_column isRead (by simp)]
  simp only [Option.bind_eq_bind, Option.bind_some, continue?, suffix, suffixed?, isPattern,
    escaped, ends, Expression.negateIf]
  rfl

theorem expression?_compare {column : Column} (isRead : column.IsRead) (value : String)
    {relation : Relation} (compares : relation ≠ .bitAnd) (fuel : Nat) :
    expression? (fuel + 5) 0
        [.word column.aliasName, .mark ".", .word column.name, .mark relation.text, .text value] =
      some (.binary (.compare relation) column.expression (.literal (.text value)), []) := by
  obtain ⟨level, suffix⟩ : ∃ level, Phrase.suffix? [.mark relation.text, .text value] =
      some ((level, .binary (.compare relation)), [.text value]) := by
    cases relation with
    | bitAnd => exact absurd rfl compares
    | _ => exact ⟨_, rfl⟩
  have ends : Phrase.suffix? [] = none := rfl
  have isValue := expression?_literal value (level + 1) ends fuel
  rw [expression?, operand?_column isRead (by cases relation <;> simp [Relation.text])]
  simp only [Option.bind_eq_bind, Option.bind_some, continue?, suffix, suffixed?, isValue,
    Expression.ofOperands]
  rfl

end Grammar

theorem Expression.read?_like {column : Column} (isRead : column.IsRead) {pattern : String}
    (noNull : '\x00' ∉ pattern.toList) :
    read? (Test.like column pattern true).render =
      some (.like column.expression (.literal (.text pattern)) (some (.literal (.text "!")))) := by
  rw [read?, Test.tokens_like isRead noNull, Grammar.expression?_like isRead]

theorem Expression.read?_compare {column : Column} (isRead : column.IsRead) {value : String}
    (noNull : '\x00' ∉ value.toList) {relation : Relation} (compares : relation ≠ .bitAnd) :
    read? (Test.compare column relation (.text value)).render =
      some (.binary (.compare relation) column.expression (.literal (.text value))) := by
  rw [read?, Test.tokens_compare isRead noNull compares,
    Grammar.expression?_compare isRead value compares]

/-! ### Values -/

namespace Test

/-- Read as part of a statement, the text of the test has this truth wherever the column holds the
text, unless its pattern is beyond the limit of patterns. -/
def Reads (test : Test) (column : Column) (text : String) (truth : Truth) : Prop :=
  ∃ expression, Expression.read? test.render = some expression ∧
    (test.isTooLong = false → ∀ tables scopes heading fuel, heading.affinity = some .text →
      meaning? [.plain column.aliasName, .plain column.name] scopes =
        some (.column heading (.text text)) →
      Selection.value? tables (fuel + 2) scopes expression = some (.ofTruth truth))

theorem value?_expression {column : Column} {scopes : List Scope} {heading : Heading} {found : Value}
    (means : meaning? [.plain column.aliasName, .plain column.name] scopes =
      some (.column heading found)) (tables : String → Option Table) (fuel : Nat) :
    Selection.value? tables (fuel + 1) scopes column.expression = some found := by
  rw [Column.expression, Selection.value?, means]

variable {column : Column} {text : String} {affinity : Column → Affinity} {binding : Binding}

theorem truth_compare (holds : binding column = .text text) (converted : affinity column = .text)
    {relation : Relation} (compares : relation ≠ .bitAnd) (value : String) :
    (Test.compare column relation (.text value)).truth affinity binding =
      compareValues relation (.text text) (.text value) := by
  rw [truth, if_neg compares, holds]
  exact congrArg (fun kind => compareValues relation ((Value.text text).convert kind)
    ((Value.text value).convert kind)) converted

variable (isRead : column.IsRead) (holds : binding column = .text text)

include isRead holds

theorem reads_like {pattern : String} (noNull : '\x00' ∉ pattern.toList) :
    (Test.like column pattern true).Reads column text
      ((Test.like column pattern true).truth affinity binding) := by
  refine ⟨_, Expression.read?_like isRead noNull, ?_⟩
  intro fits tables scopes heading fuel _ means
  rw [isTooLong, decide_eq_false_iff_not] at fits
  have matched : likeTruth? (.text text) (.text pattern) (some (.text "!")) =
      some (.ofBool (matchesPattern pattern (some likeMark) text)) :=
    if_neg fits
  have mark : [Expression.literal (.text "!")].mapM (Selection.value? tables (fuel + 1) scopes) =
      some [.text "!"] := rfl
  rw [Selection.value?, value?_expression means, Option.toList_some, mark]
  simp only [Selection.value?, Option.bind_eq_bind, Option.bind_some, List.head?_cons, matched,
    Option.map_some, truth, holds, Value.text?, if_true]

theorem reads_compare (converted : affinity column = .text) {value : String}
    (noNull : '\x00' ∉ value.toList) {relation : Relation} (compares : relation ≠ .bitAnd) :
    (Test.compare column relation (.text value)).Reads column text
      ((Test.compare column relation (.text value)).truth affinity binding) := by
  refine ⟨_, Expression.read?_compare isRead noNull compares, ?_⟩
  intro _ tables scopes heading fuel isText means
  have left : column.expression.affinity? (fuel + 1) scopes = some .text := by
    rw [Column.expression, Expression.affinity?, means]
    exact isText
  rw [Selection.value?, value?_expression means]
  have isLiteral : Expression.affinity? (fuel + 1) scopes (.literal (.text value)) = none := rfl
  simp only [Selection.value?, Option.bind_eq_bind, Option.bind_some, left, isLiteral,
    truth_compare holds converted compares]
  rfl

end Test

end PageTree.Sql
