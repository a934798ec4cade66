import Mathlib.Data.List.TakeWhile
import PageTree.Sql.Literal
import PageTree.Text.Blank

/-!
Statements read with their quotes. A quote opens a literal; two quotes inside of it stand for one,
and a lone one closes it. What stands outside of literals is the code of the statement. Main
statement: whatever is put together from clean texts is clean, so no value ends its literal.
-/

namespace PageTree.Sql

inductive QuoteState where
  | outside
  | inside
  /-- After a quote that closes the literal unless another one follows. -/
  | closing
  deriving DecidableEq, Repr

namespace QuoteState

def step : QuoteState → Char → QuoteState
  | .outside, c => if c = '\'' then .inside else .outside
  | .inside, c => if c = '\'' then .closing else .inside
  | .closing, c => if c = '\'' then .inside else .outside

def run (state : QuoteState) (cs : List Char) : QuoteState :=
  cs.foldl step state

/-- Does the character belong to the code? Of a literal only the quote that opens it does. -/
def shows : QuoteState → Char → Bool
  | .outside, _ => true
  | .inside, _ => false
  | .closing, c => c ≠ '\''

def code (state : QuoteState) : List Char → List Char
  | [] => []
  | c :: cs =>
    if state.shows c then c :: (state.step c).code cs else (state.step c).code cs

@[simp] theorem run_nil (state : QuoteState) : state.run [] = state := rfl

@[simp] theorem run_cons (state : QuoteState) (c : Char) (cs : List Char) :
    state.run (c :: cs) = (state.step c).run cs := rfl

theorem run_append (state : QuoteState) (cs ds : List Char) :
    state.run (cs ++ ds) = (state.run cs).run ds :=
  List.foldl_append

theorem code_append (state : QuoteState) (cs ds : List Char) :
    state.code (cs ++ ds) = state.code cs ++ (state.run cs).code ds := by
  induction cs generalizing state with
  | nil => rfl
  | cons c cs induction =>
      rw [List.cons_append, code, code, run_cons, induction]
      split <;> rfl

/-- A text that follows a literal is read like any other, except that a quote goes on with the
literal. -/
theorem code_closing (cs : List Char) :
    outside.code cs = closing.code cs ∨ outside.code cs = '\'' :: closing.code cs := by
  cases cs with
  | nil => exact .inl rfl
  | cons c cs =>
      by_cases isQuote : c = '\''
      · subst isQuote
        exact .inr rfl
      · left
        simp [code, shows, step, isQuote]

theorem run_closing (cs : List Char) (state : QuoteState) (notInside : state ≠ .inside) :
    state.run cs = .inside ↔ outside.run cs = .inside := by
  cases state with
  | outside => rfl
  | inside => exact absurd rfl notInside
  | closing =>
      cases cs with
      | nil => simp
      | cons c cs => rfl

theorem run_outside_of_noQuote {cs : List Char} (noQuote : '\'' ∉ cs) :
    outside.run cs = .outside := by
  induction cs with
  | nil => rfl
  | cons c cs induction =>
      rw [List.mem_cons, not_or] at noQuote
      simpa [step, Ne.symm noQuote.1] using induction noQuote.2

theorem run_inside_of_noQuote {cs : List Char} (noQuote : '\'' ∉ cs) :
    inside.run cs = .inside := by
  induction cs with
  | nil => rfl
  | cons c cs induction =>
      rw [List.mem_cons, not_or] at noQuote
      simpa [step, Ne.symm noQuote.1] using induction noQuote.2

theorem code_of_noQuote {state : QuoteState} {cs : List Char} (noQuote : '\'' ∉ cs)
    (notInside : state ≠ .inside) : state.code cs = cs := by
  induction cs generalizing state with
  | nil => rfl
  | cons c cs induction =>
      rw [List.mem_cons, not_or] at noQuote
      have isOrdinary := Ne.symm noQuote.1
      cases state with
      | outside => simp [code, shows, step, isOrdinary, induction noQuote.2]
      | inside => exact absurd rfl notInside
      | closing => simp [code, shows, step, isOrdinary, induction noQuote.2]

/-- No value ends the literal that it stands in. -/
theorem run_inside_escape (cs : List Char) : inside.run (cs.flatMap escapeChar) = .inside := by
  induction cs with
  | nil => rfl
  | cons c cs induction =>
      rw [List.flatMap_cons, run_append]
      suffices stays : inside.run (escapeChar c) = .inside by rw [stays, induction]
      unfold escapeChar
      split
      · rfl
      · next isOrdinary => split <;> simp [step, isOrdinary]

theorem code_inside_escape (cs : List Char) : inside.code (cs.flatMap escapeChar) = [] := by
  induction cs with
  | nil => rfl
  | cons c cs induction =>
      rw [List.flatMap_cons, code_append]
      have stays : inside.run (escapeChar c) = .inside := by
        simpa using run_inside_escape [c]
      rw [stays, induction, List.append_nil]
      unfold escapeChar
      split
      · rfl
      · split <;> simp [code, shows]

end QuoteState

/-! ### What a statement must not contain -/

/-- Read with its quotes, the text has only closed literals, no null character, and nothing in its
code that separates statements or begins a comment. -/
structure Contained (text : String) : Prop where
  noNull : '\x00' ∉ text.toList
  closed : QuoteState.outside.run text.toList ≠ .inside
  noSeparator : ';' ∉ QuoteState.outside.code text.toList
  noLineComment : ¬ ['-', '-'] <:+: QuoteState.outside.code text.toList
  noBlockComment : ¬ ['/', '*'] <:+: QuoteState.outside.code text.toList

/-- Code without semicolons and stars, in which a letter or digit follows every minus sign. -/
def isTame : List Char → Bool
  | [] => true
  | c :: cs =>
    c ≠ ';' && c ≠ '*' && (c ≠ '-' || cs.head?.any Char.isAlphanum) && isTame cs

theorem isTame_append {cs ds : List Char} (left : isTame cs = true) (right : isTame ds = true) :
    isTame (cs ++ ds) = true := by
  induction cs with
  | nil => exact right
  | cons c cs induction =>
      simp only [isTame, Bool.and_eq_true, Bool.or_eq_true] at left
      obtain ⟨⟨notEnds, follows⟩, rest⟩ := left
      simp only [List.cons_append, isTame, Bool.and_eq_true, Bool.or_eq_true]
      refine ⟨⟨notEnds, ?_⟩, induction rest⟩
      cases cs with
      | nil => exact follows.imp_right fun none => by simp at none
      | cons d cs => exact follows

theorem isTame_of_append {cs ds : List Char} (tame : isTame (cs ++ ds) = true) :
    isTame ds = true := by
  induction cs with
  | nil => exact tame
  | cons c cs induction =>
      simp only [List.cons_append, isTame, Bool.and_eq_true] at tame
      exact induction tame.2

theorem isTame_of_plain {cs : List Char} (plain : ∀ c ∈ cs, c ≠ ';' ∧ c ≠ '*' ∧ c ≠ '-') :
    isTame cs = true := by
  induction cs with
  | nil => rfl
  | cons c cs induction =>
      rw [List.forall_mem_cons] at plain
      obtain ⟨⟨notSemicolon, notStar, notMinus⟩, rest⟩ := plain
      simp [isTame, notSemicolon, notStar, notMinus, induction rest]

/-- What is left of tame code when its end is cut off before a character that follows no minus
sign. -/
theorem isTame_prefix {cs ds : List Char} (tame : isTame (cs ++ ds) = true)
    (cut : ∀ c ∈ ds, c.isAlphanum = false) : isTame cs = true := by
  induction cs with
  | nil => rfl
  | cons c cs induction =>
      simp only [List.cons_append, isTame, Bool.and_eq_true, Bool.or_eq_true] at tame ⊢
      obtain ⟨⟨notEnds, follows⟩, rest⟩ := tame
      refine ⟨⟨notEnds, ?_⟩, induction rest⟩
      cases cs with
      | cons d cs => exact follows
      | nil =>
          refine follows.imp_right fun next => ?_
          cases ds with
          | nil => exact next
          | cons d ds => simp [cut d (List.mem_cons_self ..)] at next

theorem notMem_of_isTame {cs : List Char} (tame : isTame cs = true) : ';' ∉ cs := by
  intro member
  obtain ⟨before, after, rfl⟩ := List.append_of_mem member
  simpa [isTame] using isTame_of_append tame

theorem noLineComment_of_isTame {cs : List Char} (tame : isTame cs = true) :
    ¬ ['-', '-'] <:+: cs := by
  rintro ⟨before, after, rfl⟩
  rw [List.append_assoc] at tame
  have starts := isTame_of_append tame
  have notLetter : Char.isAlphanum '-' = false := by decide
  simp [isTame, notLetter] at starts

theorem noBlockComment_of_isTame {cs : List Char} (tame : isTame cs = true) :
    ¬ ['/', '*'] <:+: cs := by
  rintro ⟨before, after, rfl⟩
  rw [List.append_assoc] at tame
  have starts := isTame_of_append tame
  simp [isTame] at starts

/-! ### Clean texts -/

/-- A text that can stand next to any other without joining up to more than both of them. -/
structure Clean (cs : List Char) : Prop where
  noNull : '\x00' ∉ cs
  closed : QuoteState.outside.run cs ≠ .inside
  tame : isTame (QuoteState.outside.code cs) = true

instance (cs : List Char) : Decidable (Clean cs) :=
  decidable_of_iff
    ('\x00' ∉ cs ∧ QuoteState.outside.run cs ≠ .inside
      ∧ isTame (QuoteState.outside.code cs) = true)
    ⟨fun ⟨noNull, closed, tame⟩ => ⟨noNull, closed, tame⟩,
      fun clean => ⟨clean.noNull, clean.closed, clean.tame⟩⟩

/-- Characters that mean nothing beyond themselves in a statement. -/
def isPlainChar (c : Char) : Bool :=
  c ≠ '\x00' && c ≠ '\'' && c ≠ ';' && c ≠ '*' && c ≠ '-'

def isPlainText (text : String) : Bool :=
  text.toList.all isPlainChar

theorem isPlainChar_of_isAlphanum {c : Char} (alphanumeric : c.isAlphanum = true) :
    isPlainChar c = true := by
  by_contra special
  simp only [isPlainChar, Bool.and_eq_true, decide_eq_true_eq, not_and_or, not_not] at special
  rcases special with (((rfl | rfl) | rfl) | rfl) | rfl <;> exact absurd alphanumeric (by decide)

namespace Clean

theorem contained {text : String} (clean : Clean text.toList) : Contained text where
  noNull := clean.noNull
  closed := clean.closed
  noSeparator := notMem_of_isTame clean.tame
  noLineComment := noLineComment_of_isTame clean.tame
  noBlockComment := noBlockComment_of_isTame clean.tame

theorem nil : Clean [] := by decide

theorem append {cs ds : List Char} (left : Clean cs) (right : Clean ds) : Clean (cs ++ ds) where
  noNull := by
    rw [List.mem_append, not_or]
    exact ⟨left.noNull, right.noNull⟩
  closed := by
    rw [QuoteState.run_append, Ne, QuoteState.run_closing _ _ left.closed]
    exact right.closed
  tame := by
    rw [QuoteState.code_append]
    apply isTame_append left.tame
    cases state : QuoteState.outside.run cs with
    | inside => exact absurd state left.closed
    | outside => exact right.tame
    | closing =>
        rcases QuoteState.code_closing ds with same | opens
        · exact same ▸ right.tame
        · have tame := right.tame
          rw [opens] at tame
          exact @isTame_of_append ['\''] _ tame

theorem flatten {texts : List (List Char)} (clean : ∀ cs ∈ texts, Clean cs) :
    Clean texts.flatten := by
  induction texts with
  | nil => exact nil
  | cons cs rest induction =>
      rw [List.forall_mem_cons] at clean
      exact clean.1.append (induction clean.2)

theorem of_plain {cs : List Char} (plain : cs.all isPlainChar = true) : Clean cs := by
  simp only [List.all_eq_true, isPlainChar, Bool.and_eq_true, decide_eq_true_eq] at plain
  have noQuote : '\'' ∉ cs := fun member => (plain _ member).1.1.1.2 rfl
  refine ⟨fun member => (plain _ member).1.1.1.1 rfl, ?_, ?_⟩
  · rw [QuoteState.run_outside_of_noQuote noQuote]
    decide
  · rw [QuoteState.code_of_noQuote noQuote (by decide)]
    exact isTame_of_plain fun c member =>
      ⟨(plain c member).1.1.2, (plain c member).1.2, (plain c member).2⟩

theorem of_isPlainText {text : String} (plain : isPlainText text = true) : Clean text.toList :=
  of_plain plain

/-- A literal is clean whatever its value. -/
theorem quoted (value : String) : Clean (quoted value).toList := by
  have spelled : (Sql.quoted value).toList =
      '\'' :: (value.toList.flatMap escapeChar ++ ['\'']) := by
    simp [Sql.quoted]
  rw [spelled]
  refine ⟨?_, ?_, ?_⟩
  · simp only [List.mem_cons, List.mem_append, List.mem_flatMap, List.not_mem_nil, or_false]
    rintro (isQuote | ⟨c, -, member⟩ | isQuote)
    · exact absurd isQuote (by decide)
    · unfold escapeChar at member
      split at member
      · simp at member
      · split at member
        · simp at member
        · next isOther => exact isOther (List.mem_singleton.1 member).symm
    · exact absurd isQuote (by decide)
  · rw [QuoteState.run_cons, QuoteState.run_append]
    change (QuoteState.run (QuoteState.inside.run (value.toList.flatMap escapeChar)) ['\'']) ≠ _
    rw [QuoteState.run_inside_escape]
    decide
  · have opened : QuoteState.outside.code ('\'' :: (value.toList.flatMap escapeChar ++ ['\'']))
        = '\'' :: QuoteState.inside.code (value.toList.flatMap escapeChar ++ ['\'']) := rfl
    rw [opened, QuoteState.code_append, QuoteState.code_inside_escape,
      QuoteState.run_inside_escape]
    decide

theorem intercalate {separator : String} {texts : List String}
    (between : Clean separator.toList) (clean : ∀ text ∈ texts, Clean text.toList) :
    Clean (separator.intercalate texts).toList := by
  induction texts with
  | nil => simpa using nil
  | cons text rest induction =>
      rw [List.forall_mem_cons] at clean
      cases rest with
      | nil => simpa using clean.1
      | cons next rest =>
          rw [String.intercalate_cons_cons, String.toList_append, String.toList_append]
          exact (clean.1.append between).append (induction clean.2)

theorem dropWhile {p : Char → Bool} {cs : List Char} (clean : Clean cs)
    (keepsQuote : p '\'' = false) : Clean (cs.dropWhile p) := by
  have noQuote : '\'' ∉ cs.takeWhile p := fun member => by
    simpa [keepsQuote] using List.mem_takeWhile_imp member
  have outside := QuoteState.run_outside_of_noQuote noQuote
  have whole : cs.takeWhile p ++ cs.dropWhile p = cs := List.takeWhile_append_dropWhile
  refine ⟨fun member => clean.noNull (List.dropWhile_subset p member), ?_, ?_⟩
  · have closed := clean.closed
    rwa [← whole, QuoteState.run_append, outside] at closed
  · have tame := clean.tame
    rw [← whole, QuoteState.code_append, outside] at tame
    exact isTame_of_append tame

theorem dropEndWhile {p : Char → Bool} {cs : List Char} (clean : Clean cs)
    (keepsQuote : p '\'' = false) (keepsAlphanumeric : ∀ c, c.isAlphanum = true → p c = false) :
    Clean (Text.dropEndWhile p cs) := by
  obtain ⟨cut, whole, isCut⟩ :
      ∃ cut, Text.dropEndWhile p cs ++ cut = cs ∧ ∀ c ∈ cut, p c = true := by
    refine ⟨(cs.reverse.takeWhile p).reverse, ?_, fun c member => ?_⟩
    · rw [Text.dropEndWhile, ← List.reverse_append, List.takeWhile_append_dropWhile,
        List.reverse_reverse]
    · exact List.mem_takeWhile_imp (List.mem_reverse.1 member)
  generalize Text.dropEndWhile p cs = kept at whole
  subst whole
  have noQuote : '\'' ∉ cut := fun member => by simpa [keepsQuote] using isCut _ member
  have closed : QuoteState.outside.run kept ≠ .inside := fun inside => by
    refine clean.closed ?_
    rw [QuoteState.run_append, inside, QuoteState.run_inside_of_noQuote noQuote]
  refine ⟨fun member => clean.noNull (List.mem_append_left _ member), closed, ?_⟩
  have tame := clean.tame
  rw [QuoteState.code_append, QuoteState.code_of_noQuote noQuote closed] at tame
  refine isTame_prefix tame fun c member => ?_
  by_contra alphanumeric
  rw [Bool.not_eq_false] at alphanumeric
  simpa [keepsAlphanumeric c alphanumeric] using isCut c member

/-- Cutting characters off both ends keeps a text clean when no literal or number can be cut. -/
theorem trimWhere {p : Char → Bool} {cs : List Char} (clean : Clean cs)
    (keepsQuote : p '\'' = false) (keepsAlphanumeric : ∀ c, c.isAlphanum = true → p c = false) :
    Clean (Text.trimWhere p cs) :=
  (clean.dropWhile keepsQuote).dropEndWhile keepsQuote keepsAlphanumeric

theorem minus {cs : List Char} (clean : Clean cs)
    (follows : cs.head?.any Char.isAlphanum = true) : Clean ('-' :: cs) := by
  refine ⟨?_, clean.closed, ?_⟩
  · rw [List.mem_cons, not_or]
    exact ⟨by decide, clean.noNull⟩
  · cases cs with
    | nil => simp at follows
    | cons c cs =>
        have shown : QuoteState.outside.code ('-' :: c :: cs) =
            '-' :: QuoteState.outside.code (c :: cs) := rfl
        rw [shown, isTame, clean.tame]
        simpa [QuoteState.code, QuoteState.shows] using follows

/-- The text of an integer is clean: a digit follows its minus sign. -/
theorem toString (n : Int) : Clean (ToString.toString n).toList := by
  have isDigit (k : Nat) : ∀ c ∈ k.repr.toList, c.isAlphanum = true := fun c member => by
    rw [Nat.toList_repr] at member
    simp [Char.isAlphanum, Nat.isDigit_of_mem_toDigits (by decide) (by decide) member]
  have clean (k : Nat) : Clean k.repr.toList :=
    of_plain (List.all_eq_true.2 fun c member => isPlainChar_of_isAlphanum (isDigit k c member))
  cases n with
  | ofNat k => exact clean k
  | negSucc k =>
      have spelled : (ToString.toString (Int.negSucc k)).toList = '-' :: (k + 1).repr.toList := by
        rw [Int.toString_eq_repr, Int.repr, String.toList_append]
        rfl
      rw [spelled]
      refine (clean (k + 1)).minus ?_
      cases digits : (k + 1).repr.toList with
      | nil => exact absurd (Nat.toList_repr ▸ digits) Nat.toDigits_ne_nil
      | cons c cs => exact isDigit (k + 1) c (digits ▸ List.mem_cons_self ..)

end Clean

end PageTree.Sql
