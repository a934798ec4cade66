import PageTree.Proofs.Selector.Writing

/-!
The grammar of terms. A writing cuts a text into a mark, names, the spelling of an operator, what
follows, and blanks between them. Main statement: a text is a term exactly when it has a writing,
which is its only one and says what the term asks; any other text is refused.
-/

namespace PageTree

open Text

/-! ### Spellings -/

namespace Operator

/-- An operator is spelled by its token, and inequality in one more way. -/
inductive IsSpelled : Operator → List Char → Prop where
  | token (operator : Operator) : IsSpelled operator operator.token.toList
  | angles : IsSpelled .notEqual ['<', '>']

theorem ofToken?_eq_some_iff {operator : Operator} {cs : List Char} :
    ofToken? (String.ofList cs) = some operator ↔ operator.IsSpelled cs := by
  constructor
  · intro found
    rw [ofToken?] at found
    split at found
    · next angles =>
      cases found
      obtain rfl : cs = ['<', '>'] := String.ofList_injective angles
      exact .angles
    · have same : operator.token = String.ofList cs := by simpa using List.find?_some found
      obtain rfl : operator.token.toList = cs := by rw [same, String.toList_ofList]
      exact .token operator
  · rintro (_ | _)
    · rw [String.ofList_toList, ofToken?_token]
    · rfl

namespace IsSpelled

variable {operator : Operator} {cs : List Char} (spelled : operator.IsSpelled cs)

include spelled

theorem exists_cons : ∃ c rest, cs = c :: rest := by
  cases spelled with
  | token => cases operator <;> exact ⟨_, _, rfl⟩
  | angles => exact ⟨_, _, rfl⟩

theorem isOperatorChar : ∀ c ∈ cs, Term.isOperatorChar c = true := by
  cases spelled with
  | token => exact Term.isOperatorChar_of_mem_token operator
  | angles => exact List.all_eq_true.1 (by decide)

/-- An equals sign ends its operator. -/
theorem notMem_dropLast : '=' ∉ cs.dropLast := by
  cases spelled with
  | token => cases operator <;> decide
  | angles => decide

end IsSpelled

end Operator

namespace Term

/-- Does the spelling of an operator end there in a run of operator characters? It is all of the
run, or it ends in an equals sign that no other comparison follows. -/
def EndsIn (spelling run : List Char) : Prop :=
  run = spelling ∨
    spelling.getLast? = some '=' ∧ ∃ c ∈ run[spelling.length]?, c ∉ ['=', '<', '>']

theorem endsIn_append_cons_iff {spelling tail : List Char} {c : Char} :
    EndsIn spelling (spelling ++ c :: tail) ↔
      spelling.getLast? = some '=' ∧ c ∉ ['=', '<', '>'] := by
  have longer : spelling ++ c :: tail ≠ spelling := fun same => by simp at same
  have next : (spelling ++ c :: tail)[spelling.length]? = some c := by simp
  rw [EndsIn, or_iff_right longer, next]
  simp

/-- A spelling that ends in an equals sign ends at the first of its run, and no longer run is an
operator. -/
theorem operatorOfRun?_append {operator : Operator} {spelling tail : List Char}
    (spelled : operator.IsSpelled spelling) (ends : EndsIn spelling (spelling ++ tail)) :
    operatorOfRun? (spelling ++ tail) = some (operator, spelling.length) := by
  cases tail with
  | nil => rw [List.append_nil, operatorOfRun?, Operator.ofToken?_eq_some_iff.2 spelled]
  | cons c tail =>
      obtain ⟨last, other⟩ := endsIn_append_cons_iff.1 ends
      obtain ⟨front, rfl⟩ := List.getLast?_eq_some_iff.1 last
      have free : '=' ∉ front := by
        have free := spelled.notMem_dropLast
        rwa [List.dropLast_concat] at free
      have longer : Operator.ofToken? (String.ofList (front ++ ['='] ++ c :: tail)) = none := by
        rw [Option.eq_none_iff_forall_ne_some]
        intro operator' found
        refine (Operator.ofToken?_eq_some_iff.1 found).notMem_dropLast ?_
        rw [List.dropLast_append_cons]
        simp
      have cut : splitAfterEquals? (front ++ ['='] ++ c :: tail) =
          some (front ++ ['='], c :: tail) := by
        rw [List.append_assoc, List.singleton_append, splitAfterEquals?,
          splitFirst?_append_sep free]
        rfl
      have apart : ¬((c :: tail).head?.any fun c => c = '=' || c = '<' || c = '>') = true := by
        simpa [and_assoc] using other
      rw [operatorOfRun?, longer, cut]
      dsimp only
      rw [if_neg apart, Operator.ofToken?_eq_some_iff.2 spelled]
      rfl

theorem operatorOfRun?_eq_some_iff {run : List Char} {operator : Operator} {length : Nat} :
    operatorOfRun? run = some (operator, length) ↔
      ∃ spelling tail, run = spelling ++ tail ∧ spelling.length = length ∧
        operator.IsSpelled spelling ∧ EndsIn spelling run := by
  constructor
  · intro found
    rw [operatorOfRun?] at found
    split at found
    · next whole =>
      cases found
      exact ⟨run, [], by simp, rfl, Operator.ofToken?_eq_some_iff.1 whole, .inl rfl⟩
    · split at found
      · cases found
      · next start rest cut =>
        obtain ⟨⟨front, back⟩, first, parts⟩ := Option.map_eq_some_iff.1 cut
        obtain ⟨rfl, rfl⟩ := Prod.mk.inj parts
        obtain rfl : run = front ++ ['='] ++ back := by simpa using (splitFirst?_eq_some first).1
        split at found
        · cases found
        · next apart =>
          obtain ⟨_, token, same⟩ := Option.map_eq_some_iff.1 found
          obtain ⟨rfl, rfl⟩ := Prod.mk.inj same
          refine ⟨_, back, rfl, rfl, Operator.ofToken?_eq_some_iff.1 token, ?_⟩
          cases back with
          | nil => exact .inl (List.append_nil _)
          | cons c back =>
              exact endsIn_append_cons_iff.2 ⟨List.getLast?_concat, by simpa [and_assoc] using apart⟩
  · rintro ⟨spelling, tail, rfl, rfl, spelled, ends⟩
    exact operatorOfRun?_append spelled ends

/-! ### Writings -/

/-- How a term is written, part by part. -/
@[ext]
structure Writing where
  /-- The blanks behind the mark of a negated term. -/
  mark : Option (List Char)
  names : List (List Char)
  gap : List Char
  operator : Operator
  spelling : List Char
  rest : List Char
  isBlank_mark : ∀ blanks ∈ mark, ∀ c ∈ blanks, isBlank c = true
  names_ne_nil : names ≠ []
  isName : ∀ name ∈ names, name ≠ [] ∧ ∀ c ∈ name, isNameChar c = true
  isBlank_gap : ∀ c ∈ gap, isBlank c = true
  spelled : operator.IsSpelled spelling
  ends : EndsIn spelling ((spelling ++ rest).takeWhile isOperatorChar)

namespace Writing

variable (w : Writing)

def markText : List Char :=
  w.mark.elim [] fun blanks => '!' :: blanks

def nameText : List Char :=
  ['|'].intercalate w.names

/-- The text from the operator on. -/
def tail : List Char :=
  w.spelling ++ w.rest

/-- The text behind the mark. -/
def body : List Char :=
  w.nameText ++ (w.gap ++ w.tail)

def text : List Char :=
  w.markText ++ w.body

theorem isFieldChar_of_mem_nameText : ∀ c ∈ w.nameText, isFieldChar c = true :=
  forall_mem_intercalate (by decide) fun name member c isChar =>
    isFieldChar_of_isNameChar ((w.isName name member).2 c isChar)

theorem exists_nameText_eq_cons :
    ∃ c rest, w.nameText = c :: rest ∧ isFieldChar c = true := by
  obtain ⟨name, names, listed⟩ := List.exists_cons_of_ne_nil w.names_ne_nil
  have isFirst : name ∈ w.names := listed ▸ List.mem_cons_self ..
  obtain ⟨c, rest, spelled⟩ := List.exists_cons_of_ne_nil (w.isName name isFirst).1
  have member : c ∈ w.nameText :=
    (isInfix_intercalate isFirst).subset (spelled ▸ List.mem_cons_self ..)
  refine ⟨c, ['|'].intercalate (rest :: names), ?_, w.isFieldChar_of_mem_nameText c member⟩
  rw [nameText, listed, spelled, intercalate_head_cons]

theorem exists_tail_eq_cons : ∃ c rest, w.tail = c :: rest ∧ isOperatorChar c = true := by
  obtain ⟨c, rest, spelled⟩ := w.spelled.exists_cons
  refine ⟨c, rest ++ w.rest, by rw [tail, spelled, List.cons_append], ?_⟩
  exact w.spelled.isOperatorChar c (spelled ▸ List.mem_cons_self ..)

/-! ### The parts read back -/

theorem readMark_text : readMark w.text = (w.mark.isSome, w.body) := by
  obtain ⟨c, rest, spelled, field⟩ := w.exists_nameText_eq_cons
  rw [text, markText]
  cases marked : w.mark with
  | none =>
      have unmarked : c ≠ '!' := by
        rintro rfl
        exact absurd field (by decide)
      simp [readMark, body, spelled, unmarked]
  | some blanks =>
      have starts : trimStart w.body = w.body :=
        trimStart_eq ⟨c, by simp [body, spelled], isBlank_of_isFieldChar field⟩
      have dropped : trimStart (blanks ++ w.body) = w.body := by
        rw [trimStart, List.dropWhile_append_of_pos (w.isBlank_mark blanks marked)]
        exact starts
      exact congrArg (Prod.mk true) dropped

theorem takeWhile_gap_tail : (w.gap ++ w.tail).takeWhile isFieldChar = [] := by
  obtain ⟨c, rest, spelled, operates⟩ := w.exists_tail_eq_cons
  cases gap : w.gap with
  | nil =>
      rw [List.nil_append, spelled]
      exact List.takeWhile_cons_of_neg (by simp [isFieldChar_of_isOperatorChar operates])
  | cons blank gap =>
      refine List.takeWhile_cons_of_neg fun field => ?_
      have blanks := w.isBlank_gap blank (gap ▸ List.mem_cons_self ..)
      rw [isBlank_of_isFieldChar field] at blanks
      cases blanks

theorem takeWhile_body : w.body.takeWhile isFieldChar = w.nameText := by
  rw [body, List.takeWhile_append_of_pos w.isFieldChar_of_mem_nameText, takeWhile_gap_tail,
    List.append_nil]

theorem dropWhile_body : w.body.dropWhile isFieldChar = w.gap ++ w.tail := by
  have whole := List.takeWhile_append_dropWhile (p := isFieldChar) (l := w.body)
  rw [takeWhile_body] at whole
  exact List.append_cancel_left (whole.trans rfl)

theorem trimStart_gap_tail : trimStart (w.gap ++ w.tail) = w.tail := by
  obtain ⟨c, rest, spelled, operates⟩ := w.exists_tail_eq_cons
  rw [trimStart, List.dropWhile_append_of_pos w.isBlank_gap]
  exact trimStart_eq ⟨c, by rw [spelled]; rfl, isBlank_of_isOperatorChar operates⟩

theorem splitAt_nameText : splitAt '|' w.nameText = w.names := by
  rw [splitAt_eq_splitOn, nameText]
  refine List.splitOn_intercalate '|' (fun name member bar => ?_) w.names_ne_nil
  exact absurd ((w.isName name member).2 '|' bar) (by decide)

theorem operatorOfRun?_tail :
    operatorOfRun? (w.tail.takeWhile isOperatorChar) = some (w.operator, w.spelling.length) := by
  refine operatorOfRun?_eq_some_iff.2
    ⟨w.spelling, w.rest.takeWhile isOperatorChar, ?_, rfl, w.spelled, w.ends⟩
  exact List.takeWhile_append_of_pos w.spelled.isOperatorChar

theorem read_text :
    Term.read w.text =
      .ok
        { fields := w.names.map String.ofList
          values := readValues w.rest
          operator := w.operator
          negated := w.mark.isSome
          text := String.ofList w.text } := by
  have named : w.nameText ≠ [] := by
    obtain ⟨c, rest, spelled, -⟩ := w.exists_nameText_eq_cons
    rw [spelled]
    exact List.cons_ne_nil c rest
  have operates : w.tail.takeWhile isOperatorChar ≠ [] := by
    obtain ⟨c, rest, spelled, operator⟩ := w.exists_tail_eq_cons
    rw [spelled, List.takeWhile_cons_of_pos operator]
    exact List.cons_ne_nil c _
  have full : w.names.any List.isEmpty = false := by
    rw [List.any_eq_false]
    intro name member
    simpa using (w.isName name member).1
  have rest : w.tail.drop w.spelling.length = w.rest := List.drop_left
  simp only [Term.read, readMark_text, takeWhile_body, dropWhile_body, trimStart_gap_tail,
    operatorOfRun?_tail, splitAt_nameText, rest, List.isEmpty_iff, named, operates, full]
  rfl

/-- What is read determines every part, and the blanks are what lies between. -/
theorem eq_of_text_eq {w w' : Writing} (same : w.text = w'.text) : w = w' := by
  have marked : (w.mark.isSome, w.body) = (w'.mark.isSome, w'.body) := by
    rw [← readMark_text, same, readMark_text]
  obtain ⟨isMarked, bodies⟩ := Prod.mk.inj marked
  have nameTexts : w.nameText = w'.nameText := by
    rw [← takeWhile_body, bodies, takeWhile_body]
  have names : w.names = w'.names := by
    rw [← splitAt_nameText, nameTexts, splitAt_nameText]
  have gaps : w.gap ++ w.tail = w'.gap ++ w'.tail := by
    rw [← dropWhile_body, bodies, dropWhile_body]
  have tails : w.tail = w'.tail := by
    rw [← trimStart_gap_tail, gaps, trimStart_gap_tail]
  have operators : some (w.operator, w.spelling.length) = some (w'.operator, w'.spelling.length) := by
    rw [← operatorOfRun?_tail, tails, operatorOfRun?_tail]
  obtain ⟨operator, length⟩ := Prod.mk.inj (Option.some.inj operators)
  obtain ⟨spelling, rest⟩ := List.append_inj tails length
  have gap : w.gap = w'.gap := List.append_cancel_right (tails ▸ gaps)
  have markTexts : w.markText = w'.markText := by
    rw [text, text, bodies] at same
    exact List.append_cancel_right same
  have mark : w.mark = w'.mark := by
    unfold markText at markTexts
    cases here : w.mark <;> cases there : w'.mark <;> simp_all
  exact Writing.ext mark names gap operator spelling rest

end Writing

/-! ### Every term is written -/

theorem exists_mark (cs : List Char) :
    ∃ mark : Option (List Char),
      (∀ blanks ∈ mark, ∀ c ∈ blanks, isBlank c = true) ∧
        (mark.elim [] fun blanks => '!' :: blanks) ++ (readMark cs).2 = cs := by
  unfold readMark
  split
  · next rest =>
    refine ⟨some (rest.takeWhile isBlank), ?_, ?_⟩
    · rintro _ ⟨⟩ c member
      exact List.mem_takeWhile_imp member
    · exact congrArg ('!' :: ·) List.takeWhile_append_dropWhile
  · exact ⟨none, by simp, rfl⟩

theorem exists_text_eq_of_read {cs : List Char} {term : Term} (written : Term.read cs = .ok term) :
    ∃ w : Writing, w.text = cs := by
  obtain ⟨operator, length, found, full, -⟩ := exists_of_read written
  obtain ⟨spelling, last, run, -, spelled, ends⟩ := operatorOfRun?_eq_some_iff.1 found
  obtain ⟨mark, blanks, marked⟩ := exists_mark cs
  let body := (readMark cs).2
  let names := body.takeWhile isFieldChar
  let gap := (body.dropWhile isFieldChar).takeWhile isBlank
  let rest := last ++ (afterNames cs).dropWhile isOperatorChar
  have tail : spelling ++ rest = afterNames cs := by
    rw [← List.append_assoc, ← run, List.takeWhile_append_dropWhile]
  have whole : names ++ (gap ++ (spelling ++ rest)) = body := by
    rw [tail, afterNames, trimStart, List.takeWhile_append_dropWhile,
      List.takeWhile_append_dropWhile]
  refine ⟨
    { mark, names := splitAt '|' names, gap, operator, spelling, rest
      isBlank_mark := blanks
      names_ne_nil := splitAt_ne_nil '|' names
      isName := ?_
      isBlank_gap := fun c member => List.mem_takeWhile_imp member
      spelled
      ends := by rwa [tail] }, ?_⟩
  · intro name member
    refine ⟨by simpa using List.any_eq_false.1 full name member, fun c isChar => ?_⟩
    have field : isFieldChar c = true :=
      List.mem_takeWhile_imp (mem_of_mem_splitAt member isChar)
    have bar : c ≠ '|' := ne_of_mem_of_not_mem isChar (notMem_of_mem_splitAt member)
    rwa [isFieldChar, decide_eq_false bar, Bool.or_false] at field
  · rw [Writing.text, Writing.markText, Writing.body, Writing.nameText, Writing.tail,
      intercalate_splitAt, whole]
    exact marked

end Term

/-! ### Values -/

namespace Text

theorem unquoteWith?_eq_some_iff {q : Char} {cs inner : List Char} :
    unquoteWith? q cs = some inner ↔ cs = q :: (inner ++ [q]) := by
  constructor
  · intro found
    unfold unquoteWith? at found
    split at found
    · split at found
      · next quoted =>
        obtain ⟨rfl, last⟩ := quoted
        cases found
        rw [List.dropLast_append_getLast? _ last]
      · cases found
    · cases found
  · rintro rfl
    simp [unquoteWith?]

def IsQuoted (cs : List Char) : Prop :=
  ∃ q inner, isQuote q = true ∧ cs = q :: (inner ++ [q])

/-- A quoted text loses its outer quotes, and any other text stays. -/
inductive IsUnquoted : List Char → List Char → Prop where
  | quoted {q : Char} (quote : isQuote q = true) (inner : List Char) :
      IsUnquoted (q :: (inner ++ [q])) inner
  | bare {cs : List Char} (free : ¬IsQuoted cs) : IsUnquoted cs cs

theorem isUnquoted_unquote (cs : List Char) : IsUnquoted cs (unquote cs) := by
  unfold unquote
  cases double : unquoteWith? '"' cs with
  | some inner =>
      obtain rfl := unquoteWith?_eq_some_iff.1 double
      exact .quoted rfl inner
  | none =>
      cases single : unquoteWith? '\'' cs with
      | some inner =>
          obtain rfl := unquoteWith?_eq_some_iff.1 single
          exact .quoted rfl inner
      | none =>
          refine .bare ?_
          rintro ⟨q, inner, quote, spelled⟩
          simp only [isQuote, Bool.or_eq_true, decide_eq_true_eq] at quote
          rcases quote with rfl | rfl
          · rw [unquoteWith?_eq_some_iff.2 spelled] at double
            cases double
          · rw [unquoteWith?_eq_some_iff.2 spelled] at single
            cases single

theorem isUnquoted_iff {cs inner : List Char} : IsUnquoted cs inner ↔ unquote cs = inner := by
  constructor
  · rintro (⟨quote⟩ | free)
    · exact unquote_quoted _ quote inner
    · have unquoted := isUnquoted_unquote cs
      generalize unquote cs = inner at unquoted
      rcases unquoted with ⟨quote⟩ | _
      · exact absurd ⟨_, _, quote, rfl⟩ free
      · rfl
  · rintro rfl
    exact isUnquoted_unquote cs

end Text

namespace Term

/-- A text with bars outside quotes between the values, which are trimmed and without quotes. -/
def HasValues (cs : List Char) (values : List String) : Prop :=
  ∃ pieces, pieces ≠ [] ∧ ArePieces '|' pieces ∧ ['|'].intercalate pieces = cs ∧
    List.Forall₂ (fun piece value => IsUnquoted (trim piece) value.toList) pieces values

theorem hasValues_trim_iff {cs : List Char} {values : List String} :
    HasValues (trim cs) values ↔ readValues cs = values := by
  have each : ∀ (pieces : List (List Char)) (values : List String),
      List.Forall₂ (fun piece value => IsUnquoted (trim piece) value.toList) pieces values ↔
        (pieces.map fun piece => String.ofList (unquote (trim piece))) = values := by
    intro pieces values
    rw [← List.forall₂_eq_eq_eq, List.forall₂_map_left_iff]
    have same : ∀ piece (value : String), IsUnquoted (trim piece) value.toList ↔
        String.ofList (unquote (trim piece)) = value := by
      intro piece value
      rw [isUnquoted_iff, ← String.toList_inj, String.toList_ofList]
    simp only [same]
  constructor
  · rintro ⟨pieces, some, are, joined, values⟩
    rw [readValues, ← joined, are.splitUnquoted_eq (by decide) some]
    exact (each pieces _).1 values
  · intro read
    exact ⟨splitUnquoted '|' (trim cs), splitUnquotedFrom_ne_nil _ _ _,
      arePieces_splitUnquoted '|' (trim cs), intercalate_splitUnquoted '|' (trim cs),
      (each _ values).2 read⟩

/-- What a term written so asks for. -/
structure Writing.Gives (w : Writing) (term : Term) : Prop where
  fields : term.fields = w.names.map String.ofList
  values : HasValues (trim w.rest) term.values
  operator : term.operator = w.operator
  negated : term.negated = w.mark.isSome
  text : term.text = String.ofList w.text

theorem Writing.read_text_eq_ok_iff (w : Writing) (term : Term) :
    Term.read w.text = .ok term ↔ w.Gives term := by
  rw [read_text, Except.ok.injEq]
  constructor
  · rintro rfl
    exact ⟨rfl, hasValues_trim_iff.2 rfl, rfl, rfl, rfl⟩
  · rintro ⟨fields, values, operator, negated, text⟩
    obtain ⟨⟩ := term
    simp_all [hasValues_trim_iff]

/-! ### The grammar -/

/-- One term of a selector. -/
def ofText (cs : List Char) : Except Error Term :=
  match Term.read cs with
  | .ok term => .ok term
  | .error fault => .error (.invalidTerm (String.ofList cs) fault)

theorem ofText_eq_ok_iff {cs : List Char} {term : Term} :
    ofText cs = .ok term ↔ Term.read cs = .ok term := by
  rw [ofText]
  cases Term.read cs <;> simp

theorem ofText_written (cs : List Char) :
    ((∃ term, ofText cs = .ok term) ↔ ∃ w : Writing, w.text = cs) ∧
      (∀ w : Writing, w.text = cs →
        (∀ w' : Writing, w'.text = cs → w' = w) ∧ ∀ term, ofText cs = .ok term ↔ w.Gives term) ∧
      ((¬∃ w : Writing, w.text = cs) →
        ∃ fault, ofText cs = .error (.invalidTerm (String.ofList cs) fault)) := by
  simp only [ofText_eq_ok_iff]
  refine ⟨⟨fun ⟨_, written⟩ => exists_text_eq_of_read written, ?_⟩, ?_, fun unwritten => ?_⟩
  · rintro ⟨w, rfl⟩
    exact ⟨_, w.read_text⟩
  · rintro w rfl
    exact ⟨fun w' => Writing.eq_of_text_eq, w.read_text_eq_ok_iff⟩
  · cases outcome : Term.read cs with
    | ok term => exact absurd (exists_text_eq_of_read outcome) unwritten
    | error fault => exact ⟨fault, by rw [ofText, outcome]⟩

example :
    Term.read "title%=%bike".toList = .ok (.single "title" .like "%bike") ∧
      Term.read "title=<5".toList = .error (.unknownOperator "=<") := by
  decide +kernel

end Term

/-- A selector is its terms, each of them read on its own. -/
theorem Selector.read_eq_mapM_ofText (s : String) :
    Selector.read s = (Selector.pieces s.toList).mapM Term.ofText :=
  rfl

end PageTree
