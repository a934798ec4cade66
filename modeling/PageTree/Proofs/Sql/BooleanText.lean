import PageTree.Proofs.Sql.ConditionTruth
import PageTree.Sql.Test
import PageTree.Sql.Token

/-!
Boolean text, read with the precedence of SQL: `NOT` binds tighter than `AND`, and `AND` tighter
than `OR`. Tests inside a text are marked, so that each counts as one symbol whatever it is spelled
with. Main statement: a text has at most one reading.
-/

namespace PageTree.Sql

inductive BooleanExpression where
  | test (atom : TestText)
  | constant (b : Bool)
  | not (operand : BooleanExpression)
  | and (left right : BooleanExpression)
  | or (left right : BooleanExpression)
  deriving DecidableEq, Repr

def BooleanExpression.eval (truth : TestText → Truth) : BooleanExpression → Truth
  | .test atom => truth atom
  | .constant b => .ofBool b
  | .not operand => (operand.eval truth).not
  | .and left right => (left.eval truth).and (right.eval truth)
  | .or left right => (left.eval truth).or (right.eval truth)

/-! ### Tokens -/

/-- A character of a text, or a test that is taken as a unit. -/
inductive Symbol where
  | char (c : Char)
  | test (atom : TestText)
  deriving DecidableEq, Repr

abbrev MarkedText := List Symbol

def Symbol.spelling : Symbol → List Char
  | .char c => [c]
  | .test atom => atom.render.toList

namespace MarkedText

def text (s : MarkedText) : String :=
  String.ofList (s.flatMap Symbol.spelling)

def ofString (s : String) : MarkedText :=
  s.toList.map .char

end MarkedText

inductive BooleanToken where
  | opening
  | closing
  | not
  | and
  | or
  | constant (b : Bool)
  | test (atom : TestText)
  deriving DecidableEq, Repr

namespace BooleanToken

/-- The token of a run of characters. A run of none is no token, and other words have no meaning. -/
def ofWord? (word : List Char) : Option (List BooleanToken) :=
  if word = [] then some []
  else if word = ['1', '=', '1'] then some [.constant true]
  else if word = ['1', '>', '2'] then some [.constant false]
  else
    match foldName (String.ofList word) with
    | "not" => some [.not]
    | "and" => some [.and]
    | "or" => some [.or]
    | _ => none

/-- The tokens of two texts, one after the other. -/
def append? (first second : Option (List BooleanToken)) : Option (List BooleanToken) :=
  first.bind fun tokens => second.map fun more => tokens ++ more

/-- The tokens of a text after the characters of a word. -/
def scanFrom (word : List Char) : MarkedText → Option (List BooleanToken)
  | [] => ofWord? word
  | .test atom :: rest =>
    append? (ofWord? word) (append? (some [.test atom]) (scanFrom [] rest))
  | .char c :: rest =>
    if Lexical.isBlank c then append? (ofWord? word) (scanFrom [] rest)
    else if c = '(' then append? (ofWord? word) (append? (some [.opening]) (scanFrom [] rest))
    else if c = ')' then append? (ofWord? word) (append? (some [.closing]) (scanFrom [] rest))
    else scanFrom (word ++ [c]) rest

def scan (s : MarkedText) : Option (List BooleanToken) :=
  scanFrom [] s

@[simp] theorem ofWord?_nil : ofWord? [] = some [] :=
  rfl

@[simp] theorem append?_some_nil (tokens : Option (List BooleanToken)) :
    append? (some []) tokens = tokens := by
  cases tokens <;> rfl

@[simp] theorem append?_nil (tokens : Option (List BooleanToken)) :
    append? tokens (some []) = tokens := by
  cases tokens <;> simp [append?]

theorem append?_assoc (first second third : Option (List BooleanToken)) :
    append? (append? first second) third = append? first (append? second third) := by
  cases first <;> cases second <;> cases third <;> simp [append?]

/-- Does no word go on into the text? -/
def beginsApart : MarkedText → Bool
  | [] => true
  | .test _ :: _ => true
  | .char c :: _ => Lexical.isBlank c || c = '(' || c = ')'

theorem scanFrom_of_beginsApart (word : List Char) {s : MarkedText}
    (apart : beginsApart s = true) :
    scanFrom word s = append? (ofWord? word) (scan s) := by
  cases s with
  | nil => simp [scan, scanFrom]
  | cons symbol rest =>
      cases symbol with
      | test atom => simp [scan, scanFrom]
      | char c =>
          simp only [beginsApart, Bool.or_eq_true, decide_eq_true_eq] at apart
          simp only [scan, scanFrom]
          rcases apart with (blank | rfl) | rfl
          · simp [blank]
          · split <;> simp
          · split <;> simp

/-- A text is scanned piece by piece where no word goes on from one piece into the next. -/
theorem scanFrom_append (word : List Char) (s : MarkedText) {t : MarkedText}
    (apart : beginsApart t = true) :
    scanFrom word (s ++ t) = append? (scanFrom word s) (scan t) := by
  induction s generalizing word with
  | nil => exact scanFrom_of_beginsApart word apart
  | cons symbol s induction =>
      cases symbol with
      | test atom => simp only [List.cons_append, scanFrom, induction, append?_assoc]
      | char c =>
          simp only [List.cons_append, scanFrom, induction]
          split
          · rw [append?_assoc]
          · split
            · simp only [append?_assoc]
            · split
              · simp only [append?_assoc]
              · rfl

theorem scan_opening (t : MarkedText) :
    scan (MarkedText.ofString "(" ++ t) = append? (some [.opening]) (scan t) := by
  simp [MarkedText.ofString, scan, scanFrom, Lexical.isBlank]

theorem scan_and (t : MarkedText) :
    scan (MarkedText.ofString " AND " ++ t) = append? (some [.and]) (scan t) := by
  have connective : ofWord? ['A', 'N', 'D'] = some [.and] := by rfl
  simp [MarkedText.ofString, scan, scanFrom, connective, Lexical.isBlank]

theorem scan_or (t : MarkedText) :
    scan (MarkedText.ofString " OR " ++ t) = append? (some [.or]) (scan t) := by
  have connective : ofWord? ['O', 'R'] = some [.or] := by rfl
  simp [MarkedText.ofString, scan, scanFrom, connective, Lexical.isBlank]

theorem scan_not (t : MarkedText) :
    scan (MarkedText.ofString "NOT (" ++ t) =
      append? (some [.not]) (scan (MarkedText.ofString "(" ++ t)) := by
  have connective : ofWord? ['N', 'O', 'T'] = some [.not] := by rfl
  simp [MarkedText.ofString, scan, scanFrom, connective, Lexical.isBlank]

end BooleanToken

/-! ### Grammar -/

inductive BooleanLevel where
  | disjunction
  | conjunction
  | operand
  deriving DecidableEq, Repr

/-- The expressions of each level of binding, with the tokens they are written with. -/
inductive BooleanGrammar : BooleanLevel → List BooleanToken → BooleanExpression → Prop
  | test (atom : TestText) : BooleanGrammar .operand [.test atom] (.test atom)
  | constant (b : Bool) : BooleanGrammar .operand [.constant b] (.constant b)
  | enclosed {tokens : List BooleanToken} {e : BooleanExpression}
      (inner : BooleanGrammar .disjunction tokens e) :
      BooleanGrammar .operand (.opening :: (tokens ++ [.closing])) e
  | not {tokens : List BooleanToken} {e : BooleanExpression}
      (inner : BooleanGrammar .operand tokens e) :
      BooleanGrammar .operand (.not :: tokens) (.not e)
  | operand {tokens : List BooleanToken} {e : BooleanExpression}
      (only : BooleanGrammar .operand tokens e) : BooleanGrammar .conjunction tokens e
  | and {left right : List BooleanToken} {e f : BooleanExpression}
      (first : BooleanGrammar .conjunction left e) (last : BooleanGrammar .operand right f) :
      BooleanGrammar .conjunction (left ++ .and :: right) (.and e f)
  | conjunction {tokens : List BooleanToken} {e : BooleanExpression}
      (only : BooleanGrammar .conjunction tokens e) : BooleanGrammar .disjunction tokens e
  | or {left right : List BooleanToken} {e f : BooleanExpression}
      (first : BooleanGrammar .disjunction left e) (last : BooleanGrammar .conjunction right f) :
      BooleanGrammar .disjunction (left ++ .or :: right) (.or e f)

def MarkedText.Reads (s : MarkedText) (e : BooleanExpression) : Prop :=
  ∃ tokens, BooleanToken.scan s = some tokens ∧ BooleanGrammar .disjunction tokens e

/-! ### A reader with one answer -/

/-- What is open between a parenthesis and the next operand: the operands of `OR` and of `AND`
before it, and the negations that wait for it. -/
structure OpenOperands where
  disjuncts : Option BooleanExpression
  conjuncts : Option BooleanExpression
  negations : Nat

namespace OpenOperands

def none : OpenOperands :=
  { disjuncts := Option.none, conjuncts := Option.none, negations := 0 }

def negate : Nat → BooleanExpression → BooleanExpression
  | 0, e => e
  | n + 1, e => negate n (.not e)

def conjunction (o : OpenOperands) (e : BooleanExpression) : BooleanExpression :=
  match o.conjuncts with
  | some before => .and before e
  | Option.none => e

def disjunction (o : OpenOperands) (e : BooleanExpression) : BooleanExpression :=
  match o.disjuncts with
  | some before => .or before (o.conjunction e)
  | Option.none => o.conjunction e

end OpenOperands

/-- A reader before an operand or after one, with what is open inside each parenthesis. -/
inductive BooleanReader where
  | awaiting (here : OpenOperands) (outer : List OpenOperands)
  | complete (operand : BooleanExpression) (here : OpenOperands) (outer : List OpenOperands)

namespace BooleanReader

def take (e : BooleanExpression) (here : OpenOperands) (outer : List OpenOperands) :
    BooleanReader :=
  .complete (OpenOperands.negate here.negations e) { here with negations := 0 } outer

def step : BooleanReader → BooleanToken → Option BooleanReader
  | .awaiting here outer, .opening => some (.awaiting .none (here :: outer))
  | .awaiting here outer, .not =>
    some (.awaiting { here with negations := here.negations + 1 } outer)
  | .awaiting here outer, .test atom => some (take (.test atom) here outer)
  | .awaiting here outer, .constant b => some (take (.constant b) here outer)
  | .complete e here outer, .and =>
    some (.awaiting { here with conjuncts := some (here.conjunction e) } outer)
  | .complete e here outer, .or =>
    some (.awaiting
      { here with disjuncts := some (here.disjunction e), conjuncts := none } outer)
  | .complete e here (next :: outer), .closing => some (take (here.disjunction e) next outer)
  | _, _ => none

def run : BooleanReader → List BooleanToken → Option BooleanReader
  | reader, [] => some reader
  | reader, token :: tokens => (reader.step token).bind fun next => run next tokens

theorem run_append (reader : BooleanReader) (first second : List BooleanToken) :
    reader.run (first ++ second) =
      (reader.run first).bind fun next => next.run second := by
  induction first generalizing reader with
  | nil => rfl
  | cons token first induction =>
      simp only [List.cons_append, run, Option.bind_assoc]
      cases reader.step token with
      | none => rfl
      | some next => exact induction next

/-- Where a reader stands after the tokens of an expression of a level, when it begins them with
nothing open that binds as tight. -/
def Accepts (tokens : List BooleanToken) (e : BooleanExpression) : BooleanLevel → Prop
  | .operand => ∀ here outer,
      (awaiting here outer).run tokens = some (take e here outer)
  | .conjunction => ∀ here outer, here.conjuncts = none → here.negations = 0 →
      ∃ last conjuncts,
        (awaiting here outer).run tokens =
            some (complete last { here with conjuncts } outer) ∧
          OpenOperands.conjunction { here with conjuncts } last = e
  | .disjunction => ∀ outer, ∃ last here,
      (awaiting .none outer).run tokens = some (complete last here outer) ∧
        here.negations = 0 ∧ here.disjunction last = e

theorem accepts_of_grammar {level : BooleanLevel} {tokens : List BooleanToken}
    {e : BooleanExpression} (grammatical : BooleanGrammar level tokens e) :
    Accepts tokens e level := by
  induction grammatical with
  | test atom => exact fun _ _ => rfl
  | constant b => exact fun _ _ => rfl
  | enclosed _ accepted =>
      intro here outer
      obtain ⟨last, inside, reached, _, whole⟩ := accepted (here :: outer)
      simp only [run, step, Option.bind_some, run_append, reached, whole]
  | not _ accepted =>
      intro here outer
      simp only [run, step, Option.bind_some]
      rw [accepted]
      rfl
  | operand _ accepted =>
      intro here outer noConjuncts noNegations
      refine ⟨_, none, accepted here outer |>.trans ?_, rfl⟩
      simp [take, noNegations, noConjuncts, OpenOperands.negate]
  | and _ _ acceptedFirst acceptedLast =>
      intro here outer noConjuncts noNegations
      obtain ⟨last, conjuncts, reached, whole⟩ :=
        acceptedFirst here outer noConjuncts noNegations
      refine ⟨_, some _, ?_, rfl⟩
      rw [run_append, reached]
      simp only [Option.bind_some, run, step, whole]
      rw [acceptedLast]
      simp only [take, noNegations, OpenOperands.negate]
  | conjunction _ accepted =>
      intro outer
      obtain ⟨last, conjuncts, reached, whole⟩ := accepted .none outer rfl rfl
      exact ⟨last, _, reached, rfl, whole⟩
  | or _ _ acceptedFirst acceptedLast =>
      intro outer
      obtain ⟨last, here, reached, noNegations, whole⟩ := acceptedFirst outer
      obtain ⟨final, conjuncts, ended, final_eq⟩ :=
        acceptedLast
          { here with disjuncts := some (here.disjunction last), conjuncts := none } outer
          rfl noNegations
      refine
        ⟨final, { here with disjuncts := some (here.disjunction last), conjuncts },
          ?_, noNegations, ?_⟩
      · rw [run_append, reached]
        exact ended
      · rw [← whole, ← final_eq]
        rfl

/-- The expression of a reader that has come to the end of a text. -/
def result : BooleanReader → Option BooleanExpression
  | .complete e here _ => some (here.disjunction e)
  | .awaiting _ _ => none

end BooleanReader

/-- Tokens are written for one expression only. -/
theorem BooleanGrammar.unique {tokens : List BooleanToken} {e f : BooleanExpression}
    (first : BooleanGrammar .disjunction tokens e)
    (second : BooleanGrammar .disjunction tokens f) : e = f := by
  obtain ⟨last, here, reached, _, whole⟩ := BooleanReader.accepts_of_grammar first []
  obtain ⟨last', here', reached', _, whole'⟩ := BooleanReader.accepts_of_grammar second []
  have sameEnd := congrArg (Option.map BooleanReader.result) (reached.symm.trans reached')
  simpa [BooleanReader.result, whole, whole'] using sameEnd

theorem MarkedText.Reads.unique {s : MarkedText} {e f : BooleanExpression}
    (first : s.Reads e) (second : s.Reads f) : e = f := by
  obtain ⟨tokens, scanned, grammatical⟩ := first
  obtain ⟨tokens', scanned', grammatical'⟩ := second
  obtain rfl : tokens = tokens' := Option.some.inj (scanned.symm.trans scanned')
  exact grammatical.unique grammatical'

end PageTree.Sql
