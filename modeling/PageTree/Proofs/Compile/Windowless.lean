import PageTree.Finder
import PageTree.Proofs.Data.Result
import PageTree.Proofs.Query.Comment

/-!
Selectors without their window. Terms on the window are read from the whole selector and add nothing
of their own, so a selector without them compiles to the same query without its window: to the same
tables under the same names, the same filters, the same order.
-/

namespace PageTree

open Sql

namespace Term

theorem kind_eq_window_iff {term : Term} :
    term.kind = .window ↔ term.field = "limit" ∨ term.field = "start" := by
  constructor
  · intro window
    unfold kind at window
    split at window <;> first | cases window | skip
    · next limits => exact .inl limits
    · next starts => exact .inr starts
    · split at window <;> cases window
  · rintro (named | named)
    · rw [kind, named]
      rfl
    · rw [kind, named]
      rfl

theorem kind_eq_sort_iff {term : Term} : term.kind = .sort ↔ term.field = "sort" := by
  constructor
  · intro sorts
    unfold kind at sorts
    split at sorts <;> first | cases sorts | skip
    · next named => exact named
    · split at sorts <;> cases sorts
  · intro named
    rw [kind, named]
    rfl

theorem kind_of_isStatus {term : Term} (status : term.isStatus = true) : term.kind = .native := by
  have named : term.fields = ["status"] := of_decide_eq_true status
  have field : term.field = "status" := by rw [Term.field, named, List.headD_cons]
  rw [kind, field]
  decide

theorem kind_resolveStatus (term : Term) : term.resolveStatus.kind = term.kind := by
  unfold resolveStatus
  split <;> rfl

theorem resolveStatus_of_kind {term : Term} (other : term.kind ≠ .native) :
    term.resolveStatus = term := by
  rw [resolveStatus, if_neg fun status => other (kind_of_isStatus status)]

theorem text_resolveStatus (term : Term) : term.resolveStatus.text = term.text := by
  unfold resolveStatus
  split <;> rfl

end Term

namespace Selector

/-- The selector without its `limit` and `start` terms. -/
def withoutWindow (selector : Selector) : Selector :=
  selector.filter fun term => term.kind ≠ .window

/-- The selector without its `sort` terms. -/
def withoutSort (selector : Selector) : Selector :=
  selector.filter fun term => term.kind ≠ .sort

/-- The terms of certain kinds. -/
def ofKinds (p : TermKind → Bool) (selector : Selector) : Selector :=
  selector.filter fun term => p term.kind

variable {p : TermKind → Bool}

theorem withoutWindow_eq_ofKinds (selector : Selector) :
    selector.withoutWindow = selector.ofKinds fun kind => kind ≠ .window := rfl

theorem filter_ofKinds (selector : Selector) {q : Term → Bool}
    (kept : ∀ term, q term = true → p term.kind = true) :
    (selector.ofKinds p).filter q = selector.filter q := by
  rw [ofKinds, List.filter_filter]
  refine List.filter_congr fun term _ => ?_
  cases holds : q term with
  | false => rfl
  | true => rw [Bool.true_and, kept term holds]

theorem ofKinds_map_resolveStatus (selector : Selector) :
    ofKinds p (selector.map Term.resolveStatus) = (selector.ofKinds p).map Term.resolveStatus := by
  rw [ofKinds, ofKinds, List.filter_map]
  simp only [Function.comp_def, Term.kind_resolveStatus]

theorem withoutWindow_append (selector other : Selector) :
    withoutWindow (selector ++ other) = selector.withoutWindow ++ other.withoutWindow :=
  List.filter_append ..

/-! ### The bound on the status -/

section

variable (native : p .native = true)

include native

theorem statusNumbers_ofKinds (selector : Selector) :
    (selector.ofKinds p).statusNumbers = selector.statusNumbers := by
  rw [statusNumbers, statusNumbers, filter_ofKinds selector fun term status => ?_]
  rw [Term.kind_of_isStatus status, native]

theorem withStatusBound_ofKinds (selector : Selector) (single : Bool) :
    (selector.ofKinds p).withStatusBound single = (selector.withStatusBound single).ofKinds p := by
  have bound (bounds : List Int) : ofKinds p (bounds.map fun bound =>
      Term.single "status" .less (toString bound)) = bounds.map fun bound =>
        Term.single "status" .less (toString bound) := by
    rw [ofKinds, List.filter_eq_self, List.forall_mem_map]
    exact fun _ _ => native
  have append (others : Selector) : ofKinds p (selector.map Term.resolveStatus ++ others) =
      ofKinds p (selector.map Term.resolveStatus) ++ ofKinds p others :=
    List.filter_append ..
  rw [withStatusBound, withStatusBound, statusBound?, statusBound?, statusNumbers_ofKinds native,
    append, ofKinds_map_resolveStatus, bound]

end

end Selector

/-! ### Parts of a query -/

namespace Part

def add (part other : Part) : Part :=
  { used := part.used ++ other.used
    joins := part.joins ++ other.joins
    conjuncts := part.conjuncts ++ other.conjuncts
    members := part.members ++ other.members
    scores := part.scores ++ other.scores }

theorem nothing_add (part : Part) : nothing.add part = part := rfl

/-- All parts as one. A query is put together from no more than that. -/
def total (parts : List Part) : Part :=
  { used := parts.flatMap used
    joins := parts.flatMap joins
    conjuncts := parts.flatMap conjuncts
    members := parts.flatMap members
    scores := parts.flatMap scores }

theorem total_cons (part : Part) (parts : List Part) :
    total (part :: parts) = part.add (total parts) := rfl

theorem map_total_ofTerms_cons (catalog : Catalog) (used : List String) (term : Term)
    (terms : Selector) :
    (ofTerms catalog used (term :: terms)).map total =
      (ofTerm catalog used term).bind fun first =>
        ((ofTerms catalog (used ++ first.used) terms).map total).map first.add := by
  rw [ofTerms]
  cases ofTerm catalog used term with
  | error error => rfl
  | ok first =>
      dsimp only [Except.bind, bind]
      cases ofTerms catalog (used ++ first.used) terms with
      | error error => rfl
      | ok rest => exact congrArg Except.ok (total_cons first rest)

/-- Terms that add nothing can be left out. -/
theorem map_total_ofTerms_ofKinds {p : TermKind → Bool}
    (others : ∀ kind, p kind = false → kind = .sort ∨ kind = .window) (catalog : Catalog)
    (used : List String) (selector : Selector) :
    (ofTerms catalog used (selector.ofKinds p)).map total =
      (ofTerms catalog used selector).map total := by
  induction selector generalizing used with
  | nil => rfl
  | cons term selector induction =>
      rw [Selector.ofKinds, List.filter_cons]
      change (ofTerms catalog used (if _ then term :: Selector.ofKinds p selector else _)).map
        total = _
      split
      · rw [map_total_ofTerms_cons, map_total_ofTerms_cons]
        simp only [induction]
      · next dropped =>
        have unused : used ++ nothing.used = used := List.append_nil used
        have first : ofTerm catalog used term = .ok nothing := by
          rcases others _ (Bool.eq_false_iff.2 dropped) with kind | kind
          · rw [ofTerm, kind]
          · rw [ofTerm, kind]
        refine (induction used).trans ?_
        rw [map_total_ofTerms_cons, first]
        dsimp only [Except.bind]
        rw [unused]
        cases ofTerms catalog used selector with
        | error error => rfl
        | ok parts => exact congrArg Except.ok (nothing_add _).symm

theorem map_total_ofTerms_withoutWindow (catalog : Catalog) (used : List String)
    (selector : Selector) :
    (ofTerms catalog used selector.withoutWindow).map total =
      (ofTerms catalog used selector).map total :=
  map_total_ofTerms_ofKinds (p := fun kind => kind ≠ .window) (by simp) catalog used selector

theorem map_total_ofTerms_withoutSort (catalog : Catalog) (used : List String)
    (selector : Selector) :
    (ofTerms catalog used selector.withoutSort).map total =
      (ofTerms catalog used selector).map total :=
  map_total_ofTerms_ofKinds (p := fun kind => kind ≠ .sort) (by simp) catalog used selector

end Part

namespace Selector

variable {catalog : Catalog} {selector : Selector}

theorem sortKeys_withoutWindow (schema : Schema) (selector : Selector) :
    selector.withoutWindow.sortKeys schema = selector.sortKeys schema := by
  rw [sortKeys, sortKeys, withoutWindow_eq_ofKinds, filter_ofKinds selector fun term sorts => ?_]
  rw [Term.kind_eq_sort_iff.2 (of_decide_eq_true sorts)]
  rfl

theorem sortKeys_withoutSort (schema : Schema) (selector : Selector) :
    selector.withoutSort.sortKeys schema = [] := by
  have none : selector.withoutSort.filter (fun term => term.field = "sort") = [] := by
    rw [List.filter_eq_nil_iff]
    intro term isTerm sorts
    have other := of_decide_eq_true (List.mem_filter.1 isTerm).2
    exact other (Term.kind_eq_sort_iff.2 (of_decide_eq_true sorts))
  rw [sortKeys, none]
  rfl

theorem window?_eq_none (others : ∀ term ∈ selector, term.field ≠ "limit")
    (pageNumber : Option Int) : selector.window? pageNumber = none := by
  have unlimited : selector.filter (fun term => term.field = "limit") = [] :=
    List.filter_eq_nil_iff.2 fun term isTerm => by simp [others term isTerm]
  rw [window?, lastValue?, unlimited]
  rfl

theorem window?_withoutWindow (selector : Selector) (pageNumber : Option Int) :
    selector.withoutWindow.window? pageNumber = none := by
  refine window?_eq_none (fun term isTerm limits => ?_) pageNumber
  have other := of_decide_eq_true (List.mem_filter.1 isTerm).2
  exact other (Term.kind_eq_window_iff.2 (.inl limits))

theorem assemble_withoutWindow (selector : Selector) {parts others : List Part}
    (same : Part.total parts = Part.total others) :
    selector.withoutWindow.assemble catalog parts =
      { selector.assemble catalog others with window := none } := by
  simp only [Part.total, Part.mk.injEq] at same
  obtain ⟨-, joins, conjuncts, members, scores⟩ := same
  rw [assemble, assemble, sortKeys_withoutWindow, window?_withoutWindow, joins, conjuncts, members,
    scores]

/-- A selector without its window compiles to the query without its window, or fails alike. -/
theorem compile_withoutWindow (catalog : Catalog) (selector : Selector) :
    selector.withoutWindow.compile catalog =
      (selector.compile catalog).map fun query => { query with window := none } := by
  have assembled := map_eq_map_of_map_eq (g := selector.withoutWindow.assemble catalog)
    (h := fun parts => { selector.assemble catalog parts with window := none })
    (Part.map_total_ofTerms_withoutWindow catalog [] selector)
    fun _ _ same => selector.assemble_withoutWindow same
  rw [compile, compile, assembled]
  cases Part.ofTerms catalog [] selector with
  | error error => rfl
  | ok parts => rfl

end Selector

/-! ### Page numbers -/

section PageNumbers

variable (catalog : Catalog) (pageNumber : Option Int)

theorem Member.contributions_pageNumber (term : Term) (used names : List String) :
    contributions { catalog with pageNumber } term used names =
      contributions catalog term used names := by
  induction names generalizing used with
  | nil => rfl
  | cons name names induction =>
      rw [contributions, contributions]
      simp only [induction]
      rfl

theorem Part.ofTerm_pageNumber (used : List String) (term : Term) :
    ofTerm { catalog with pageNumber } used term = ofTerm catalog used term := by
  unfold ofTerm
  rw [Member.contributions_pageNumber]
  rfl

theorem Part.ofTerms_pageNumber (used : List String) (selector : Selector) :
    ofTerms { catalog with pageNumber } used selector = ofTerms catalog used selector := by
  induction selector generalizing used with
  | nil => rfl
  | cons term selector induction =>
      rw [ofTerms, ofTerms]
      simp only [induction, ofTerm_pageNumber]

/-- The page number decides the window and nothing else. -/
theorem Selector.compile_pageNumber (selector : Selector) :
    selector.compile { catalog with pageNumber } =
      (selector.compile catalog).map fun query =>
        { query with window := selector.window? pageNumber } := by
  rw [compile, compile, Part.ofTerms_pageNumber]
  cases Part.ofTerms catalog [] selector with
  | error error => rfl
  | ok parts => rfl

end PageNumbers

/-! ### Finds -/

namespace Finder

theorem prepare_of_unchecked {finder : Finder} (unchecked : finder.checkStatus = false)
    (selector : Selector) : finder.prepare selector false = selector := by
  rw [prepare, unchecked]
  rfl

theorem prepare_ofKinds {p : TermKind → Bool} (native : p .native = true) (finder : Finder)
    (selector : Selector) :
    finder.prepare (selector.ofKinds p) false = (finder.prepare selector false).ofKinds p := by
  simp only [prepare, Bool.false_eq_true, if_false]
  split
  · exact Selector.withStatusBound_ofKinds native selector false
  · rfl

theorem prepare_withoutWindow (finder : Finder) (selector : Selector) :
    finder.prepare selector.withoutWindow false =
      (finder.prepare selector false).withoutWindow :=
  finder.prepare_ofKinds (p := fun kind => kind ≠ .window) rfl selector

theorem prepare_withoutSort (finder : Finder) (selector : Selector) :
    finder.prepare selector.withoutSort false = (finder.prepare selector false).withoutSort :=
  finder.prepare_ofKinds (p := fun kind => kind ≠ .sort) rfl selector

/-- The comment of a find: what it looks for, when that is to be shown. -/
def commentFor (finder : Finder) (selector : Selector) : String :=
  if finder.debug then "Selector: " ++ (finder.prepare selector false).text else ""

theorem isPlainComment_label_iff (selector : Selector) :
    isPlainComment ("Selector: " ++ selector.text).toList = true ↔
      ∀ term ∈ selector, isPlainComment term.text.toList = true := by
  have spelled (text : String) :
      ("Selector: " ++ text).toList = "Selector:".toList ++ ' ' :: text.toList := by
    simp
  have label : isPlainComment "Selector:".toList = true := by decide
  rw [spelled, isPlainComment_append (by decide) (by decide) (by decide), label, Bool.true_and,
    Selector.text, isPlainComment_intercalate, List.all_map, List.all_eq_true]
  rfl

theorem isPlainComment_commentFor_iff (finder : Finder) (selector : Selector) :
    isPlainComment (finder.commentFor selector).toList = true ↔
      (finder.debug = true →
        ∀ term ∈ finder.prepare selector false, isPlainComment term.text.toList = true) := by
  rw [commentFor]
  split
  · next debug =>
    rw [isPlainComment_label_iff]
    simp [debug]
  · next quiet => simp [quiet, (by decide : isPlainComment [] = true)]

/-- Without its window a selector leaves a plain comment where it does so with it. -/
theorem isPlainComment_commentFor_withoutWindow {finder : Finder} {selector : Selector}
    (plain : isPlainComment (finder.commentFor selector).toList = true) :
    isPlainComment (finder.commentFor selector.withoutWindow).toList = true := by
  rw [isPlainComment_commentFor_iff] at plain ⊢
  rw [prepare_withoutWindow]
  exact fun debug term member => plain debug term (List.mem_of_mem_filter member)

theorem queryFor_eq_map_compile (finder : Finder) (catalog : Catalog) (selector : Selector) :
    finder.queryFor catalog selector false =
      ((finder.prepare selector false).compile catalog).map fun query =>
        { query with comment := finder.commentFor selector } := by
  rw [queryFor]
  cases compiled : (finder.prepare selector false).compile catalog with
  | error error => rfl
  | ok query =>
      obtain ⟨parts, -, rfl⟩ := map_eq_ok.1 compiled
      dsimp only [Except.map, commentFor]
      split <;> rfl

theorem exists_queryFor_iff {finder : Finder} (unchecked : finder.checkStatus = false)
    {catalog : Catalog} {selector : Selector} :
    (∃ query, finder.queryFor catalog selector false = .ok query) ↔
      ∃ parts, Part.ofTerms catalog [] selector = .ok parts := by
  rw [queryFor_eq_map_compile, prepare_of_unchecked unchecked, Selector.compile]
  cases Part.ofTerms catalog [] selector with
  | error error =>
      exact iff_of_false (fun ⟨_, failed⟩ => nomatch failed) fun ⟨_, failed⟩ => nomatch failed
  | ok parts => exact iff_of_true ⟨_, rfl⟩ ⟨parts, rfl⟩

theorem queryFor_withoutWindow (finder : Finder) (catalog : Catalog) (selector : Selector) :
    finder.queryFor catalog selector.withoutWindow false =
      (finder.queryFor catalog selector false).map fun query =>
        { query with window := none, comment := finder.commentFor selector.withoutWindow } := by
  rw [queryFor_eq_map_compile, queryFor_eq_map_compile, prepare_withoutWindow,
    Selector.compile_withoutWindow]
  cases (finder.prepare selector false).compile catalog with
  | error error => rfl
  | ok query => rfl

theorem queryFor_withoutWindow_of_ok {finder : Finder} {catalog : Catalog} {selector : Selector}
    {query : Query} (compiled : finder.queryFor catalog selector false = .ok query) :
    finder.queryFor catalog selector.withoutWindow false =
      .ok { query with window := none, comment := finder.commentFor selector.withoutWindow } := by
  rw [queryFor_withoutWindow, compiled]
  rfl

end Finder

end PageTree
