import PageTree.Proofs.Finder.Complement
import PageTree.Proofs.Finder.PathTerms

/-!
Terms on the place of a page in the tree. Of such a term only the names and the values are read.
Main statement: a path, or a term on the pages above, returns the same pages when it is negated.
-/

namespace PageTree

open Sql

namespace Term

def IsPlaced (term : Term) : Prop :=
  term.kind = .path ∨ term.kind = .ancestors

/-- The terms are one, or ask for one place, whatever their operators and negations. -/
inductive AsksAlike (term : Term) : Term → Prop
  | refl : AsksAlike term term
  | placed {other : Term} (isPlaced : term.IsPlaced) (fields : other.fields = term.fields)
      (values : other.values = term.values) : AsksAlike term other

namespace AsksAlike

variable {term other : Term} (alike : AsksAlike term other)

include alike

theorem field_eq : other.field = term.field := by
  cases alike with
  | refl => rfl
  | placed _ fields _ => rw [field, field, fields]

theorem kind_eq : other.kind = term.kind := by
  rw [kind, kind, alike.field_eq]

theorem ofTerm_eq (catalog : Catalog) (used : List String) :
    Part.ofTerm catalog used other = Part.ofTerm catalog used term := by
  cases alike with
  | refl => rfl
  | @placed other isPlaced fields values =>
      have kind : other.kind = term.kind := (placed isPlaced fields values).kind_eq
      have value : other.value = term.value := by rw [Term.value, Term.value, values]
      rcases isPlaced with path | ancestors
      · rw [Part.ofTerm_path path, Part.ofTerm_path (kind.trans path), value]
      · rw [Part.ofTerm, Part.ofTerm, kind.trans ancestors, ancestors, values]

theorem resolveStatus : AsksAlike term.resolveStatus other.resolveStatus := by
  cases alike with
  | refl => exact .refl
  | @placed other isPlaced fields values =>
      have unresolved {term : Term} (isPlaced : term.IsPlaced) : term.resolveStatus = term := by
        refine if_neg fun status => ?_
        rcases isPlaced with kind | kind
        · exact absurd ((kind_of_isStatus status).symm.trans kind) (by decide)
        · exact absurd ((kind_of_isStatus status).symm.trans kind) (by decide)
      have kind : other.kind = term.kind := (placed isPlaced fields values).kind_eq
      have isPlacedToo : other.IsPlaced := by rwa [IsPlaced, kind]
      rw [unresolved isPlaced, unresolved isPlacedToo]
      exact .placed isPlaced fields values

end AsksAlike

end Term

/-! ### Selectors -/

namespace Selector

variable {selector others : Selector} (alike : List.Forall₂ Term.AsksAlike selector others)

include alike

theorem filter_eq_of_asksAlike {p : Term → Bool}
    (unplaced : ∀ term, p term = true → ¬term.IsPlaced) :
    others.filter p = selector.filter p := by
  induction alike with
  | nil => rfl
  | @cons term other selector others first _ induction =>
      rw [List.filter_cons, List.filter_cons, induction]
      cases first with
      | refl => rfl
      | placed isPlaced fields values =>
          have kind := (Term.AsksAlike.placed isPlaced fields values).kind_eq
          have isPlacedToo : other.IsPlaced := by rwa [Term.IsPlaced, kind]
          rw [if_neg fun among => unplaced term among isPlaced,
            if_neg fun among => unplaced other among isPlacedToo]

theorem sortKeys_eq_of_asksAlike (schema : Schema) :
    others.sortKeys schema = selector.sortKeys schema := by
  rw [sortKeys, sortKeys, filter_eq_of_asksAlike alike]
  intro term isSort
  have field : term.field = "sort" := of_decide_eq_true isSort
  simp [Term.IsPlaced, Term.kind, field]

theorem window?_eq_of_asksAlike (pageNumber : Option Int) :
    others.window? pageNumber = selector.window? pageNumber := by
  have last {name : String} (isName : name = "limit" ∨ name = "start") :
      others.lastValue? name = selector.lastValue? name := by
    rw [lastValue?, lastValue?, filter_eq_of_asksAlike alike]
    intro term isLast
    have field : term.field = name := of_decide_eq_true isLast
    rcases isName with rfl | rfl
    · simp [Term.IsPlaced, Term.kind, field]
    · simp [Term.IsPlaced, Term.kind, field]
  rw [window?, window?, last (.inl rfl), last (.inr rfl)]

theorem ofTerms_eq_of_asksAlike (catalog : Catalog) (used : List String) :
    Part.ofTerms catalog used others = Part.ofTerms catalog used selector := by
  induction alike generalizing used with
  | nil => rfl
  | cons first _ induction =>
      rw [Part.ofTerms, Part.ofTerms, first.ofTerm_eq]
      simp only [induction]

theorem compile_eq_of_asksAlike (catalog : Catalog) :
    others.compile catalog = selector.compile catalog := by
  have assembled : others.assemble catalog = selector.assemble catalog := by
    funext parts
    rw [assemble, assemble, sortKeys_eq_of_asksAlike alike, window?_eq_of_asksAlike alike]
  rw [compile, compile, ofTerms_eq_of_asksAlike alike, assembled]

theorem prepare_asksAlike (finder : Finder) (single : Bool) :
    List.Forall₂ Term.AsksAlike (finder.prepare selector single) (finder.prepare others single) := by
  have append {front back : Selector} (rest : Selector)
      (both : List.Forall₂ Term.AsksAlike front back) :
      List.Forall₂ Term.AsksAlike (front ++ rest) (back ++ rest) :=
    List.rel_append both (List.forall₂_same.2 fun _ _ => .refl)
  have numbers : others.statusNumbers = selector.statusNumbers := by
    rw [statusNumbers, statusNumbers, filter_eq_of_asksAlike alike]
    intro term status
    simp [Term.IsPlaced, Term.kind_of_isStatus status]
  have bounded : List.Forall₂ Term.AsksAlike (selector.withStatusBound single)
      (others.withStatusBound single) := by
    rw [withStatusBound, withStatusBound, statusBound?, statusBound?, numbers]
    apply append
    rw [List.forall₂_map_left_iff, List.forall₂_map_right_iff]
    exact alike.imp fun _ _ each => each.resolveStatus
  rw [Finder.prepare, Finder.prepare]
  cases finder.checkStatus with
  | true =>
      cases single with
      | true => exact append _ bounded
      | false => exact bounded
  | false =>
      cases single with
      | true => exact append _ alike
      | false => exact alike

end Selector

namespace Finder

/-- In any selector, negating paths and terms on the pages above changes nothing but the comment. -/
theorem find_eq_of_asksAlike {finder : Finder} (quiet : finder.debug = false)
    {selector others : Selector} (alike : List.Forall₂ Term.AsksAlike selector others)
    (catalog : Catalog) (engine : Engine) (single : Bool) :
    finder.find catalog engine others single = finder.find catalog engine selector single := by
  have same : finder.queryFor catalog others single = finder.queryFor catalog selector single := by
    rw [queryFor, queryFor, Selector.compile_eq_of_asksAlike
      (Selector.prepare_asksAlike alike finder single), quiet]
    rfl
  rw [find, find, same]

end Finder

/-! ### Finds -/

/-- Does the page stand at the place that the term asks for? -/
def Store.StandsAt (store : Store) (catalog : Catalog) (term : Term) (page : Page) : Prop :=
  match term.kind with
  | .path => store.LiesAt term.value page
  | _ => ∃ value ∈ term.values, store.SelectsByAncestor catalog value page

namespace Finder

section

variable {schema : Schema} {store : Store} (reached : Store.Reachable schema store)
  {finder : Finder} (unchecked : finder.checkStatus = false) {term : Term}
  (isPlaced : term.IsPlaced) (now : Date.Moment) (pageNumber : Option Int)

include reached unchecked isPlaced

theorem answers_placed
    (comment : finder.debug = true → isPlainComment term.text.toList = true) :
    finder.Answers (store.catalog schema now pageNumber) store [term] True
      (store.StandsAt (store.catalog schema now pageNumber) term) := by
  unfold Store.StandsAt
  rcases isPlaced with kind | kind
  · rw [kind]
    exact answers_path_liesAt reached unchecked kind comment _
  · have named : term.values.mapM (Term.ancestorId (store.catalog schema now pageNumber)) = _ :=
      Term.mapM_ancestorId store term
    rw [kind]
    exact answers_ancestors reached.nodup_ids unchecked (queryFor_ancestorsQuery unchecked kind named)
      comment kind

/-- The pages of a negated term on a place are those of the term itself. -/
theorem find_negated_place {text : String}
    (comment : finder.debug = true → isPlainComment term.text.toList = true)
    (commentToo : finder.debug = true → isPlainComment text.toList = true) :
    ∃ rows others,
      (finder.find (store.catalog schema now pageNumber) store.unboundedEngine [term] false).rows =
        .ok rows ∧
      (finder.find (store.catalog schema now pageNumber) store.unboundedEngine [term.negation text]
        false).rows = .ok others ∧
      store.Shows rows (store.StandsAt (store.catalog schema now pageNumber) term) ∧
      store.Shows others (store.StandsAt (store.catalog schema now pageNumber) term) ∧
      (finder.debug = false → others = rows) ∧
      ∀ selector ∈ [[term], [term.negation text]], ∀ query,
        finder.queryFor (store.catalog schema now pageNumber) selector false = .ok query →
        query.isWithinLimits = true → query.hasLongPattern = false →
          (finder.find (store.catalog schema now pageNumber) store.engine selector false).rows =
            (finder.find (store.catalog schema now pageNumber) store.unboundedEngine selector
              false).rows := by
  have alike : term.AsksAlike (term.negation text) := .placed isPlaced rfl rfl
  have isPlacedToo : (term.negation text).IsPlaced := isPlaced
  have plain := answers_placed reached unchecked isPlaced now pageNumber comment
  have negated := answers_placed reached unchecked isPlacedToo now pageNumber commentToo
  obtain ⟨rows, isRows⟩ := plain.succeeds.2 trivial
  obtain ⟨others, isOthers⟩ := negated.succeeds.2 trivial
  refine ⟨rows, others, isRows, isOthers, plain.shows rows isRows, negated.shows others isOthers,
    fun quiet => ?_, fun selector _ query compiled small short =>
      congrArg Found.rows (find_engine_eq compiled small short)⟩
  rw [find_eq_of_asksAlike quiet (.cons alike .nil), isRows] at isOthers
  exact (Except.ok.inj isOthers).symm

end

theorem find_negated_place_teamStore :
    ∃ term rows,
      Selector.read "path=/about" = .ok [term] ∧
      Selector.read "!path=/about" = .ok [term.negation "!path=/about"] ∧
      (anyStatus.find (teamStore.catalog titleSchema ⟨0, false⟩ none) teamStore.engine [term]
        false).rows = .ok rows ∧
      (anyStatus.find (teamStore.catalog titleSchema ⟨0, false⟩ none) teamStore.engine
        [term.negation "!path=/about"] false).rows = .ok rows ∧
      teamStore.Shows rows fun page => page.id = 2 := by
  let term : Term :=
    { fields := ["path"], values := ["/about"], operator := .equal, negated := false
      text := "path=/about" }
  have plain {text : String} (debug : anyStatus.debug = true) : isPlainComment text.toList = true :=
    absurd debug Bool.false_ne_true
  have one : (term.negation "!path=/about").kind = .path := rfl
  obtain ⟨rows, others, found, foundToo, shows, -, same, bounded⟩ :=
    find_negated_place Store.grown_teamStore.reachable (rfl : anyStatus.checkStatus = false)
      (.inl rfl : term.IsPlaced) ⟨0, false⟩ none plain plain
  obtain rfl := same rfl
  have lies : ∀ page ∈ teamStore.pages, teamStore.LiesAt "/about" page ↔ page.id = 2 := by decide
  refine ⟨term, others, rfl, rfl, ?_, ?_, shows.congr lies⟩
  · exact (bounded [term] (by simp) _ (queryFor_pathsQuery rfl (by decide) _) (by decide)
      (by decide)).trans found
  · exact (bounded _ (List.mem_cons_of_mem _ (List.mem_singleton_self _)) _
      (queryFor_pathsQuery rfl (List.forall_mem_singleton.2 one) _) (by decide)
      (by decide)).trans foundToo

end Finder

end PageTree
