import Mathlib.Data.List.Nodup
import PageTree.Proofs.Compile.Numbering
import PageTree.Proofs.Sql.Patterns

/-!
Relevance columns of compiled selectors. A term that looks for phrases in attached fields adds one
for each of its names and each of its values that is not empty, and no other term adds any. Main
statement: each column counts its value in the table of the member that stands for its name, and where
no field is named like another one with digits after it, no two members share an alias.
-/

namespace PageTree

open Sql Text

/-! ### Names with digits after them -/

namespace Schema

variable {schema : Schema}

/-- Is no field name another one with digits after it? -/
def HasUnnumberedNames (schema : Schema) : Prop :=
  ∀ field ∈ schema.fields, ∀ other ∈ schema.fields, ∀ digits : List Char,
    (∀ c ∈ digits, c.isDigit = true) →
      field.name.toList = other.name.toList ++ digits → digits = []

theorem HasApartNames.hasUnnumberedNames (apart : schema.HasApartNames) :
    schema.HasUnnumberedNames := by
  intro field isField other isOther digits all spelled
  by_cases same : field = other
  · rw [same] at spelled
    exact List.append_right_eq_self.1 spelled.symm
  · have symmetric : Std.Symm fun field other : Field => AreApart field.name other.name :=
      ⟨fun _ _ => AreApart.symm⟩
    have continued : continuesByDigits field.name other.name = true := by
      apply continuesByDigits_iff.2
      refine ⟨digits, all, ?_⟩
      have same : field.name = other.name ++ String.ofList digits := by
        rw [← String.toList_inj, spelled, String.toList_append, String.toList_ofList]
      rw [same, toList_foldName_append, toList_foldName_ofDigits all]
    have names := List.Pairwise.forall apart isField isOther same
    rw [names.left] at continued
    cases continued

variable (default : schema.HasDefaultTables) (unnumbered : schema.HasUnnumberedNames)

include default unnumbered

theorem append_aliasDigits_ne {table other : String} (isTable : table ∈ schema.joinedTables)
    (isOther : other ∈ schema.joinedTables) (different : table ≠ other) (n m : Nat) :
    table.toList ++ aliasDigits n ≠ other.toList ++ aliasDigits m := by
  intro same
  have default (field : Field) (isField : field ∈ schema.fields) :
      field.table.toList = "field_".toList ++ field.name.toList := by
    rw [default field isField, defaultTable, String.toList_append]
  have parents : "pages_parents".toList.head? = some 'p' := by decide
  rcases List.mem_cons.1 isTable with rfl | ofField
  · rcases List.mem_cons.1 isOther with rfl | ofOther
    · exact different rfl
    · obtain ⟨field, isField, rfl⟩ := List.mem_map.1 ofOther
      rw [default field isField] at same
      exact absurd (congrArg List.head? same) (by simp)
  · obtain ⟨field, isField, rfl⟩ := List.mem_map.1 ofField
    rcases List.mem_cons.1 isOther with rfl | ofOther
    · rw [default field isField] at same
      exact absurd (congrArg List.head? same) (by simp)
    · obtain ⟨another, isAnother, rfl⟩ := List.mem_map.1 ofOther
      rw [default field isField, default another isAnother, List.append_assoc, List.append_assoc,
        List.append_cancel_left_eq] at same
      apply different
      apply String.toList_inj.1
      rw [default field isField, default another isAnother]
      rcases List.append_eq_append_iff.1 same with ⟨rest, spelled, later⟩ | ⟨rest, spelled, later⟩
      · rw [unnumbered another isAnother field isField rest
          (fun c member => isDigit_of_mem_aliasDigits (later ▸ List.mem_append_left _ member))
          spelled] at spelled
        rw [spelled, List.append_nil]
      · rw [unnumbered field isField another isAnother rest
          (fun c member => isDigit_of_mem_aliasDigits (later ▸ List.mem_append_left _ member))
          spelled] at spelled
        rw [spelled, List.append_nil]

end Schema

theorem Part.nodup_aliasNames {catalog : Catalog} (default : catalog.schema.HasDefaultTables)
    (unnumbered : catalog.schema.HasUnnumberedNames) {selector : Selector} {parts : List Part}
    (compiled : Part.ofTerms catalog [] selector = .ok parts) :
    ((parts.flatMap Part.members).map fun entry => entry.2.aliasName).Nodup := by
  have areNumbered := Part.areNumbered_of_ofTerms compiled
  have among := ((Part.sublist_places parts).trans areNumbered.places).map Prod.snd
  rw [map_snd_numbered, List.map_map] at among
  have nodup : ((nextAliases [] (parts.flatMap Part.used)).map String.toList).Nodup :=
    nodup_map_nextAliases toList_nextAlias fun table isTable other isOther =>
      Schema.append_aliasDigits_ne default unnumbered (areNumbered.tables table isTable)
        (areNumbered.tables other isOther)
  exact nodup.of_map.sublist among

/-! ### Groups of members -/

namespace MemberGroup

theorem mem_of_mem_head_ofRuns {text : String} {first : Member} {rest : List (String × Member)}
    {group : MemberGroup} {groups : List MemberGroup}
    (runs : ofRuns ((text, first) :: rest) = group :: groups) :
    ∀ member ∈ group, (text, member) ∈ (text, first) :: rest := by
  induction rest generalizing text first group groups with
  | nil =>
      cases runs
      simp
  | cons entry rest induction =>
      obtain ⟨next, second⟩ := entry
      obtain ⟨other, others, later⟩ :=
        List.exists_cons_of_ne_nil (ofRuns_ne_nil (List.cons_ne_nil (next, second) rest))
      rw [ofRuns_cons later] at runs
      split at runs
      · next same =>
        obtain ⟨rfl, -⟩ := List.cons.inj runs
        subst same
        intro member isMember
        rcases List.mem_cons.1 isMember with rfl | among
        · exact List.mem_cons_self
        · exact List.mem_cons_of_mem _ (induction later member among)
      · obtain ⟨rfl, -⟩ := List.cons.inj runs
        simp

theorem exists_mem_ofRuns {entries : List (String × Member)} {text : String} {member : Member}
    (isEntry : (text, member) ∈ entries) : ∃ group ∈ ofRuns entries, member ∈ group := by
  rw [← List.mem_flatten, flatten_ofRuns]
  exact List.mem_map_of_mem isEntry

/-- A group has one text. -/
theorem exists_text_of_mem_ofRuns {entries : List (String × Member)} {group : MemberGroup}
    (isGroup : group ∈ ofRuns entries) :
    ∃ text, ∀ member ∈ group, (text, member) ∈ entries := by
  induction entries with
  | nil => cases isGroup
  | cons entry rest induction =>
      obtain ⟨text, first⟩ := entry
      obtain ⟨head, tail, runs⟩ :=
        List.exists_cons_of_ne_nil (ofRuns_ne_nil (List.cons_ne_nil (text, first) rest))
      rw [runs] at isGroup
      rcases List.mem_cons.1 isGroup with rfl | later
      · exact ⟨text, mem_of_mem_head_ofRuns runs⟩
      · have kept : group ∈ ofRuns rest := by
          cases rest with
          | nil =>
              cases runs
              cases later
          | cons entry rest =>
              obtain ⟨next, second⟩ := entry
              obtain ⟨other, others, after⟩ :=
                List.exists_cons_of_ne_nil (ofRuns_ne_nil (List.cons_ne_nil (next, second) rest))
              rw [ofRuns_cons after] at runs
              rw [after]
              split at runs
              · obtain ⟨-, rfl⟩ := List.cons.inj runs
                exact List.mem_cons_of_mem _ later
              · obtain ⟨-, rfl⟩ := List.cons.inj runs
                exact later
        obtain ⟨other, all⟩ := induction kept
        exact ⟨other, fun member isMember => List.mem_cons_of_mem _ (all member isMember)⟩

end MemberGroup

/-! ### Searches -/

/-- A value that a term looks for in the field with a name. -/
structure Search where
  term : Term
  name : String
  value : String

namespace Term

def searches (term : Term) : List Search :=
  if term.kind = .attached ∧ term.operator = .containsPhrase then
    term.fields.flatMap fun name =>
      (term.values.filter fun value => value ≠ "").map fun value => { term, name, value }
  else []

theorem mem_searches_iff {term : Term} {search : Search} :
    search ∈ term.searches ↔
      (term.kind = .attached ∧ term.operator = .containsPhrase) ∧ search.term = term ∧
        search.name ∈ term.fields ∧ search.value ∈ term.values ∧ search.value ≠ "" := by
  rw [searches]
  split
  · next ranks =>
    simp only [List.mem_flatMap, List.mem_map, List.mem_filter, decide_eq_true_eq]
    constructor
    · rintro ⟨name, isName, value, ⟨isValue, filled⟩, rfl⟩
      exact ⟨ranks, rfl, isName, isValue, filled⟩
    · rintro ⟨-, rfl, isName, isValue, filled⟩
      exact ⟨search.name, isName, search.value, ⟨isValue, filled⟩, rfl⟩
  · next other => simp [other]

end Term

/-- What a selector ranks pages by. -/
def Selector.searches (selector : Selector) : List Search :=
  selector.flatMap Term.searches

theorem Selector.mem_searches_iff {selector : Selector} {search : Search} :
    search ∈ selector.searches ↔
      search.term ∈ selector ∧ search.term.kind = .attached ∧
        search.term.operator = .containsPhrase ∧ search.name ∈ search.term.fields ∧
          search.value ∈ search.term.values ∧ search.value ≠ "" := by
  simp only [searches, List.mem_flatMap, Term.mem_searches_iff]
  constructor
  · rintro ⟨term, isTerm, ⟨kind, phrase⟩, rfl, rest⟩
    exact ⟨isTerm, kind, phrase, rest⟩
  · rintro ⟨isTerm, kind, phrase, rest⟩
    exact ⟨search.term, isTerm, ⟨kind, phrase⟩, rfl, rest⟩

/-- What a term has to be like for its scores to be counts. -/
structure Term.Counts (term : Term) : Prop where
  filters : term.IsAttachedFilter
  noNull : ∀ value ∈ term.values, '\x00' ∉ value.toList

namespace Member

variable {now : Date.Moment} {kind : FieldKind} {target : Column} {value : String} {found : Branch}

theorem branch_containsPhrase (branched : branch now kind target .containsPhrase value = .ok found) :
    found = .tests
      { tests := [.contains target value]
        scores := if value = "" then [] else [⟨target, dropNulls value⟩] } := by
  have asks : asksForRow target.name .containsPhrase value = false := by
    simp [asksForRow, Operator.isEquality]
  rw [branch, asks, if_neg Bool.false_ne_true] at branched
  obtain ⟨matching, matched, rfl⟩ := map_eq_ok.1 branched
  have isMatching := FieldKind.matching_eq_ok matched
  cases kind with
  | text | textarea =>
      cases isMatching
      rfl
  | integer | page => cases isMatching
  | datetime =>
      unfold FieldKind.matching? at isMatching
      dsimp only at isMatching
      split at isMatching <;> cases isMatching

theorem scores_of_ne {operator : Operator} (other : operator ≠ .containsPhrase)
    (branched : branch now kind target operator value = .ok found) : found.scores = [] := by
  have compared {relation : Option Relation} {right : Operand} {matching : Matching}
      (compiled : FieldKind.compareWith target relation right = some matching) :
      matching.scores = [] := by
    obtain ⟨given, -, rfl⟩ := Option.map_eq_some_iff.1 compiled
    rfl
  have text {matching : Matching}
      (compiled : FieldKind.matchText target operator value = some matching) :
      matching.scores = [] := by
    cases operator with
    | containsPhrase => exact absurd rfl other
    | containsWords | like | startsWith | endsWith =>
        cases compiled
        rfl
    | _ => exact compared compiled
  unfold branch at branched
  split at branched
  · cases branched
    rfl
  · obtain ⟨matching, matched, rfl⟩ := map_eq_ok.1 branched
    have isMatching := FieldKind.matching_eq_ok matched
    cases kind with
    | text | textarea => exact text isMatching
    | integer | page => exact compared isMatching
    | datetime =>
        unfold FieldKind.matching? at isMatching
        dsimp only at isMatching
        split at isMatching
        · exact compared isMatching
        · obtain ⟨-, -, rfl⟩ := Option.map_eq_some_iff.1 isMatching
          rfl

theorem flatMap_scores_of_branched {values : List String} {branches : List Branch}
    (noNull : ∀ value ∈ values, '\x00' ∉ value.toList)
    (each : List.Forall₂ (fun value found =>
      branch now kind target .containsPhrase value = .ok found) values branches) :
    branches.flatMap Branch.scores =
      (values.filter fun value => value ≠ "").map fun value => ⟨target, value⟩ := by
  induction each with
  | nil => rfl
  | @cons value branch values branches first rest induction =>
      rw [List.forall_mem_cons] at noNull
      rw [List.flatMap_cons, induction noNull.2, branch_containsPhrase first, Branch.scores,
        dropNulls_eq_self noNull.1]
      by_cases empty : value = ""
      · simp [empty]
      · simp [empty]

/-! ### Contributions -/

variable {catalog : Catalog} {term : Term} {name : String}

theorem exists_scores_of_contribution {used : List String} {found : Contribution}
    (noNull : ∀ value ∈ term.values, '\x00' ∉ value.toList)
    (phrase : term.operator = .containsPhrase)
    (compiled : contribution catalog used term name = .ok found) :
    ∃ target, found.scores =
      (term.values.filter fun value => value ≠ "").map fun value => ⟨target, value⟩ := by
  simp only [contribution] at compiled
  split at compiled
  · cases compiled
  obtain ⟨kind, -, compiled⟩ := bind_eq_ok.1 compiled
  obtain ⟨branches, each, equality⟩ := bind_eq_ok.1 compiled
  cases equality
  rw [mapM_eq_ok, phrase] at each
  exact ⟨_, flatMap_scores_of_branched noNull each⟩

theorem scores_of_contribution_of_ne {used : List String} {found : Contribution}
    (other : term.operator ≠ .containsPhrase)
    (compiled : contribution catalog used term name = .ok found) : found.scores = [] := by
  simp only [contribution] at compiled
  split at compiled
  · cases compiled
  obtain ⟨kind, -, compiled⟩ := bind_eq_ok.1 compiled
  obtain ⟨branches, each, equality⟩ := bind_eq_ok.1 compiled
  cases equality
  apply List.flatMap_eq_nil_iff.2
  intro branch isBranch
  obtain ⟨value, -, branched⟩ := exists_of_mem_forall₂ (mapM_eq_ok.1 each) isBranch
  exact scores_of_ne other branched

end Member

/-- The column counts the value in the table of a member that stands for the name. -/
def Search.IsCountedBy (catalog : Catalog) (entries : List (String × Member)) (search : Search)
    (score : Score) : Prop :=
  ∃ member, (search.term.text, member) ∈ entries ∧
    member.StandsFor catalog search.term search.name ∧ score = ⟨member.data, search.value⟩

theorem Search.IsCountedBy.mono {catalog : Catalog} {entries more : List (String × Member)}
    {search : Search} {score : Score} (counted : search.IsCountedBy catalog entries score)
    (larger : entries ⊆ more) : search.IsCountedBy catalog more score := by
  obtain ⟨member, isEntry, stands, same⟩ := counted
  exact ⟨member, larger isEntry, stands, same⟩

namespace Member

variable {catalog : Catalog} {term : Term}

theorem forall₂_isCountedBy_of_contributions (counts : term.Counts)
    (phrase : term.operator = .containsPhrase) {names used : List String}
    (among : ∀ name ∈ names, name ∈ term.fields) {found : List Contribution}
    (compiled : contributions catalog term used names = .ok found) :
    List.Forall₂
      (Search.IsCountedBy catalog
        ((found.filterMap Contribution.member).map fun member => (term.text, member)))
      (names.flatMap fun name =>
        (term.values.filter fun value => value ≠ "").map fun value => { term, name, value })
      (found.flatMap Contribution.scores) := by
  induction names generalizing used found with
  | nil =>
      cases compiled
      exact .nil
  | cons name names induction =>
      rw [contributions] at compiled
      obtain ⟨first, isFirst, compiled⟩ := bind_eq_ok.1 compiled
      obtain ⟨rest, areRest, equality⟩ := bind_eq_ok.1 compiled
      cases equality
      rw [List.forall_mem_cons] at among
      rw [List.flatMap_cons, List.flatMap_cons]
      refine List.rel_append ?_ ?_
      · obtain ⟨target, scores⟩ := exists_scores_of_contribution counts.noNull phrase isFirst
        rw [scores, List.forall₂_map_left_iff, List.forall₂_map_right_iff, List.forall₂_same]
        intro value member
        have valued : term.values ≠ [] := List.ne_nil_of_mem (List.mem_filter.1 member).1
        obtain ⟨given, gives⟩ := exists_of_contribution counts.filters valued among.1 isFirst
        refine ⟨given, ?_, gives.stands, ?_⟩
        · rw [List.filterMap_cons, gives.given]
          exact List.mem_cons_self
        · rw [← gives.scores ⟨target, value⟩ (scores ▸ List.mem_map.2 ⟨value, member, rfl⟩)]
      · refine (induction among.2 areRest).imp fun search score counted => counted.mono ?_
        apply List.map_subset
        rw [List.filterMap_cons]
        split
        · exact List.Subset.refl _
        · exact List.subset_cons_self ..

theorem scores_of_contributions_of_ne (other : term.operator ≠ .containsPhrase)
    {names used : List String} {found : List Contribution}
    (compiled : contributions catalog term used names = .ok found) :
    found.flatMap Contribution.scores = [] := by
  induction names generalizing used found with
  | nil =>
      cases compiled
      rfl
  | cons name names induction =>
      rw [contributions] at compiled
      obtain ⟨first, isFirst, compiled⟩ := bind_eq_ok.1 compiled
      obtain ⟨rest, areRest, equality⟩ := bind_eq_ok.1 compiled
      cases equality
      rw [List.flatMap_cons, scores_of_contribution_of_ne other isFirst, induction areRest]
      rfl

theorem exists_standsFor_of_contributions {names used : List String}
    (filters : term.IsAttachedFilter) (valued : term.values ≠ [])
    (among : ∀ name ∈ names, name ∈ term.fields) {found : List Contribution}
    (compiled : contributions catalog term used names = .ok found) {member : Member}
    (isMember : member ∈ found.filterMap Contribution.member) :
    ∃ name ∈ names, member.StandsFor catalog term name := by
  obtain ⟨members, same, -, stand, -⟩ := exists_of_contributions filters valued among compiled
  exact exists_of_mem_forall₂ stand (same ▸ isMember)

end Member

/-! ### Parts -/

namespace Part

variable {catalog : Catalog} {used : List String}

theorem forall₂_isCountedBy_of_ofTerm {term : Term}
    (counts : term.kind = .attached → term.operator = .containsPhrase → term.Counts) {part : Part}
    (compiled : ofTerm catalog used term = .ok part) :
    List.Forall₂ (Search.IsCountedBy catalog part.members) term.searches part.scores := by
  have silent (other : term.kind ≠ .attached) : term.searches = [] := if_neg fun ranks => other ranks.1
  unfold ofTerm at compiled
  split at compiled
  · next kind =>
    cases compiled
    exact silent (by simp [kind]) ▸ .nil
  · next kind =>
    cases compiled
    exact silent (by simp [kind]) ▸ .nil
  · next kind =>
    cases compiled
    exact silent (by simp [kind]) ▸ .nil
  · next kind =>
    obtain ⟨ids, -, equality⟩ := bind_eq_ok.1 compiled
    cases equality
    exact silent (by simp [kind]) ▸ .nil
  · next kind =>
    obtain ⟨filter, -, equality⟩ := bind_eq_ok.1 compiled
    cases equality
    exact silent (by simp [kind]) ▸ .nil
  · next kind =>
    obtain ⟨found, contributed, equality⟩ := bind_eq_ok.1 compiled
    cases equality
    by_cases phrase : term.operator = .containsPhrase
    · rw [Term.searches, if_pos ⟨kind, phrase⟩]
      exact Member.forall₂_isCountedBy_of_contributions (counts kind phrase) phrase
        (fun _ isName => isName) contributed
    · rw [Term.searches, if_neg fun ranks => phrase ranks.2, ofContributions,
        Member.scores_of_contributions_of_ne phrase contributed]
      exact .nil

/-- The relevance columns of a selector are counts of what it looks for, in the order written. -/
theorem forall₂_isCountedBy_of_ofTerms {selector : Selector}
    (counts : ∀ term ∈ selector, term.kind = .attached → term.operator = .containsPhrase →
      term.Counts) {parts : List Part} (compiled : ofTerms catalog used selector = .ok parts) :
    List.Forall₂ (Search.IsCountedBy catalog (parts.flatMap Part.members)) selector.searches
      (parts.flatMap Part.scores) := by
  induction selector generalizing used parts with
  | nil =>
      cases compiled
      exact .nil
  | cons term terms induction =>
      rw [ofTerms] at compiled
      obtain ⟨first, isFirst, compiled⟩ := bind_eq_ok.1 compiled
      obtain ⟨rest, areRest, equality⟩ := bind_eq_ok.1 compiled
      cases equality
      rw [List.forall_mem_cons] at counts
      rw [Selector.searches, List.flatMap_cons, List.flatMap_cons, List.flatMap_cons]
      refine List.rel_append ?_ ?_
      · refine (forall₂_isCountedBy_of_ofTerm counts.1 isFirst).imp fun search score counted => ?_
        exact counted.mono (List.subset_append_left ..)
      · refine (induction counts.2 areRest).imp fun search score counted => ?_
        exact counted.mono (List.subset_append_right ..)

/-- Every member is one of a term on attached fields. -/
theorem exists_term_of_mem_members {selector : Selector} {parts : List Part}
    (compiled : ofTerms catalog used selector = .ok parts) {entry : String × Member}
    (isEntry : entry ∈ parts.flatMap Part.members) :
    ∃ term ∈ selector, entry.1 = term.text ∧ term.kind = .attached ∧
      (term.IsAttachedFilter → term.values ≠ [] →
        ∃ name ∈ term.fields, entry.2.StandsFor catalog term name) := by
  obtain ⟨part, isPart, isMember⟩ := List.mem_flatMap.1 isEntry
  obtain ⟨before, term, isTerm, gives⟩ := exists_term_of_mem compiled isPart
  unfold ofTerm at gives
  split at gives
  case h_6 kind =>
    obtain ⟨found, contributed, equality⟩ := bind_eq_ok.1 gives
    cases equality
    obtain ⟨member, among, rfl⟩ := List.mem_map.1 isMember
    refine ⟨term, isTerm, rfl, kind, fun filters valued => ?_⟩
    exact Member.exists_standsFor_of_contributions filters valued (fun _ isName => isName)
      contributed among
  case h_1 | h_2 | h_3 =>
    cases gives
    cases isMember
  case h_4 | h_5 =>
    obtain ⟨_, -, equality⟩ := bind_eq_ok.1 gives
    cases equality
    cases isMember

/-- Where no two terms share a text, the members of a term on one field stand for no other one. -/
theorem standsFor_of_mem_ofRuns (default : catalog.schema.HasDefaultTables)
    (unnumbered : catalog.schema.HasUnnumberedNames) {selector : Selector} {parts : List Part}
    (compiled : ofTerms catalog [] selector = .ok parts) {term : Term}
    (own : ∀ other ∈ selector, other.kind = .attached → other.text = term.text → other = term)
    (filters : term.IsAttachedFilter) (valued : term.values ≠ []) {name : String}
    (names : term.fields = [name]) {member : Member}
    (isEntry : (term.text, member) ∈ parts.flatMap Part.members) {group : MemberGroup}
    (isGroup : group ∈ MemberGroup.ofRuns (parts.flatMap Part.members))
    (isMember : member ∈ group) {other : Member} (isOther : other ∈ group) :
    other.StandsFor catalog term name := by
  obtain ⟨text, entries⟩ := MemberGroup.exists_text_of_mem_ofRuns isGroup
  have same := List.inj_on_of_nodup_map (nodup_aliasNames default unnumbered compiled) isEntry
    (entries member isMember) rfl
  have shared : term.text = text := congrArg Prod.fst same
  obtain ⟨another, isAnother, spelled, kind, stand⟩ :=
    exists_term_of_mem_members compiled (entries other isOther)
  obtain rfl := own another isAnother kind (spelled.symm.trans shared.symm)
  obtain ⟨called, isCalled, stands⟩ := stand filters valued
  rw [names, List.mem_singleton] at isCalled
  exact isCalled ▸ stands

end Part

end PageTree
