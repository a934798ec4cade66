import PageTree.Proofs.Finder.Complement

/-!
Terms that are repeated. A term on attached fields that is asked for twice gets two members for each
name, and they are alternatives: what was one join that drops rows becomes joins that keep rows, and
a filter. Main statement: a term that is repeated selects what it selected before, unless it denies
values of a date field that are no dates.
-/

namespace PageTree

open Sql Text

/-! ### The lack of a row -/

namespace Member

variable {now : Date.Moment} {kind : FieldKind} {target : Column} {operator : Operator}
  {value : String} {found : Branch}

/-- Without a value in its column, only a value that is no date lets a condition fail. -/
theorem normalize?_of_missing (branched : branch now kind target operator value = .ok found)
    (filled : found.isBlank = false) {affinity : String → Affinity} {values : String → Value}
    (missing : values target.name = .null) {filter : Filter} (isFilter : filter ∈ found.filters)
    (no : filter.eval (Test.truthOf affinity values) = .no) :
    kind = .datetime ∧ Date.normalize? now value = none ∧
      asksForRow target.name operator value = false := by
  unfold branch at branched
  split at branched
  · cases branched
    cases filled
  next given =>
  obtain ⟨matching, matched, rfl⟩ := map_eq_ok.1 branched
  have compiled := FieldKind.matching_eq_ok matched
  rw [Branch.filters] at isFilter
  split at isFilter
  · simp at isFilter
  rw [List.mem_singleton.1 isFilter, Condition.eval_conj] at no
  obtain ⟨truth, isTruth, fails⟩ := Truth.exists_of_all_eq_no no
  rw [List.map_map] at isTruth
  obtain ⟨test, isTest, rfl⟩ := List.mem_map.1 isTruth
  have isOn := (FieldKind.isOn_matching? compiled).tests test isTest
  have unknown : test.truthOf affinity values = .unknown ∨ test = .never :=
    isOn.truth_null missing
  rcases unknown with unknown | rfl
  · cases unknown.symm.trans fails
  · obtain ⟨dates, none⟩ := FieldKind.normalize?_of_never compiled isTest
    exact ⟨dates, none, Bool.eq_false_iff.2 given⟩

theorem filters_ne_nil_of_datetime
    (branched : branch now .datetime target operator value = .ok found) : found.filters ≠ [] := by
  intro untested
  obtain ⟨rfl, -⟩ := (filters_eq_nil_iff branched).1 untested
  have given : asksForRow target.name .containsWords value = false := by
    simp [asksForRow, Operator.isEquality]
  have unmatched : FieldKind.datetime.matching? now target .containsWords value = none := by
    simp only [FieldKind.matching?]
    split <;> rfl
  rw [branch, if_neg (Bool.eq_false_iff.1 given), FieldKind.matching, unmatched] at branched
  cases branched

end Member

/-- A negated term on one field of dates, none of whose values is a date. It holds where there is no
row, and a join that drops rows asks for one. -/
def Term.DeniesNonDates (catalog : Catalog) (term : Term) : Prop :=
  term.negated = true ∧ ∃ name field, term.fields = [name] ∧
    catalog.schema.field? (Member.splitName name).1 = some field ∧ field.kind? = .ok .datetime ∧
    ∀ value ∈ term.values, Date.normalize? catalog.now value = none ∧
      Member.asksForRow (Member.splitName name).2 term.operator value = false

/-- A negated condition holds only where every branch denies. -/
theorem Member.IsFor.eval_eq_no {catalog : Catalog} {term : Term} {name : String} {field : Field}
    {kind : FieldKind} {branches : List Branch} {member : Member}
    (isFor : member.IsFor catalog term name field kind branches) (negated : term.negated = true)
    {table : FieldTable} {row : Option FieldRow} (yes : member.truthIn table row = .yes) :
    ∀ filter ∈ branches.flatMap Branch.filters,
      filter.eval (Test.truthOf table.affinityOf (table.valueIn row)) = .no := by
  have fails : (Condition.disj (branches.flatMap Branch.filters)).eval
      (Test.truthOf table.affinityOf (table.valueIn row)) = .no := by
    rw [truthIn, isFor.condition, negated] at yes
    cases truth : (Condition.disj (branches.flatMap Branch.filters)).eval
      (Test.truthOf table.affinityOf (table.valueIn row)) with
    | no => rfl
    | unknown => simp [Condition.negateIf, Condition.eval, truth, Truth.not] at yes
    | yes => simp [Condition.negateIf, Condition.eval, truth, Truth.not] at yes
  rw [Condition.eval_disj, Truth.any_eq_no_iff, List.forall_mem_map] at fails
  exact fails

namespace Member.StandsByName

variable {catalog : Catalog} {term : Term} {name : String} {member : Member}
  (stands : member.StandsByName catalog term name)

include stands

theorem deniesNonDates (asks : term.asks = true) (lone : term.fields = [name])
    (filled : member.blank = false) {table : FieldTable}
    (yes : member.truthIn table none = .yes) : term.DeniesNonDates catalog := by
  obtain ⟨field, kind, branches, isFor⟩ := stands
  have negated : term.negated = true := by
    by_contra positive
    have blank := isFor.blank_of_isYes (Bool.eq_false_iff.2 positive) rfl (Truth.isYes_iff.2 yes)
    rw [filled] at blank
    cases blank
  have no := isFor.eval_eq_no negated yes
  have notBlank : ∀ found ∈ branches, found.isBlank = false := by
    have none := isFor.blank.symm.trans filled
    rw [List.any_eq_false] at none
    exact fun found isFound => Bool.eq_false_iff.2 (none found isFound)
  have each {value : String} {found : Branch} (isFound : found ∈ branches)
      (branched : branch catalog.now kind (member.column name) term.operator value = .ok found)
      {filter : Filter} (isFilter : filter ∈ found.filters) :=
    normalize?_of_missing branched (notBlank found isFound) rfl isFilter
      (no filter (List.mem_flatMap.2 ⟨found, isFound, isFilter⟩))
  -- Some value adds a condition, which tells the kind of the field; then all values do.
  have dates : kind = .datetime := by
    have some : branches.flatMap Branch.filters ≠ [] := by
      rw [ne_eq, ← List.isEmpty_iff, isEmpty_flatMap_filters isFor.branched, asks]
      decide
    obtain ⟨filter, isFilter⟩ := List.exists_mem_of_ne_nil _ some
    obtain ⟨found, isFound, among⟩ := List.mem_flatMap.1 isFilter
    obtain ⟨value, -, branched⟩ := exists_of_mem_forall₂ isFor.branched isFound
    exact (each isFound branched among).1
  subst dates
  refine ⟨negated, name, field, lone, isFor.isField, isFor.isKind, fun value isValue => ?_⟩
  obtain ⟨found, isFound, branched⟩ := exists_of_mem_left_forall₂ isFor.branched isValue
  obtain ⟨filter, isFilter⟩ := List.exists_mem_of_ne_nil _ (filters_ne_nil_of_datetime branched)
  exact (each isFound branched isFilter).2

end Member.StandsByName

/-! ### Groups -/

namespace Store

variable {store : Store} {catalog : Catalog} {term : Term} {members again : List Member}
  (stand : List.Forall₂ (Member.StandsByName catalog term) term.fields members)
  (standToo : List.Forall₂ (Member.StandsByName catalog term) term.fields again)

include stand standToo

theorem forall_fits_again_iff (text : String) (front : List (String × Member)) :
    (∀ member ∈ (MemberGroup.ofRuns
        (front ++ (members ++ again).map fun member => (text, member))).flatten,
      store.Fits member) ↔
    ∀ member ∈ (MemberGroup.ofRuns (front ++ members.map fun member => (text, member))).flatten,
      store.Fits member := by
  have fits_again (fits : ∀ member ∈ members, store.Fits member) :
      ∀ member ∈ again, store.Fits member := by
    intro member isMember
    obtain ⟨name, isName, stands⟩ := exists_of_mem_forall₂ standToo isMember
    obtain ⟨other, isOther, standsToo⟩ := exists_of_mem_left_forall₂ stand isName
    exact standsToo.fits stands (fits other isOther)
  simp only [MemberGroup.flatten_ofRuns, List.map_append, List.map_map, List.forall_mem_append,
    List.forall_mem_map]
  exact and_congr_right fun _ => ⟨And.left, fun fits => ⟨fits, fits_again fits⟩⟩

theorem isLone_append_again (nonempty : members ≠ []) (group : MemberGroup) :
    MemberGroup.isLone (group ++ (members ++ again)) = false := by
  refine Bool.eq_false_iff.2 fun lone => ?_
  obtain ⟨sole, whole, -⟩ := MemberGroup.isLone_iff.1 lone
  have lengths := congrArg List.length whole
  have some := List.length_pos_iff.2 nonempty
  have same := stand.length_eq.symm.trans standToo.length_eq
  rw [List.length_append, List.length_append, List.length_singleton] at lengths
  omega

omit standToo in
/-- A member picks the same pages whether or not it is its group's only one. -/
theorem picks_iff_of_not_denies (nonempty : members ≠ []) (asks : term.asks = true)
    (denies : ¬ term.DeniesNonDates catalog) {group : MemberGroup} {member : Member}
    (isMember : member ∈ group ++ members) {table : FieldTable} {page : Page} :
    member.Picks false table page ↔
      member.Picks (MemberGroup.isLone (group ++ members)) table page := by
  cases lone : MemberGroup.isLone (group ++ members) with
  | false => exact Iff.rfl
  | true =>
      obtain ⟨sole, whole, filled⟩ := MemberGroup.isLone_iff.1 lone
      obtain ⟨rfl, rfl⟩ : group = [] ∧ members = [sole] :=
        (List.append_eq_singleton_iff.1 whole).resolve_right fun other => nonempty other.2
      obtain rfl := List.mem_singleton.1 isMember
      obtain ⟨name, names, stands, none, fields⟩ := List.forall₂_cons_right_iff.1 stand
      rw [List.forall₂_nil_right_iff.1 none] at fields
      constructor
      · rintro (finds | ⟨-, yes, -⟩)
        · exact .inl finds
        · exact absurd (stands.deniesNonDates asks fields filled yes) denies
      · exact fun picks => .inl (picks.resolve_right fun lack => Bool.noConfusion lack.1)

/-- More members for the same names select nothing more. -/
theorem selects_again_iff (nonempty : members ≠ []) (asks : term.asks = true)
    (denies : ¬ term.DeniesNonDates catalog) (group : MemberGroup) (page : Page) :
    store.Selects (group ++ (members ++ again)) page ↔ store.Selects (group ++ members) page := by
  have several := isLone_append_again stand standToo nonempty group
  have picks_iff {member : Member} (isMember : member ∈ group ++ members) {table : FieldTable} :
      member.Picks false table page ↔
        member.Picks (MemberGroup.isLone (group ++ members)) table page :=
    picks_iff_of_not_denies stand nonempty asks denies isMember
  constructor
  · rintro ⟨member, isMember, table, found, picks⟩
    rw [several] at picks
    rw [← List.append_assoc] at isMember
    rcases List.mem_append.1 isMember with here | repeated
    · exact ⟨member, here, table, found, (picks_iff here).1 picks⟩
    · obtain ⟨name, isName, stands⟩ := exists_of_mem_forall₂ standToo repeated
      obtain ⟨other, isOther, standsToo⟩ := exists_of_mem_left_forall₂ stand isName
      have here := List.mem_append_right group isOther
      exact ⟨other, here, table, (stands.isAlike standsToo).1 ▸ found,
        (picks_iff here).1 (stands.picks standsToo picks)⟩
  · rintro ⟨member, isMember, table, found, picks⟩
    refine ⟨member, ?_, table, found, several ▸ (picks_iff isMember).2 picks⟩
    rw [← List.append_assoc]
    exact List.mem_append_left _ isMember

theorem forall_selects_again_iff (asks : term.asks = true)
    (denies : ¬ term.DeniesNonDates catalog) (text : String) (front : List (String × Member))
    (page : Page) :
    (∀ group ∈ MemberGroup.ofRuns (front ++ (members ++ again).map fun member => (text, member)),
      store.Selects group page) ↔
    ∀ group ∈ MemberGroup.ofRuns (front ++ members.map fun member => (text, member)),
      store.Selects group page := by
  by_cases nonempty : members = []
  · have none : again = [] := by
      rw [nonempty, List.forall₂_nil_right_iff] at stand
      rwa [stand, List.forall₂_nil_left_iff] at standToo
    rw [none, List.append_nil]
  · obtain ⟨groups, group, runs⟩ := MemberGroup.exists_ofRuns_append text front
    have more : members ++ again ≠ [] := fun none => nonempty (List.append_eq_nil_iff.1 none).1
    rw [runs members nonempty, runs _ more, List.forall_mem_append, List.forall_mem_append,
      List.forall_mem_singleton, List.forall_mem_singleton]
    exact and_congr_right fun _ =>
      selects_again_iff stand standToo nonempty asks denies group page

end Store

/-! ### Finds -/

/-- A selector that compiles does so with its last term repeated, and that adds members once more. -/
theorem Part.exists_ofTerms_repeated {catalog : Catalog} {selector : Selector} {term : Term}
    (attached : term.kind = .attached) {parts : List Part}
    (compiled : ofTerms catalog [] (selector ++ [term]) = .ok parts) :
    ∃ front part last members again, parts = front ++ [part] ∧
      ofTerms catalog [] (selector ++ [term, term]) = .ok (front ++ [part, last]) ∧
      part.IsAttached catalog term members ∧ last.IsAttached catalog term again := by
  obtain ⟨front, rest, isFront, isRest, rfl⟩ := ofTerms_append_eq_ok.1 compiled
  obtain ⟨part, isPart, isRest⟩ := bind_eq_ok.1 isRest
  cases isRest
  obtain ⟨last, isLast⟩ := exists_ofTerm_again attached isPart (front.flatMap Part.used ++ part.used)
  have compiledToo : ofTerms catalog [] (selector ++ [term, term]) = .ok (front ++ [part, last]) :=
    ofTerms_append_eq_ok.2 ⟨front, [part, last], isFront,
      bind_eq_ok.2 ⟨part, isPart, bind_eq_ok.2 ⟨[last], bind_eq_ok.2 ⟨last, isLast, rfl⟩, rfl⟩⟩, rfl⟩
  obtain ⟨members, isAttached⟩ := exists_isAttached attached isPart
  obtain ⟨again, isAttachedToo⟩ := exists_isAttached attached isLast
  exact ⟨front, part, last, members, again, rfl, compiledToo, isAttached, isAttachedToo⟩

namespace Finder

section

variable {store : Store} {catalog : Catalog} (reached : Store.Reachable catalog.schema store)
  (apart : catalog.schema.HasApartNames) (default : catalog.schema.HasDefaultTables)
  {finder : Finder} (unchecked : finder.checkStatus = false) {selector : Selector}
  (others : ∀ other ∈ selector, other.kind ≠ .sort ∧ other.kind ≠ .window) {term : Term}
  (attached : term.kind = .attached) (denies : ¬ term.DeniesNonDates catalog)
  (comment : finder.debug = true →
    ∀ other ∈ selector ++ [term], isPlainComment other.text.toList = true)

include reached apart default unchecked others attached denies comment

/-- What a find comes to, and that it comes to the same with its last term repeated. -/
theorem exists_answers_repeated {parts : List Part}
    (compiled : Part.ofTerms catalog [] (selector ++ [term]) = .ok parts) :
    ∃ (possible : Prop) (selected : Page → Prop),
      finder.Answers catalog store (selector ++ [term]) possible selected ∧
        finder.Answers catalog store (selector ++ [term, term]) possible selected := by
  obtain ⟨front, part, last, members, again, rfl, compiledToo, isAttached, isAttachedToo⟩ :=
    Part.exists_ofTerms_repeated attached compiled
  have frame : Query.frame (front ++ [part, last]) = Query.frame (front ++ [part]) := by
    simp [Query.frame, isAttachedToo.joins, isAttachedToo.conjuncts]
  have entries : (front ++ [part]).flatMap Part.members =
      front.flatMap Part.members ++ members.map fun member => (term.text, member) := by
    rw [List.flatMap_append, List.flatMap_singleton, isAttached.entries]
  have entriesToo : (front ++ [part, last]).flatMap Part.members =
      front.flatMap Part.members ++ (members ++ again).map fun member => (term.text, member) := by
    rw [List.flatMap_append, List.flatMap_cons, List.flatMap_singleton, isAttached.entries,
      isAttachedToo.entries, List.map_append]
  have kinds : ∀ other ∈ selector ++ [term], other.kind ≠ .sort ∧ other.kind ≠ .window := by
    rw [List.forall_mem_append, List.forall_mem_singleton, attached]
    exact ⟨others, by decide, by decide⟩
  have kindsToo : ∀ other ∈ selector ++ [term, term],
      other.kind ≠ .sort ∧ other.kind ≠ .window := by
    simpa using kinds
  have commentToo : finder.debug = true →
      ∀ other ∈ selector ++ [term, term], isPlainComment other.text.toList = true := by
    simpa using comment
  have answers := answers_of_ofTerms reached apart default unchecked kinds comment compiled
  have answersToo :=
    answers_of_ofTerms reached apart default unchecked kindsToo commentToo compiledToo
  refine ⟨_, _, answers, answersToo.congr (and_congr (by rw [frame]) ?_) fun page _ =>
    and_congr (by rw [frame]) ?_⟩
  · rw [entries, entriesToo]
    cases asks : term.asks with
    | false => rw [isAttachedToo.silent asks, List.append_nil]
    | true => exact Store.forall_fits_again_iff (isAttached.stand asks) (isAttachedToo.stand asks) _ _
  · rw [entries, entriesToo]
    cases asks : term.asks with
    | false => rw [isAttachedToo.silent asks, List.append_nil]
    | true =>
        exact Store.forall_selects_again_iff (isAttached.stand asks) (isAttachedToo.stand asks) asks
          denies _ _ page

/-- A selector selects the same pages when its last term, on attached fields, is repeated. It may be
asked at another moment where it does not read the clock. -/
theorem find_repeated {earlier : Date.Moment}
    (clockless : finder.queryFor { catalog with now := earlier } (selector ++ [term]) false =
      finder.queryFor catalog (selector ++ [term]) false) :
    ((∃ rows, (finder.find { catalog with now := earlier } store.unboundedEngine
        (selector ++ [term]) false).rows = .ok rows) ↔
      ∃ rows, (finder.find catalog store.unboundedEngine (selector ++ [term, term]) false).rows =
        .ok rows) ∧
    (∀ rows again,
      (finder.find { catalog with now := earlier } store.unboundedEngine (selector ++ [term])
        false).rows = .ok rows →
      (finder.find catalog store.unboundedEngine (selector ++ [term, term]) false).rows =
        .ok again →
      ∃ selected, store.Shows rows selected ∧ store.Shows again selected) ∧
    (∀ query, finder.queryFor catalog (selector ++ [term]) false = .ok query →
      query.isWithinLimits = true → query.hasLongPattern = false →
        (finder.find { catalog with now := earlier } store.engine (selector ++ [term]) false).rows =
          (finder.find { catalog with now := earlier } store.unboundedEngine (selector ++ [term])
            false).rows) ∧
    ∀ query, finder.queryFor catalog (selector ++ [term, term]) false = .ok query →
      query.isWithinLimits = true → query.hasLongPattern = false →
        (finder.find catalog store.engine (selector ++ [term, term]) false).rows =
          (finder.find catalog store.unboundedEngine (selector ++ [term, term]) false).rows := by
  have moved := find_congr clockless store.unboundedEngine
  refine ⟨?_, fun rows again found foundToo => ?_, fun query compiled small short => ?_,
    fun query compiled small short => congrArg Found.rows (find_engine_eq compiled small short)⟩
  · rw [moved]
    constructor
    · rintro ⟨rows, found⟩
      obtain ⟨query, -, compiled, -⟩ := exists_of_find_ok found
      obtain ⟨parts, isParts⟩ := (exists_queryFor_iff unchecked).1 ⟨query, compiled⟩
      obtain ⟨possible, selected, answers, answersToo⟩ := exists_answers_repeated reached apart
        default unchecked others attached denies comment isParts
      exact answersToo.succeeds.2 (answers.succeeds.1 ⟨rows, found⟩)
    · rintro ⟨rows, found⟩
      obtain ⟨query, -, compiled, -⟩ := exists_of_find_ok found
      obtain ⟨whole, isWhole⟩ := (exists_queryFor_iff unchecked).1 ⟨query, compiled⟩
      obtain ⟨parts, isParts⟩ : ∃ parts, Part.ofTerms catalog [] (selector ++ [term]) =
          .ok parts := by
        rw [show selector ++ [term, term] = (selector ++ [term]) ++ [term] by simp] at isWhole
        obtain ⟨parts, -, isParts, -⟩ := Part.ofTerms_append_eq_ok.1 isWhole
        exact ⟨parts, isParts⟩
      obtain ⟨possible, selected, answers, answersToo⟩ := exists_answers_repeated reached apart
        default unchecked others attached denies comment isParts
      exact answers.succeeds.2 (answersToo.succeeds.1 ⟨rows, found⟩)
  · rw [moved] at found
    obtain ⟨query, -, compiled, -⟩ := exists_of_find_ok found
    obtain ⟨parts, isParts⟩ := (exists_queryFor_iff unchecked).1 ⟨query, compiled⟩
    obtain ⟨possible, selected, answers, answersToo⟩ := exists_answers_repeated reached apart
      default unchecked others attached denies comment isParts
    exact ⟨selected, answers.shows rows found, answersToo.shows again foundToo⟩
  · exact congrArg Found.rows (find_engine_eq (clockless.trans compiled) small short)

end

end Finder

/-- The query for a text in one table and for any other text in another one. -/
def exceptQuery (table other value : String) : Query :=
  let denied : Filter := .not (.fragment (.compare ⟨other, "data"⟩ .equal (.text value)))
  { valueQuery table value with
    joins := (valueQuery table value).joins ++
      [{ kind := .inner, table := other, aliasName := other
         on := .all [pageLink other, denied] }] }

theorem Finder.find_repeated_textsStore :
    ∃ wanted denied rows again,
      Selector.read "body=us, !title=us" = .ok ([wanted] ++ [denied]) ∧
      Selector.read "body=us, !title=us, !title=us" = .ok ([wanted] ++ [denied, denied]) ∧
      (anyStatus.find textsCatalog textsStore.engine ([wanted] ++ [denied]) false).rows =
        .ok rows ∧
      (anyStatus.find textsCatalog textsStore.engine ([wanted] ++ [denied, denied]) false).rows =
        .ok again ∧
      (textsStore.Shows rows fun page => page.id = 1) ∧
      textsStore.Shows again fun page => page.id = 1 := by
  let wanted : Term :=
    { fields := ["body"], values := ["us"], operator := .equal, negated := false, text := "body=us" }
  let denied : Term :=
    { fields := ["title"], values := ["us"], operator := .equal, negated := true
      text := "!title=us" }
  have reached := Store.reachable_textsStore
  have compiled : anyStatus.queryFor textsCatalog ([wanted] ++ [denied]) false =
      .ok (exceptQuery "field_body" "field_title" "us") := rfl
  have dated : ¬ denied.DeniesNonDates textsCatalog := by
    rintro ⟨-, name, field, named, isField, isKind, -⟩
    cases List.singleton_injective named
    cases isField
    cases isKind
  obtain ⟨succeeds, same, bounded, boundedToo⟩ :=
    find_repeated reached (by decide) (by decide) rfl (by decide) rfl dated
      (fun debug => absurd debug Bool.false_ne_true) (rfl : anyStatus.queryFor
        { textsCatalog with now := textsCatalog.now } ([wanted] ++ [denied]) false = _)
  obtain ⟨rows, found, shows⟩ := find_shows_of_runnablePlan? reached.nodup_ids
    (by decide : (exceptQuery "field_body" "field_title" "us").isPlain = true) rfl compiled rfl
    (by decide : ∀ page ∈ textsStore.pages, _ ↔ page.id = 1)
  have unbounded := (bounded _ compiled (by decide) (by decide)).symm.trans found
  obtain ⟨again, foundToo⟩ := succeeds.1 ⟨rows, unbounded⟩
  obtain ⟨selected, showsHere, showsToo⟩ := same rows again unbounded foundToo
  refine ⟨wanted, denied, rows, again, rfl, rfl, found,
    (boundedToo _ rfl (by decide) (by decide)).trans foundToo, shows,
    showsToo.congr fun page isPage => ?_⟩
  exact (showsHere.iff reached.nodup_ids isPage).symm.trans (shows.iff reached.nodup_ids isPage)

end PageTree
