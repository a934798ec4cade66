import PageTree.Proofs.Finder.OneTerm

/-!
Several fields in one term. Every name of a term picks pages by itself, whatever the other names
are. Main statement: a term that asks for a value in any of several attached fields selects the
pages that the terms on its single fields select, and succeeds when they all do.
-/

namespace PageTree

open Sql

/-! ### Names of a term -/

namespace Member.StandsByName

variable {catalog : Catalog} {term : Term} {name : String} {member other : Member}
  (stands : member.StandsByName catalog term name)
  (again : other.StandsByName catalog term name)

include stands again

theorem fits {store : Store} (fits : store.Fits member) : store.Fits other := by
  obtain ⟨sameTable, -, alike⟩ := stands.isAlike again
  obtain ⟨table, found, columns⟩ := fits
  exact ⟨table, sameTable ▸ found, (alike.reads _).1 columns⟩

theorem picks {lone : Bool} {table : FieldTable} {page : Page}
    (picks : member.Picks lone table page) : other.Picks lone table page := by
  obtain ⟨-, blank, alike⟩ := stands.isAlike again
  have same (row : Option FieldRow) : member.truthIn table row = other.truthIn table row :=
    alike.eval table.affinityOf (table.valueIn row)
  unfold Picks Finds at picks ⊢
  simp only [← same, ← blank]
  exact picks

end Member.StandsByName

namespace Store

variable (store : Store) (catalog : Catalog) (term : Term)

/-- Have the tables of the store all columns that are read for a name of the term? -/
def FitsName (name : String) : Prop :=
  term.asks = true → ∀ member : Member, member.StandsByName catalog term name → store.Fits member

/-- Does what a name of the term stands for pick the page? A term that asks for nothing lets every
page through. -/
def SelectsByName (name : String) (page : Page) : Prop :=
  term.asks = true → ∃ (member : Member) (table : FieldTable),
    member.StandsByName catalog term name ∧ store.table? member.table = some table ∧
      member.Picks false table page

/-- Does a member that the lack of a row fulfils find a row, unless it asks for that lack? -/
def AsksForRows : Prop :=
  ∀ page ∈ store.pages, ∀ name ∈ term.fields, ∀ (member : Member) (table : FieldTable),
    member.StandsByName catalog term name → store.table? member.table = some table →
      member.blank = false → member.truthIn table none = .yes → member.Finds table page

variable {store catalog term}

theorem asksForRows_of_positive (positive : term.negated = false) :
    store.AsksForRows catalog term := by
  rintro page - name - member table ⟨field, kind, branches, isFor⟩ - filled yes
  have blank : member.blank = true :=
    isFor.blank_of_isYes positive rfl (Truth.isYes_iff.2 yes)
  rw [blank] at filled
  cases filled

variable {members : List Member}
  (stand : List.Forall₂ (Member.StandsByName catalog term) term.fields members)
  (asks : term.asks = true)

include stand asks

theorem forall_fits_iff :
    (∀ member ∈ members, store.Fits member) ↔
      ∀ name ∈ term.fields, store.FitsName catalog term name := by
  constructor
  · intro fits name isName _ other again
    obtain ⟨member, isMember, stands⟩ := exists_of_mem_left_forall₂ stand isName
    exact stands.fits again (fits member isMember)
  · intro fits member isMember
    obtain ⟨name, isName, stands⟩ := exists_of_mem_forall₂ stand isMember
    exact fits name isName asks member stands

/-- A join that drops rows picks what a join picks that keeps them. -/
theorem selects_iff (rows : store.AsksForRows catalog term) {page : Page}
    (isPage : page ∈ store.pages) :
    store.Selects members page ↔
      ∃ name ∈ term.fields, store.SelectsByName catalog term name page := by
  constructor
  · rintro ⟨member, isMember, table, found, picks⟩
    obtain ⟨name, isName, stands⟩ := exists_of_mem_forall₂ stand isMember
    exact ⟨name, isName, fun _ => ⟨member, table, stands, found,
      picks.imp_right fun lack => ⟨rfl, lack.2⟩⟩⟩
  · rintro ⟨name, isName, selects⟩
    obtain ⟨other, table, again, found, picks⟩ := selects asks
    obtain ⟨member, isMember, stands⟩ := exists_of_mem_left_forall₂ stand isName
    have foundHere := (again.isAlike stands).1 ▸ found
    refine ⟨member, isMember, table, foundHere, ?_⟩
    cases lone : MemberGroup.isLone members with
    | false => exact again.picks stands picks
    | true =>
        -- Its join has dropped the pages without a row, so the lack of one must not be what picks.
        obtain ⟨sole, rfl, filled⟩ := MemberGroup.isLone_iff.1 lone
        obtain rfl := List.mem_singleton.1 isMember
        refine .inl ((again.picks stands picks).elim id fun lack => ?_)
        exact rows page isPage name isName member table stands foundHere filled lack.2.1

end Store

/-! ### Finds -/

namespace Finder

/-- A find with a term on attached fields succeeds when the columns of all its names are there, and
returns the pages that one of its names picks. -/
theorem find_names {store : Store} {finder : Finder} {catalog : Catalog}
    (reached : Store.Reachable catalog.schema store) (unchecked : finder.checkStatus = false)
    {term : Term} (attached : term.kind = .attached) {found : List Member.Contribution}
    (contributed : Member.contributions catalog term [] term.fields = .ok found)
    (comment : finder.debug = true → isPlainComment term.text.toList = true)
    (apart : catalog.schema.HasApartNames) (default : catalog.schema.HasDefaultTables)
    (named : term.fields ≠ []) (asksForRows : store.AsksForRows catalog term) :
    ((∃ rows, (finder.find catalog store.unboundedEngine [term] false).rows = .ok rows) ↔
      ∀ name ∈ term.fields, store.FitsName catalog term name) ∧
    ∀ rows, (finder.find catalog store.unboundedEngine [term] false).rows = .ok rows →
      store.Shows rows fun page =>
        ∃ name ∈ term.fields, store.SelectsByName catalog term name page := by
  cases asks : term.asks with
  | true =>
      obtain ⟨members, stand, succeeds, shows⟩ :=
        find_term reached unchecked attached contributed comment apart default asks named
      exact ⟨succeeds.trans (Store.forall_fits_iff stand asks), fun rows ok =>
        (shows rows ok).congr fun page isPage => Store.selects_iff stand asks asksForRows isPage⟩
  | false =>
      have silent : ¬ term.asks = true := Bool.eq_false_iff.1 asks
      obtain ⟨rows, ok, shows⟩ := find_unasking reached unchecked attached contributed comment asks
      refine ⟨iff_of_true ⟨rows, ok⟩ fun _ _ asking => absurd asking silent, fun others again => ?_⟩
      obtain rfl : rows = others := Except.ok.inj (ok.symm.trans again)
      obtain ⟨name, isName⟩ := List.exists_mem_of_ne_nil _ named
      exact shows.congr fun page _ =>
        iff_of_true trivial ⟨name, isName, fun asking => absurd asking silent⟩

end Finder

/-! ### Single names -/

/-- The term that asks the same of one field alone. -/
def Term.only (term : Term) (name text : String) : Term :=
  { term with fields := [name], text }

section

variable {store : Store} {catalog : Catalog} {term : Term} {name text : String}

theorem Member.standsByName_only_iff {member : Member} :
    member.StandsByName catalog (term.only name text) name ↔
      member.StandsByName catalog term name := by
  constructor
  · rintro ⟨field, kind, branches, isFor⟩
    exact ⟨field, kind, branches, { isFor with }⟩
  · rintro ⟨field, kind, branches, isFor⟩
    exact ⟨field, kind, branches, { isFor with }⟩

theorem Store.fitsName_only_iff :
    store.FitsName catalog (term.only name text) name ↔ store.FitsName catalog term name :=
  forall_congr' fun _ => forall_congr' fun _ => imp_congr_left Member.standsByName_only_iff

theorem Store.selectsByName_only_iff {page : Page} :
    store.SelectsByName catalog (term.only name text) name page ↔
      store.SelectsByName catalog term name page :=
  forall_congr' fun _ => exists_congr fun _ => exists_congr fun _ =>
    and_congr_left fun _ => Member.standsByName_only_iff

end

namespace Finder

section

variable {finder : Finder} {catalog : Catalog} (unchecked : finder.checkStatus = false)
  {term : Term} {texts : String → String} (named : term.fields ≠ [])
  (attached : ∀ name ∈ term.fields, (term.only name (texts name)).kind = .attached)
  {query : Query} (compiled : finder.queryFor catalog [term] false = .ok query)

include named attached

theorem kind_of_only : term.kind = .attached := by
  obtain ⟨first, rest, fields⟩ := List.exists_cons_of_ne_nil named
  have kind := attached first (fields ▸ List.mem_cons_self ..)
  have same : term.field = (term.only first (texts first)).field := by
    rw [Term.field, fields]
    rfl
  unfold Term.kind at kind ⊢
  rw [same]
  exact kind

include unchecked compiled

theorem exists_contributions :
    ∃ found, Member.contributions catalog term [] term.fields = .ok found := by
  rw [queryFor_attached unchecked catalog (kind_of_only named attached)] at compiled
  obtain ⟨found, contributed, -⟩ := map_eq_ok.1 compiled
  exact ⟨found, contributed⟩

theorem exists_contributions_only {name : String} (isName : name ∈ term.fields) :
    ∃ found, Member.contributions catalog (term.only name (texts name)) []
      (term.only name (texts name)).fields = .ok found := by
  obtain ⟨found, contributed⟩ := exists_contributions unchecked named attached compiled
  have values : (term.only name (texts name)).values = term.values := rfl
  have subset : (term.only name (texts name)).fields ⊆ term.fields := by
    simpa [Term.only] using isName
  exact Member.exists_contributions_of_subset values rfl subset contributed

theorem exists_queryFor_only {name : String} (isName : name ∈ term.fields) :
    ∃ single, finder.queryFor catalog [term.only name (texts name)] false = .ok single := by
  obtain ⟨found, contributed⟩ :=
    exists_contributions_only unchecked named attached compiled isName
  rw [queryFor_attached unchecked catalog (attached name isName), contributed]
  exact ⟨_, rfl⟩

end

/-- A term whose first name is a column of the pages asks for that column alone, whatever names
follow. -/
theorem queryFor_only_of_native {finder : Finder} (unchecked : finder.checkStatus = false)
    (catalog : Catalog) {term : Term} (native : term.kind = .native) :
    finder.queryFor catalog [term] false =
      finder.queryFor catalog [term.only term.field term.text] false := by
  let single := term.only term.field term.text
  have kind : single.kind = .native := native
  have part : Part.ofTerm catalog [] term = Part.ofTerm catalog [] single := by
    rw [Part.ofTerm, Part.ofTerm, native, kind]
    rfl
  have parts : Part.ofTerms catalog [] [term] = Part.ofTerms catalog [] [single] := by
    rw [Part.ofTerms, Part.ofTerms, part]
  have bare {given : Term} (kind : given.kind = .native) :
      Selector.sortKeys catalog.schema [given] = [] ∧
        Selector.window? [given] catalog.pageNumber = none := by
    have other : ∀ one ∈ [given], one.kind ≠ .sort ∧ one.kind ≠ .window := by simp [kind]
    exact Selector.sortKeys_eq_nil_and_window?_eq_none_of_kind other catalog
  have assembled : Selector.assemble catalog [term] = Selector.assemble catalog [single] := by
    funext parts
    rw [Selector.assemble, Selector.assemble, (bare native).1, (bare native).2, (bare kind).1,
      (bare kind).2]
  have comment : finder.commentFor [term] = finder.commentFor [single] := by
    rw [commentFor, commentFor, prepare_of_unchecked unchecked, prepare_of_unchecked unchecked]
    rfl
  rw [queryFor_eq_map_compile, queryFor_eq_map_compile, prepare_of_unchecked unchecked,
    prepare_of_unchecked unchecked, Selector.compile, Selector.compile, parts, assembled, comment]

theorem find_only {store : Store} {catalog : Catalog}
    (reached : Store.Reachable catalog.schema store) (apart : catalog.schema.HasApartNames)
    (default : catalog.schema.HasDefaultTables) {finder : Finder}
    (unchecked : finder.checkStatus = false) {term : Term} (positive : term.negated = false)
    (named : term.fields ≠ []) {texts : String → String}
    (attached : ∀ name ∈ term.fields, (term.only name (texts name)).kind = .attached)
    {query : Query} (compiled : finder.queryFor catalog [term] false = .ok query)
    {name : String} (isName : name ∈ term.fields)
    (comment : finder.debug = true → isPlainComment (texts name).toList = true) :
    ((∃ rows, (finder.find catalog store.unboundedEngine [term.only name (texts name)]
        false).rows = .ok rows) ↔ store.FitsName catalog term name) ∧
    ∀ rows, (finder.find catalog store.unboundedEngine [term.only name (texts name)]
        false).rows = .ok rows → store.Shows rows (store.SelectsByName catalog term name) := by
  obtain ⟨one, isOne⟩ := exists_contributions_only unchecked named attached compiled isName
  obtain ⟨succeeds, shows⟩ := find_names reached unchecked (attached name isName) isOne comment
    apart default (List.cons_ne_nil _ _) (Store.asksForRows_of_positive positive)
  have fields : (term.only name (texts name)).fields = [name] := rfl
  rw [fields, List.forall_mem_singleton, Store.fitsName_only_iff] at succeeds
  refine ⟨succeeds, fun rows ok => (shows rows ok).congr fun page _ => ?_⟩
  simp only [fields, List.mem_singleton, exists_eq_left, Store.selectsByName_only_iff]

/-- A term on attached fields selects the pages that the terms on its single fields select. The
engine answers as without bounds on the size of statements and patterns where it keeps to them. -/
theorem find_union {store : Store} {catalog : Catalog}
    (reached : Store.Reachable catalog.schema store) (apart : catalog.schema.HasApartNames)
    (default : catalog.schema.HasDefaultTables) {finder : Finder}
    (unchecked : finder.checkStatus = false) {term : Term} (positive : term.negated = false)
    (named : term.fields ≠ []) {texts : String → String}
    (attached : ∀ name ∈ term.fields, (term.only name (texts name)).kind = .attached)
    {query : Query} (compiled : finder.queryFor catalog [term] false = .ok query)
    (comment : finder.debug = true →
      ∀ text ∈ term.text :: term.fields.map texts, isPlainComment text.toList = true) :
    (∀ name ∈ term.fields, ∃ single,
      finder.queryFor catalog [term.only name (texts name)] false = .ok single) ∧
    ((∃ rows, (finder.find catalog store.unboundedEngine [term] false).rows = .ok rows) ↔
      ∀ name ∈ term.fields, ∃ rows, (finder.find catalog store.unboundedEngine
        [term.only name (texts name)] false).rows = .ok rows) ∧
    (∀ rows, (finder.find catalog store.unboundedEngine [term] false).rows = .ok rows →
      ∃ selected : String → Page → Prop,
        (∀ name ∈ term.fields, ∃ others, (finder.find catalog store.unboundedEngine
          [term.only name (texts name)] false).rows = .ok others ∧
            store.Shows others (selected name)) ∧
        store.Shows rows fun page => ∃ name ∈ term.fields, selected name page) ∧
    ∀ asked ∈ term :: term.fields.map (fun name => term.only name (texts name)), ∀ query,
      finder.queryFor catalog [asked] false = .ok query →
        query.isWithinLimits = true → query.hasLongPattern = false →
          (finder.find catalog store.engine [asked] false).rows =
            (finder.find catalog store.unboundedEngine [asked] false).rows := by
  obtain ⟨contributed, isContributed⟩ :=
    exists_contributions unchecked named attached compiled
  obtain ⟨succeeds, shows⟩ := find_names reached unchecked (kind_of_only named attached)
    isContributed (fun debug => comment debug _ (List.mem_cons_self ..)) apart default named
    (Store.asksForRows_of_positive positive)
  have each {name : String} (isName : name ∈ term.fields) :=
    find_only reached apart default unchecked positive named attached compiled isName
      fun debug => comment debug _ (List.mem_cons_of_mem _ (List.mem_map_of_mem isName))
  refine ⟨fun name isName => exists_queryFor_only unchecked named attached compiled isName,
    ?_, ?_, ?_⟩
  · exact succeeds.trans (forall₂_congr fun name isName => (each isName).1.symm)
  · intro rows ok
    refine ⟨store.SelectsByName catalog term, fun name isName => ?_, shows rows ok⟩
    obtain ⟨others, okToo⟩ := (each isName).1.2 (succeeds.1 ⟨rows, ok⟩ name isName)
    exact ⟨others, okToo, (each isName).2 others okToo⟩
  · exact fun asked _ query compiled small short =>
      congrArg Found.rows (find_engine_eq compiled small short)

end Finder

def textsSchema : Schema :=
  [("body", { kind := "text", table := none, label := none }),
    ("title", { kind := "text", table := none, label := none })]

/-- A store with a text in the body of one page and in the title of another one. -/
def textsStore : Store :=
  { titledStore with
    tables :=
      [⟨"field_body", .text, [⟨1, 1, .text "us", 0⟩, ⟨2, 2, .text "them", 0⟩]⟩,
        ⟨"field_title", .text, [⟨1, 1, .text "them", 0⟩, ⟨2, 2, .text "us", 0⟩]⟩]
    indexes :=
      ["idx_field_body_pages", "idx_field_body_data", "idx_field_title_pages",
        "idx_field_title_data"] }

theorem Store.reachable_textsStore : Store.Reachable textsSchema textsStore := by
  let tables (body title : List FieldRow) : List FieldTable :=
    [⟨"field_body", .text, body⟩, ⟨"field_title", .text, title⟩]
  let fresh : Store :=
    { Store.new ⟨0, false⟩ with tables := tables [] [], indexes := textsStore.indexes }
  let paged (body title : List FieldRow) : Store :=
    { textsStore with tables := tables body title }
  have made : (Store.new ⟨0, false⟩).ensureTables textsSchema.fields = (fresh, .ok ()) := rfl
  have inserted : fresh.insertPage ⟨0, false⟩ (.named 1 "about") = .ok (2, paged [] []) := rfl
  have first : (paged [] []).setField textsSchema ⟨0, false⟩ "body" 1 "us" =
      .ok (paged [⟨1, 1, .text "us", 0⟩] []) := rfl
  have second : (paged [⟨1, 1, .text "us", 0⟩] []).setField textsSchema ⟨0, false⟩ "body" 2 "them" =
      .ok (paged [⟨1, 1, .text "us", 0⟩, ⟨2, 2, .text "them", 0⟩] []) := rfl
  have third : (paged [⟨1, 1, .text "us", 0⟩, ⟨2, 2, .text "them", 0⟩] []).setField textsSchema
      ⟨0, false⟩ "title" 1 "them" =
      .ok (paged [⟨1, 1, .text "us", 0⟩, ⟨2, 2, .text "them", 0⟩] [⟨1, 1, .text "them", 0⟩]) := rfl
  have fourth : (paged [⟨1, 1, .text "us", 0⟩, ⟨2, 2, .text "them", 0⟩]
      [⟨1, 1, .text "them", 0⟩]).setField textsSchema ⟨0, false⟩ "title" 2 "us" =
      .ok textsStore := rfl
  exact ((((Reachable.fresh made).insertPage inserted).setField first).setField second).setField
    third |>.setField fourth

def valueQuery (table value : String) : Query :=
  { joins :=
      [{ kind := .inner, table, aliasName := table
         on := .all [pageLink table, .fragment (.compare ⟨table, "data"⟩ .equal (.text value))] }]
    conjuncts := [], scores := [], orders := [], window := none, comment := "" }

def textsCatalog : Catalog :=
  textsStore.catalog textsSchema ⟨0, false⟩ none

theorem Finder.find_union_textsStore :
    ∃ term rows, Selector.read "body|title=us" = .ok [term] ∧
      (anyStatus.find textsCatalog textsStore.engine [term] false).rows = .ok rows ∧
      textsStore.Shows rows fun page => page.id = 1 ∨ page.id = 2 := by
  let term : Term :=
    { fields := ["body", "title"], values := ["us"], operator := .equal, negated := false
      text := "body|title=us" }
  have parsed : Selector.read "body|title=us" = .ok [term] := rfl
  have reached := Store.reachable_textsStore
  have isAttached : ∀ name ∈ term.fields, (term.only name (name ++ "=us")).kind = .attached := by
    decide
  obtain ⟨-, succeeds, shows, bounded⟩ := find_union reached (by decide) (by decide)
    (rfl : anyStatus.checkStatus = false) rfl (by decide) isAttached
    (rfl : anyStatus.queryFor textsCatalog [term] false = _)
    (fun debug => absurd debug Bool.false_ne_true)
  obtain ⟨bodies, bodiesFound, showBodies⟩ := find_shows_of_runnablePlan? reached.nodup_ids
    (by decide : (valueQuery "field_body" "us").isPlain = true) rfl
    (rfl : anyStatus.queryFor textsCatalog [term.only "body" "body=us"] false = _) rfl
    (by decide : ∀ page ∈ textsStore.pages, _ ↔ page.id = 1)
  obtain ⟨titles, titlesFound, showTitles⟩ := find_shows_of_runnablePlan? reached.nodup_ids
    (by decide : (valueQuery "field_title" "us").isPlain = true) rfl
    (rfl : anyStatus.queryFor textsCatalog [term.only "title" "title=us"] false = _) rfl
    (by decide : ∀ page ∈ textsStore.pages, _ ↔ page.id = 2)
  rw [bounded _ (by simp [term]) _ rfl (by decide) (by decide)] at bodiesFound titlesFound
  obtain ⟨rows, found⟩ := succeeds.2 (by
    rw [List.forall_mem_cons, List.forall_mem_singleton]
    exact ⟨⟨bodies, bodiesFound⟩, titles, titlesFound⟩)
  obtain ⟨selected, singles, shown⟩ := shows rows found
  rw [List.forall_mem_cons, List.forall_mem_singleton] at singles
  obtain ⟨⟨first, isFirst, showFirst⟩, second, isSecond, showSecond⟩ := singles
  obtain rfl : bodies = first := Except.ok.inj (bodiesFound.symm.trans isFirst)
  obtain rfl : titles = second := Except.ok.inj (titlesFound.symm.trans isSecond)
  refine ⟨term, rows, parsed, ?_, shown.congr fun page isPage => ?_⟩
  · exact (bounded _ (List.mem_cons_self ..) _ rfl (by decide) (by decide)).trans found
  · have same := (showFirst.iff reached.nodup_ids isPage).symm.trans
      (showBodies.iff reached.nodup_ids isPage)
    have sameToo := (showSecond.iff reached.nodup_ids isPage).symm.trans
      (showTitles.iff reached.nodup_ids isPage)
    simp [term, same, sameToo]

end PageTree
