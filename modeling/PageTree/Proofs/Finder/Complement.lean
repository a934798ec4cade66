import PageTree.Proofs.Finder.Union
import PageTree.Proofs.Store.Values

/-!
A term and its negation. Every name of a term is negated by itself, so that a term of several names
and its negation may select one page. Main statement: where every page has a value in the fields of
a term, each page is selected by the term or by its negation, and by one of them alone when the term
has one name.
-/

namespace PageTree

open Sql

/-! ### Values that are there -/

namespace Sql.Test.IsOn

variable {target : Column} {test : Test} (isOn : test.IsOn target)
  {affinity : Column → Affinity} {binding : Binding}

include isOn

theorem truth_ne_unknown (given : binding target ≠ .null) :
    test.truth affinity binding ≠ .unknown := by
  have definite (b : Bool) : Truth.ofBool b ≠ .unknown := by cases b <;> decide
  have literal {relation : Relation} {right : Operand}
      (value : right.value binding ≠ .null) :
      (Test.compare target relation right).truth affinity binding ≠ .unknown := by
    rw [truth]
    split
    · exact compareValues_ne_unknown given value
    · exact compareValues_ne_unknown (Value.convert_ne_null given _)
        (Value.convert_ne_null value _)
  cases test with
  | compare left relation right =>
      cases right with
      | column right => exact isOn.elim
      | integer n => cases isOn; exact literal (by simp [Operand.value])
      | digits run =>
          cases isOn
          refine literal ?_
          simp only [Operand.value, Value.ofDigits]
          split <;> simp
      | text value => cases isOn; exact literal (by simp [Operand.value])
  | isNull column => exact isOn.elim
  | isNotNull column => exact isOn.elim
  | like subject pattern marked =>
      cases isOn
      have spelled : ∃ text, (binding target).text? = some text := by
        cases value : binding target with
        | null => exact absurd value given
        | integer n => exact ⟨_, rfl⟩
        | real x => exact ⟨_, rfl⟩
        | text s => exact ⟨_, rfl⟩
      obtain ⟨text, spelled⟩ := spelled
      rw [truth, spelled]
      exact definite _
  | never => simp [truth]

/-- What a test says of a missing value it says of any value. -/
theorem refines (missing : binding target = .null) (other : Binding) :
    (test.truth affinity binding).Refines (test.truth affinity other) := by
  rcases isOn.truth_null missing with unknown | rfl
  · exact .inl unknown
  · exact .refl _

end Sql.Test.IsOn

namespace FieldTable

variable (table : FieldTable)

theorem valueIn_data (row : FieldRow) : table.valueIn (some row) "data" = row.data :=
  table.cell_data row

end FieldTable

namespace Member

variable {catalog : Catalog} {term : Term} {name : String} {member : Member} {table : FieldTable}
  {row : FieldRow}

theorem StandsByName.truthIn_ne_unknown (stands : member.StandsByName catalog term name)
    (data : (splitName name).2 = "data") (given : row.data ≠ .null) :
    member.truthIn table (some row) ≠ .unknown := by
  obtain ⟨field, kind, branches, isFor⟩ := stands
  have definite (b : Bool) : Truth.ofBool b ≠ .unknown := by cases b <;> decide
  refine Condition.eval_ne_unknown _ fun test isTest => ?_
  rcases isFor.forall_tests test isTest with isOn | ⟨-, rfl | rfl⟩
  · refine isOn.truth_ne_unknown ?_
    rw [column, data, table.valueIn_data]
    exact given
  · exact definite _
  · exact definite _

theorem StandsByName.refines (stands : member.StandsByName catalog term name)
    (filled : member.blank = false) (row : Option FieldRow) :
    (member.truthIn table none).Refines (member.truthIn table row) := by
  obtain ⟨field, kind, branches, isFor⟩ := stands
  refine Condition.eval_refines _ fun test isTest => ?_
  rcases isFor.forall_tests test isTest with isOn | ⟨blank, -⟩
  · exact isOn.refines rfl _
  · rw [filled] at blank
    cases blank

theorem StandsByName.picks_iff (stands : member.StandsByName catalog term name)
    (sole : table.HasSoleValues) {page : Page} (isRow : row ∈ table.rows)
    (same : row.page = page.id) :
    member.Picks false table page ↔ member.truthIn table (some row) = .yes := by
  constructor
  · rintro (⟨other, isOther, sameToo, yes⟩ | ⟨-, yes, absent⟩)
    · rwa [← sole.eq_of_page isOther isRow (sameToo.trans same.symm)]
    · refine (stands.refines (Bool.eq_false_iff.2 fun blank => ?_) _).eq_yes yes
      exact absent blank row isRow same
  · exact fun yes => .inl ⟨row, isRow, same, yes⟩

theorem StandsByName.readsOnly (stands : member.StandsByName catalog term name)
    (data : (splitName name).2 = "data") (table : FieldTable) :
    member.condition.ReadsOnly fun name => table.asTable.hasColumn name = true := by
  obtain ⟨field, kind, branches, isFor⟩ := stands
  intro test isTest column read
  rcases isFor.forall_tests test isTest with isOn | ⟨-, rfl | rfl⟩
  · rw [isOn.eq_of_mem_columns read, Member.column, data]
    exact table.hasColumn_data
  · rw [List.mem_singleton.1 read]
    exact table.hasColumn_page
  · rw [List.mem_singleton.1 read]
    exact table.hasColumn_page

end Member

/-! ### Negated names -/

def Term.negation (term : Term) (text : String) : Term :=
  { term with negated := true, text }

theorem Member.StandsByName.exists_negation {catalog : Catalog} {term : Term}
    (positive : term.negated = false) {name : String} {member : Member}
    (stands : member.StandsByName catalog term name) (text : String) :
    ∃ other : Member, other.StandsByName catalog (term.negation text) name ∧
      other.table = member.table ∧
      ∀ table row, other.truthIn table row = (member.truthIn table row).not := by
  obtain ⟨field, kind, branches, isFor⟩ := stands
  have condition : (Condition.disj (branches.flatMap Branch.filters)).negateIf true =
      .not member.condition := by
    rw [isFor.condition, positive]
    rfl
  exact ⟨{ member with condition := .not member.condition },
    ⟨field, kind, branches, { isFor with condition := condition.symm }⟩, rfl, fun _ _ => rfl⟩

namespace Store

/-- Has every page a value in all fields of a term? -/
def HasValues (store : Store) (catalog : Catalog) (term : Term) : Prop :=
  ∀ page ∈ store.pages, ∀ name ∈ term.fields, ∀ field,
    catalog.schema.field? (Member.splitName name).1 = some field →
      store.hasValue field page (fun _ => true) = true

instance (store : Store) (catalog : Catalog) (term : Term) :
    Decidable (store.HasValues catalog term) :=
  decidable_of_iff
    (∀ page ∈ store.pages, ∀ name ∈ term.fields,
      (catalog.schema.field? (Member.splitName name).1).all
        (fun field => store.hasValue field page fun _ => true) = true)
    (by simp only [HasValues, Option.all_eq_true])

variable {store : Store} {catalog : Catalog} {term : Term}

section

variable (values : store.HasValues catalog term) {page : Page} (isPage : page ∈ store.pages)
  {name : String} (isName : name ∈ term.fields) {member : Member}
  (stands : member.StandsByName catalog term name) {table : FieldTable}
  (found : store.table? member.table = some table)

include values isPage isName stands found

theorem exists_row : ∃ row ∈ table.rows, row.page = page.id := by
  obtain ⟨field, kind, branches, isFor⟩ := stands
  have given := values page isPage name isName field isFor.isField
  rw [hasValue, ← isFor.table, found, Option.any_some, List.any_eq_true] at given
  obtain ⟨row, isRow, same⟩ := given
  rw [Bool.and_true, decide_eq_true_eq] at same
  exact ⟨row, isRow, same⟩

end

/-- Where a page has one row, its member for the name decides whether the name picks it. -/
theorem selectsByName_iff (asks : term.asks = true) {name : String} {member : Member}
    (stands : member.StandsByName catalog term name) {table : FieldTable}
    (found : store.table? member.table = some table) (sole : table.HasSoleValues) {page : Page}
    {row : FieldRow} (isRow : row ∈ table.rows) (same : row.page = page.id) :
    store.SelectsByName catalog term name page ↔ member.truthIn table (some row) = .yes := by
  rw [← stands.picks_iff sole isRow same]
  constructor
  · intro selects
    obtain ⟨other, otherTable, again, foundToo, picks⟩ := selects asks
    rw [(again.isAlike stands).1] at foundToo
    obtain rfl : table = otherTable := Option.some.inj (found.symm.trans foundToo)
    exact again.picks stands picks
  · exact fun picks _ => ⟨member, table, stands, found, picks⟩

theorem asksForRows_of_hasValues (values : store.HasValues catalog term) :
    store.AsksForRows catalog term := by
  intro page isPage name isName member table stands found filled yes
  obtain ⟨row, isRow, same⟩ := exists_row values isPage isName stands found
  exact ⟨row, isRow, same, (stands.refines filled _).eq_yes yes⟩

section

variable (reached : Reachable catalog.schema store) (apart : catalog.schema.HasApartNames)
  (default : catalog.schema.HasDefaultTables)

include reached apart default

theorem fitsName_of_data {name : String} (data : (Member.splitName name).2 = "data") :
    store.FitsName catalog term name := by
  intro _ member stands
  obtain ⟨table, found, -⟩ := stands.exists_table reached apart default
  exact ⟨table, found, stands.readsOnly data table⟩

/-- A page with values is picked by a name or by its negation, and not by both. -/
theorem selectsByName_negation_iff (positive : term.negated = false) (asks : term.asks = true)
    (values : store.HasValues catalog term) {page : Page} (isPage : page ∈ store.pages)
    {name : String} (isName : name ∈ term.fields) (data : (Member.splitName name).2 = "data")
    {member : Member} (stands : member.StandsByName catalog term name) {text : String} :
    store.SelectsByName catalog (term.negation text) name page ↔
      ¬ store.SelectsByName catalog term name page := by
  obtain ⟨table, found, -⟩ := stands.exists_table reached apart default
  have sole := reached.hasSoleValues table (List.mem_of_find?_eq_some found)
  obtain ⟨row, isRow, same⟩ := exists_row values isPage isName stands found
  obtain ⟨other, opposite, sameTable, negated⟩ := stands.exists_negation positive text
  have asksToo : (term.negation text).asks = true := asks
  rw [selectsByName_iff asks stands found sole isRow same,
    selectsByName_iff asksToo opposite (sameTable ▸ found) sole isRow same, negated]
  have known : member.truthIn table (some row) ≠ .unknown :=
    stands.truthIn_ne_unknown data (sole.given row isRow)
  cases truth : member.truthIn table (some row) with
  | yes => decide
  | no => decide
  | unknown => exact absurd truth known

end

end Store

/-! ### Finds -/

namespace Finder

theorem find_congr {finder : Finder} {catalog other : Catalog} {selector : Selector} {single : Bool}
    (same : finder.queryFor catalog selector single = finder.queryFor other selector single)
    (engine : Engine) :
    finder.find catalog engine selector single = finder.find other engine selector single := by
  rw [find, find, same]

section

variable {store : Store} {catalog : Catalog} (reached : Store.Reachable catalog.schema store)
  (apart : catalog.schema.HasApartNames) (default : catalog.schema.HasDefaultTables)
  {finder : Finder} (unchecked : finder.checkStatus = false) {term : Term}
  (positive : term.negated = false) (attached : term.kind = .attached) (asks : term.asks = true)
  (named : term.fields ≠ []) (data : ∀ name ∈ term.fields, (Member.splitName name).2 = "data")
  (values : store.HasValues catalog term)

include reached apart default unchecked positive attached asks named data values

/-- Every name of a term is negated by itself. -/
theorem find_negation {query : Query}
    (compiled : finder.queryFor catalog [term] false = .ok query) {text : String}
    (comment : finder.debug = true →
      isPlainComment term.text.toList = true ∧ isPlainComment text.toList = true) :
    ∃ rows others,
      (finder.find catalog store.unboundedEngine [term] false).rows = .ok rows ∧
      (finder.find catalog store.unboundedEngine [term.negation text] false).rows = .ok others ∧
      (store.Shows rows fun page =>
        ∃ name ∈ term.fields, store.SelectsByName catalog term name page) ∧
      store.Shows others fun page =>
        ∃ name ∈ term.fields, ¬ store.SelectsByName catalog term name page := by
  rw [queryFor_attached unchecked catalog attached] at compiled
  obtain ⟨found, contributed, -⟩ := map_eq_ok.1 compiled
  have sameValues : (term.negation text).values = term.values := rfl
  obtain ⟨opposite, contributedToo⟩ : ∃ again,
      Member.contributions catalog (term.negation text) [] (term.negation text).fields =
        .ok again :=
    Member.exists_contributions_of_subset sameValues rfl (List.Subset.refl _) contributed
  obtain ⟨members, -, stand, -⟩ := Member.exists_members_of_contributions asks contributed
  have fits (given : Term) : ∀ name ∈ term.fields, store.FitsName catalog given name :=
    fun name isName => Store.fitsName_of_data reached apart default (data name isName)
  obtain ⟨succeeds, shows⟩ := find_names reached unchecked attached contributed
    (fun debug => (comment debug).1) apart default named (Store.asksForRows_of_hasValues values)
  have attachedToo : (term.negation text).kind = .attached := attached
  have valuesToo : store.HasValues catalog (term.negation text) := values
  obtain ⟨succeedsToo, showsToo⟩ := find_names reached unchecked attachedToo contributedToo
    (fun debug => (comment debug).2) apart default named (Store.asksForRows_of_hasValues valuesToo)
  obtain ⟨rows, ok⟩ := succeeds.2 (fits term)
  obtain ⟨others, okToo⟩ := succeedsToo.2 (fits (term.negation text))
  refine ⟨rows, others, ok, okToo, shows rows ok, (showsToo others okToo).congr ?_⟩
  refine fun page isPage => exists_congr fun name => and_congr_right fun isName => ?_
  obtain ⟨member, -, stands⟩ := exists_of_mem_left_forall₂ stand isName
  exact Store.selectsByName_negation_iff reached apart default positive asks values isPage isName
    (data name isName) stands

/-- Where every page has values, a term and its negation select all pages between them, and no page
is selected by both when there is one name. They may be asked at different moments where the term
does not read the clock. -/
theorem find_complement {query : Query}
    (compiled : finder.queryFor catalog [term] false = .ok query) {later : Date.Moment}
    (clockless : finder.queryFor { catalog with now := later } [term] false = .ok query)
    {text : String}
    (comment : finder.debug = true →
      isPlainComment term.text.toList = true ∧ isPlainComment text.toList = true) :
    ∃ rows others,
      (finder.find catalog store.unboundedEngine [term] false).rows = .ok rows ∧
      (finder.find { catalog with now := later } store.unboundedEngine [term.negation text]
        false).rows = .ok others ∧
      (∃ selected opposite : Page → Prop, store.Shows rows selected ∧
        store.Shows others opposite ∧
        (∀ page ∈ store.pages, ¬ selected page → opposite page) ∧
        (term.fields.length = 1 → ∀ page ∈ store.pages, opposite page → ¬ selected page)) ∧
      (query.isWithinLimits = true → query.hasLongPattern = false →
        (finder.find catalog store.engine [term] false).rows = .ok rows) ∧
      ∀ negated, finder.queryFor { catalog with now := later } [term.negation text] false =
          .ok negated →
        negated.isWithinLimits = true → negated.hasLongPattern = false →
          (finder.find { catalog with now := later } store.engine [term.negation text]
            false).rows = .ok others := by
  -- Both finds are looked at as asked at the later moment, where the term means the same.
  let moved : Catalog := { catalog with now := later }
  have reachedThen : Store.Reachable moved.schema store := reached
  have valuesThen : store.HasValues moved term := values
  obtain ⟨rows, others, ok, okToo, shows, showsToo⟩ := find_negation reachedThen apart default
    unchecked positive attached asks named data valuesThen clockless comment
  rw [← find_congr (compiled.trans clockless.symm)] at ok
  refine ⟨rows, others, ok, okToo, ⟨_, _, shows, showsToo, ?_, ?_⟩, ?_, ?_⟩
  · intro page _ unselected
    obtain ⟨name, isName⟩ := List.exists_mem_of_ne_nil _ named
    exact ⟨name, isName, fun selects => unselected ⟨name, isName, selects⟩⟩
  · rintro lone page - ⟨name, isName, unpicked⟩ ⟨other, isOther, selects⟩
    obtain ⟨sole, fields⟩ := List.length_eq_one_iff.1 lone
    rw [fields, List.mem_singleton] at isName isOther
    exact unpicked (isName.trans isOther.symm ▸ selects)
  · intro small short
    rw [find_engine_eq compiled small short]
    exact ok
  · intro negated isNegated small short
    rw [find_engine_eq isNegated small short]
    exact okToo

end

theorem find_complement_textsStore :
    ∃ term rows others, Selector.read "title=us" = .ok [term] ∧
      Selector.read "!title=us" = .ok [term.negation "!title=us"] ∧
      (anyStatus.find textsCatalog textsStore.engine [term] false).rows = .ok rows ∧
      (anyStatus.find textsCatalog textsStore.engine [term.negation "!title=us"] false).rows =
        .ok others ∧
      (textsStore.Shows rows fun page => page.id = 2) ∧
      textsStore.Shows others fun page => page.id = 1 := by
  let term : Term :=
    { fields := ["title"], values := ["us"], operator := .equal, negated := false
      text := "title=us" }
  have reached := Store.reachable_textsStore
  have compiled : anyStatus.queryFor textsCatalog [term] false =
      .ok (valueQuery "field_title" "us") := rfl
  have values : textsStore.HasValues textsCatalog term := by decide
  obtain ⟨rows, others, -, -, ⟨selected, opposite, shows, showsToo, covers, apart⟩, found,
      foundToo⟩ :=
    find_complement reached (by decide) (by decide) rfl rfl (by decide) (by decide) (by decide)
      (by decide) values compiled compiled (fun debug => absurd debug Bool.false_ne_true)
  obtain ⟨titles, isTitles, showTitles⟩ := find_shows_of_runnablePlan? reached.nodup_ids
    (by decide : (valueQuery "field_title" "us").isPlain = true) rfl compiled rfl
    (by decide : ∀ page ∈ textsStore.pages, _ ↔ page.id = 2)
  have ok := found (by decide) (by decide)
  obtain rfl : rows = titles := Except.ok.inj (ok.symm.trans isTitles)
  have isOpposite {page : Page} (isPage : page ∈ textsStore.pages) :
      opposite page ↔ ¬ page.id = 2 := by
    have same : page.id = 2 ↔ selected page :=
      (showTitles.iff reached.nodup_ids isPage).symm.trans (shows.iff reached.nodup_ids isPage)
    rw [same]
    exact ⟨apart rfl page isPage, covers page isPage⟩
  have two : ∀ page ∈ textsStore.pages, ¬ page.id = 2 ↔ page.id = 1 := by decide
  exact ⟨term, rows, others, rfl, rfl, ok, foundToo _ rfl (by decide) (by decide), showTitles,
    showsToo.congr fun page isPage => (isOpposite isPage).trans (two page isPage)⟩

end Finder

/-- The query for a value in either of two tables, or for another one in either. -/
def eitherQuery (first second value : String) (negated : Bool) : Query :=
  let condition (table : String) : Filter :=
    (Condition.fragment (.compare ⟨table, "data"⟩ .equal (.text value))).negateIf negated
  let join (table : String) : Join :=
    { kind := .left, table, aliasName := table, on := .all [pageLink table, condition table] }
  { joins := [join first, join second]
    conjuncts := [.enclosed (.any [condition first, condition second])]
    scores := [], orders := [], window := none, comment := "" }

theorem Store.execute_eitherQuery_twoTitlesStore (negated : Bool) :
    twoTitlesStore.engine.execute (eitherQuery "field_Title" "field_title" "x" negated) =
      .error (.database .rejectedStatement) := by
  have plain : (eitherQuery "field_Title" "field_title" "x" negated).isPlain = true := by
    revert negated
    decide
  have stuck : twoTitlesStore.runnablePlan? (eitherQuery "field_Title" "field_title" "x" negated) =
      none := by
    rw [← Option.isNone_iff_eq_none]
    revert negated
    decide
  exact Store.execute_of_runnablePlan?_eq_none plain stuck

theorem Finder.find_eitherQuery_textsStore {term : Term} {negated : Bool}
    (compiled : anyStatus.queryFor textsCatalog [term] false =
      .ok (eitherQuery "field_body" "field_title" "us" negated)) :
    ∃ rows, (anyStatus.find textsCatalog textsStore.engine [term] false).rows = .ok rows ∧
      textsStore.Shows rows fun _ => True := by
  have reached := Store.reachable_textsStore
  cases negated with
  | false =>
      exact find_shows_of_runnablePlan? reached.nodup_ids (by decide) rfl compiled rfl
        (by decide : ∀ page ∈ textsStore.pages, _ ↔ True)
  | true =>
      exact find_shows_of_runnablePlan? reached.nodup_ids (by decide) rfl compiled rfl
        (by decide : ∀ page ∈ textsStore.pages, _ ↔ True)

/-- A term and its negation may both fail, where the engine does not tell the names of their fields
apart, and both select a page whose fields have different texts. -/
theorem Finder.find_negated_twoFields :
    (∃ term, Selector.read "Title|title=x" = .ok [term] ∧
      Selector.read "!Title|title=x" = .ok [term.negation "!Title|title=x"] ∧
      term.kind = .attached ∧ (∀ name ∈ term.fields, (Member.splitName name).2 = "data") ∧
      twoTitles.HasDefaultTables ∧
      (∀ field ∈ twoTitles.fields, ∀ other ∈ twoTitles.fields,
        other.name.toList <+: field.name.toList → field = other) ∧
      Store.Reachable twoTitles twoTitlesStore ∧
      twoTitlesStore.HasValues (twoTitlesStore.catalog twoTitles ⟨0, false⟩ none) term ∧
      (anyStatus.find (twoTitlesStore.catalog twoTitles ⟨0, false⟩ none) twoTitlesStore.engine
        [term] false).rows = .error (.database .rejectedStatement) ∧
      (anyStatus.find (twoTitlesStore.catalog twoTitles ⟨0, false⟩ none) twoTitlesStore.engine
        [term.negation "!Title|title=x"] false).rows = .error (.database .rejectedStatement)) ∧
    ∃ term rows others, Selector.read "body|title=us" = .ok [term] ∧
      Selector.read "!body|title=us" = .ok [term.negation "!body|title=us"] ∧
      term.kind = .attached ∧ (∀ name ∈ term.fields, (Member.splitName name).2 = "data") ∧
      textsSchema.HasDefaultTables ∧ textsSchema.HasApartNames ∧
      Store.Reachable textsSchema textsStore ∧ textsStore.HasValues textsCatalog term ∧
      (anyStatus.find textsCatalog textsStore.engine [term] false).rows = .ok rows ∧
      (anyStatus.find textsCatalog textsStore.engine [term.negation "!body|title=us"] false).rows =
        .ok others ∧
      (textsStore.Shows rows fun _ => True) ∧ textsStore.Shows others fun _ => True := by
  constructor
  · let term : Term :=
      { fields := ["Title", "title"], values := ["x"], operator := .equal, negated := false
        text := "Title|title=x" }
    have compiled : anyStatus.queryFor (twoTitlesStore.catalog twoTitles ⟨0, false⟩ none) [term]
        false = .ok (eitherQuery "field_Title" "field_title" "x" false) := rfl
    have compiledToo : anyStatus.queryFor (twoTitlesStore.catalog twoTitles ⟨0, false⟩ none)
        [term.negation "!Title|title=x"] false =
          .ok (eitherQuery "field_Title" "field_title" "x" true) := rfl
    exact ⟨term, rfl, rfl, rfl, by decide, by decide, by decide, Store.reachable_twoTitlesStore,
      by decide,
      find_rows_of_error compiled (Store.execute_eitherQuery_twoTitlesStore false),
      find_rows_of_error compiledToo (Store.execute_eitherQuery_twoTitlesStore true)⟩
  · let term : Term :=
      { fields := ["body", "title"], values := ["us"], operator := .equal, negated := false
        text := "body|title=us" }
    have compiled : anyStatus.queryFor textsCatalog [term] false =
        .ok (eitherQuery "field_body" "field_title" "us" false) := rfl
    have compiledToo : anyStatus.queryFor textsCatalog [term.negation "!body|title=us"] false =
        .ok (eitherQuery "field_body" "field_title" "us" true) := rfl
    obtain ⟨rows, found, shows⟩ := find_eitherQuery_textsStore compiled
    obtain ⟨others, foundToo, showsToo⟩ := find_eitherQuery_textsStore compiledToo
    exact ⟨term, rows, others, rfl, rfl, rfl, by decide, by decide, by decide,
      Store.reachable_textsStore, by decide, found, foundToo, shows, showsToo⟩

end PageTree
