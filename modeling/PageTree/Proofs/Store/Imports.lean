import PageTree.Proofs.Store.Ancestry
import PageTree.Proofs.Store.Templates

/-!
What the import of one page of a seed leaves. Main statement: without a fault it adds the page where
its path says, with its status, its template and its values, and leaves all that was there before as
it was.
-/

namespace PageTree

open Sql

theorem Field.kind?_eq_ok_iff {field : Field} {kind : FieldKind} :
    field.kind? = .ok kind ↔ field.kind = kind.name := by
  unfold Field.kind?
  constructor
  · intro isKind
    split at isKind
    · next found =>
      cases isKind
      have named := List.find?_some found
      exact (of_decide_eq_true named).symm
    · cases isKind
  · intro named
    rw [named, FieldKind.ofName?_name]

namespace Store

variable {schema : Schema} {now : Date.Moment} {store next : Store}

/-! ### Scalars of a seed -/

def HasOuterSlashes (s : String) : Prop :=
  s.toList.head? = some '/' ∧ s.toList.getLast? = some '/'

instance (s : String) : Decidable (HasOuterSlashes s) :=
  inferInstanceAs (Decidable (_ ∧ _))

/-- The text that a scalar is stored as. A path with slashes around it stands for the page that it
leads to; for the root stands only the path of a single slash. -/
inductive IsSpelled (store : Store) : Datum → String → Prop where
  | page {path : String} {id : Int} (slashes : HasOuterSlashes path)
      (found : store.pageId? path = some id) (proper : id ≠ rootId ∨ path = "/") :
      IsSpelled store (.text path) (toString id)
  | text {s : String}
      (plain : HasOuterSlashes s → ∀ id, store.pageId? s = some id → id = rootId ∧ s ≠ "/") :
      IsSpelled store (.text s) s
  | integer (n : Int) : IsSpelled store (.integer n) (toString n)
  | real (x : Number.Binary64) : IsSpelled store (.real x) x.compact
  | bool (b : Bool) : IsSpelled store (.bool b) (if b then "1" else "0")

theorem referenceId?_eq_some_iff {s : String} {id : Int} :
    store.referenceId? s = some id ↔
      HasOuterSlashes s ∧ store.pageId? s = some id ∧ (id ≠ rootId ∨ s = "/") := by
  unfold referenceId?
  split
  · next slashes =>
    rw [Option.filter_eq_some_iff, Bool.or_eq_true, decide_eq_true_eq, decide_eq_true_eq]
    exact ⟨fun found => ⟨slashes, found⟩, And.right⟩
  · next bare =>
    have plain : ¬ HasOuterSlashes s := bare
    simp [plain]

theorem isSpelled_of_seedText? {value : Datum} {text : String}
    (read : store.seedText? value = some text) : store.IsSpelled value text := by
  cases value with
  | text s =>
      rw [seedText?, Option.some.injEq] at read
      subst read
      cases found : store.referenceId? s with
      | some id =>
          obtain ⟨slashes, found, proper⟩ := referenceId?_eq_some_iff.1 found
          exact .page slashes found proper
      | none =>
          refine .text fun slashes id isPage => ?_
          by_contra proper
          rw [not_and_or, not_not] at proper
          rw [referenceId?_eq_some_iff.2 ⟨slashes, isPage, proper⟩] at found
          cases found
  | integer n =>
      cases read
      exact .integer n
  | real x =>
      cases read
      exact .real x
  | bool b =>
      cases read
      exact .bool b
  | _ => cases read

/-- What a field of a kind keeps of a text: of a date how it is written out, and of a number the
number itself where the column is one of numbers. -/
inductive IsKeptAs (now : Date.Moment) : FieldKind → String → Value → Prop where
  | words {kind : FieldKind} {s : String} (isWords : kind = .text ∨ kind = .textarea) :
      IsKeptAs now kind s (.text s)
  | date {s date : String} (read : Date.normalize? now s = some date) :
      IsKeptAs now .datetime s (.text date)
  | number {kind : FieldKind} {s : String} (isNumber : kind = .integer ∨ kind = .page) :
      IsKeptAs now kind s (Value.store .integer (.text s))

theorem isKeptAs_of_storedText {field : Field} {kind : FieldKind} {s stored : String}
    (isKind : field.kind? = .ok kind) (isStored : storedText now field s = .ok stored) :
    IsKeptAs now kind s (Value.store kind.affinity (.text stored)) := by
  rw [storedText] at isStored
  split at isStored
  · next isDate =>
    cases isKind.symm.trans (Field.kind?_eq_ok_iff.2 isDate)
    split at isStored
    · next date read =>
      cases isStored
      exact .date read
    · cases isStored
  · next other =>
    cases isStored
    cases kind with
    | text => exact .words (.inl rfl)
    | textarea => exact .words (.inr rfl)
    | integer => exact .number (.inl rfl)
    | page => exact .number (.inr rfl)
    | datetime => exact absurd (Field.kind?_eq_ok_iff.1 isKind) other

/-- The only value of a field of a page is what a scalar of a seed becomes, read in a store of a
moment of the import. -/
def HoldsScalar (schema : Schema) (now : Date.Moment) (moment next : Store) (id : Int)
    (name : String) (scalar : Datum) : Prop :=
  ∃ field kind text value, schema.field? name = some field ∧ field.kind? = .ok kind ∧
    moment.IsSpelled scalar text ∧ IsKeptAs now kind text value ∧
      next.valuesOf field.table id = [value]

theorem seedText?_congr (same : ∀ path, next.pageId? path = store.pageId? path) (value : Datum) :
    next.seedText? value = store.seedText? value := by
  cases value with
  | text s => simp only [seedText?, referenceId?, same]
  | _ => rfl

/-! ### Templates of a seed -/

/-- The number is that of the template with this name, and zero without a name. -/
def HasTemplate (store : Store) (id : Int) : Option String → Prop
  | some name => store.templateName? id = some name
  | none => id = 0

theorem hasTemplate_congr (templates : next.templates = store.templates) (id : Int)
    (name : Option String) : next.HasTemplate id name ↔ store.HasTemplate id name := by
  cases name with
  | none => exact Iff.rfl
  | some name => rw [HasTemplate, HasTemplate, templateName?, templateName?, templates]

theorem prefix_templates_importTemplate (store : Store) (name : Option String) :
    store.templates <+: (store.importTemplate name).2.templates := by
  cases name with
  | none => exact List.prefix_refl _
  | some name => exact prefix_templates_addTemplate store name

theorem tables_importTemplate (store : Store) (name : Option String) :
    (store.importTemplate name).2.tables = store.tables := by
  cases name with
  | none => rfl
  | some name => exact tables_addTemplate store name

theorem Reachable.importTemplate (reached : Reachable schema store) (name : Option String) :
    Reachable schema (store.importTemplate name).2 := by
  cases name with
  | none => exact reached
  | some name => exact reached.addTemplate name

theorem hasTemplate_importTemplate (numbered : store.HasNumberedTemplates) (name : Option String) :
    (store.importTemplate name).2.HasTemplate (store.importTemplate name).1 name := by
  cases name with
  | none => rfl
  | some name => exact templateName?_addTemplate numbered name

theorem HasTemplate.of_prefix (numbered : next.HasNumberedTemplates)
    (grown : store.templates <+: next.templates) (before : store.HasNumberedTemplates) {id : Int}
    {name : Option String} (template : store.HasTemplate id name) : next.HasTemplate id name := by
  cases name with
  | none => exact template
  | some name => exact templateName?_of_prefix numbered grown before template

/-! ### Paths in growing stores -/

theorem Leads.mono (larger : store.places ⊆ next.places) {names : List String} {id : Int}
    (leads : store.Leads names id) : next.Leads names id := by
  induction leads with
  | root => exact .root
  | child above isPlace induction => exact .child induction (larger isPlace)

theorem pageId?_congr (apart : store.HasApartSiblings) (places : next.places = store.places)
    (path : String) : next.pageId? path = store.pageId? path := by
  have apartNext : next.HasApartSiblings := by rwa [HasApartSiblings, places]
  refine Option.ext fun id => ?_
  rw [pageId?_eq_some_iff apart, pageId?_eq_some_iff apartNext]
  exact ⟨Leads.mono (places ▸ List.Subset.refl _), Leads.mono (places ▸ List.Subset.refl _)⟩

/-- The path of a page of a seed leads to it once it is below its parent. -/
theorem IsInserted.pageId?_split {page : NewPage} (apart : store.HasApartSiblings)
    (inserted : store.IsInserted page next) {path : String}
    (named : (SeedPage.split path).2 ≠ "") (name : page.name = (SeedPage.split path).2)
    (parent : store.pageId? (SeedPage.split path).1 = some page.parent) :
    next.pageId? path = some store.nextPageId := by
  rw [pageId?_eq_some_iff (inserted.hasApartSiblings apart), pathNames_split named,
    leads_concat_iff]
  refine ⟨page.parent, ?_, ?_⟩
  · have leads := (pageId?_eq_some_iff apart).1 parent
    exact leads.mono (inserted.places ▸ List.subset_append_left _ _)
  · rw [inserted.places, ← name]
    exact List.mem_append_right _ (List.mem_singleton_self _)

/-! ### Stores that grow -/

theorem Reachable.importRun (reached : Reachable schema store)
    (run : ImportRun schema now store next) : Reachable schema next := by
  induction run with
  | refl => exact reached
  | tail _ step induction =>
      cases step with
      | addTemplate name => exact induction.addTemplate name
      | insertPage _ _ inserted => exact induction.insertPage inserted
      | setField set => exact induction.setField set

/-- All that was in the store is there as it was, before what was added. Rows were added for new
pages alone. -/
structure IsExtended (store next : Store) : Prop where
  pages : store.pages <+: next.pages
  templates : store.templates <+: next.templates
  rows : store.HasMoreRows (fun page => (store.pages.length : Int) < page) next

namespace IsExtended

theorem refl (store : Store) : store.IsExtended store :=
  ⟨List.prefix_refl _, List.prefix_refl _, .refl _ store⟩

theorem trans {last : Store} (first : store.IsExtended next) (second : next.IsExtended last) :
    store.IsExtended last where
  pages := first.pages.trans second.pages
  templates := first.templates.trans second.templates
  rows := by
    refine first.rows.trans (second.rows.imp fun _ _ extended => extended.mono fun page above => ?_)
    have longer := first.pages.length_le
    omega

theorem subset_places (extended : store.IsExtended next) : store.places ⊆ next.places :=
  List.map_subset _ extended.pages.subset

theorem pageId? (extended : store.IsExtended next) (before : Reachable schema store)
    (after : Reachable schema next) {path : String} {id : Int}
    (found : store.pageId? path = some id) : next.pageId? path = some id := by
  rw [pageId?_eq_some_iff before.hasApartSiblings] at found
  rw [pageId?_eq_some_iff after.hasApartSiblings]
  exact found.mono extended.subset_places

end IsExtended

theorem places_eq_of_pages {front : List Page} {row last : Page}
    (pages : store.pages = front ++ [row]) (pagesNext : next.pages = front ++ [last])
    (place : last.place = row.place) : next.places = store.places := by
  rw [Store.places, Store.places, pages, pagesNext, List.map_append, List.map_append,
    List.map_singleton, List.map_singleton, place]

/-! ### Values of one page -/

theorem sameName_tables_eq_false (own : schema.HasOwnTables) {name other : String}
    (differs : name ≠ other) {field field' : Field} (isField : schema.field? name = some field)
    (isOther : schema.field? other = some field') :
    sameName field.table field'.table = false := by
  rw [Bool.eq_false_iff]
  intro same
  have equal := own.eq_of_sameName (Schema.mem_fields_of_field? isField)
    (Schema.mem_fields_of_field? isOther) same
  obtain ⟨declaration, -, rfl⟩ := Option.map_eq_some_iff.1 isField
  obtain ⟨declaration', -, rfl⟩ := Option.map_eq_some_iff.1 isOther
  exact differs (congrArg Field.name equal)

/-- What giving values to the last page makes of a store. -/
structure IsFilled (schema : Schema) (now : Date.Moment) (values : List (String × Datum))
    (front : List Page) (row : Page) (store next : Store) : Prop where
  pages : ∃ modified, next.pages = front ++ [{ row with modified }]
  templates : next.templates = store.templates
  rows : store.HasMoreRows (· = row.id) next
  count : next.fieldRows.length = store.fieldRows.length + values.length
  others : ∀ table, (∀ entry ∈ values, ∀ field, schema.field? entry.1 = some field →
    sameName table field.table = false) →
      ∀ page, next.valuesOf table page = store.valuesOf table page
  values : ∀ name value, (name, value) ∈ values →
    HoldsScalar schema now next next row.id name value

theorem IsFilled.nil {front : List Page} {row : Page} (pages : store.pages = front ++ [row]) :
    IsFilled schema now [] front row store store where
  pages := ⟨row.modified, pages⟩
  templates := rfl
  rows := .refl _ store
  count := rfl
  others _ _ _ := rfl
  values := by simp

section

variable {front : List Page} {row : Page} (pages : store.pages = front ++ [row])

include pages

theorem pages_setField_last (others : ∀ page ∈ front, page.id ≠ row.id) {name value : String}
    (set : store.setField schema now name row.id value = .ok next) :
    next.pages = front ++ [{ row with modified := now.text }] := by
  obtain ⟨field, text, table, -, -, -, -, rfl⟩ := exists_of_setField set
  have kept : (front.map fun page =>
      if page.id = row.id then { page with modified := now.text } else page) = front :=
    (List.map_congr_left fun page isPage => if_neg (others page isPage)).trans (List.map_id _)
  dsimp only
  rw [pages, List.map_append, kept, List.map_singleton, if_pos rfl]

/-- The first value is read in a store with the same pages, and the values after it go to other
tables. -/
theorem IsFilled.cons (own : schema.HasOwnTables) (reached : Reachable schema store)
    {name : String} {value : Datum} {text : String} {rest : List (String × Datum)} {between : Store}
    (fresh : ∀ entry ∈ rest, entry.1 ≠ name)
    (lacks : ∀ field, schema.field? name = some field → store.Lacks field.table row.id)
    (read : store.seedText? value = some text)
    (set : store.setField schema now name row.id text = .ok between)
    (filled : IsFilled schema now rest front { row with modified := now.text } between next) :
    IsFilled schema now ((name, value) :: rest) front row store next := by
  obtain ⟨field, stored, table, isField, isStored, found, -, rfl⟩ := exists_of_setField set
  obtain ⟨_, kind, _, isKind, sameTable, affinity⟩ :=
    reached.holds own (Schema.mem_fields_of_field? isField)
  cases found.symm.trans sameTable
  have absent := lacks field isField
  refine ⟨filled.pages, filled.templates, ?_, ?_, fun other apart page => ?_, ?_⟩
  · exact (hasMoreRows_changeTable absent stored).trans filled.rows
  · have one := length_fieldRows_changeTable reached.hasApartTables found absent stored
    rw [filled.count, List.length_cons]
    exact (congrArg (· + rest.length) one).trans (by omega)
  · rw [List.forall_mem_cons] at apart
    rw [filled.others other apart.2 page]
    exact valuesOf_changeTable_of_apart field.table row.id stored (apart.1 field isField) page
  · intro name' value' member
    rcases List.mem_cons.1 member with first | later
    · cases first
      obtain ⟨modified, pagesNext⟩ := filled.pages
      have places := places_eq_of_pages pages pagesNext rfl
      have spelled : next.seedText? value = some text :=
        (seedText?_congr (pageId?_congr reached.hasApartSiblings places) value).trans read
      have unmoved : ∀ entry ∈ rest, ∀ field', schema.field? entry.1 = some field' →
          sameName field.table field'.table = false := fun entry isEntry _ isOther =>
        sameName_tables_eq_false own (fresh entry isEntry).symm isField isOther
      refine ⟨field, kind, text, _, isField, isKind, isSpelled_of_seedText? spelled,
        isKeptAs_of_storedText isKind isStored, ?_⟩
      rw [filled.others field.table unmoved, ← affinity]
      exact valuesOf_changeTable field.table row.id stored found
    · exact filled.values name' value' later

end

theorem importFields_isFilled (own : schema.HasOwnTables) {path : String}
    {values : List (String × Datum)} (names : (values.map Prod.fst).Nodup) {front : List Page}
    {row : Page} (others : ∀ page ∈ front, page.id ≠ row.id) (reached : Reachable schema store)
    (pages : store.pages = front ++ [row])
    (lacks : ∀ entry ∈ values, ∀ field, schema.field? entry.1 = some field →
      store.Lacks field.table row.id) (report : SeedReport)
    (done : (importFields schema now path row.id store report values).fault = none) :
    let imported := importFields schema now path row.id store report values
    IsFilled schema now values front row store imported.store ∧
      imported.report = { report with values := report.values + values.length } := by
  induction values generalizing store report row with
  | nil => exact ⟨.nil pages, rfl⟩
  | cons entry rest induction =>
      obtain ⟨name, value⟩ := entry
      rw [List.map_cons, List.nodup_cons] at names
      rw [List.forall_mem_cons] at lacks
      rw [importFields] at done ⊢
      cases read : store.seedText? value with
      | none => rw [read] at done; cases done
      | some text =>
          rw [read] at done
          dsimp only at done ⊢
          cases set : store.setField schema now name row.id text with
          | error error => rw [set] at done; cases done
          | ok between =>
              rw [set] at done
              dsimp only at done ⊢
              have fresh : ∀ entry ∈ rest, entry.1 ≠ name := fun entry isEntry same =>
                names.1 (List.mem_map.2 ⟨entry, isEntry, same⟩)
              have othersMarked : ∀ page ∈ front,
                  page.id ≠ ({ row with modified := now.text } : Page).id := others
              have lacksBetween : ∀ entry ∈ rest, ∀ field, schema.field? entry.1 = some field →
                  between.Lacks field.table row.id := by
                obtain ⟨changed, stored, table, isChanged, -, -, -, rfl⟩ := exists_of_setField set
                intro entry isEntry field isField
                exact (lacks.2 entry isEntry field isField).changeTable
                  (sameName_tables_eq_false own (fresh entry isEntry) isField isChanged) stored
              obtain ⟨filled, report'⟩ := induction names.2 othersMarked (reached.setField set)
                (pages_setField_last pages others set) lacksBetween
                  { report with values := report.values + 1 } done
              refine ⟨.cons pages own reached fresh lacks.1 read set filled, ?_⟩
              rw [report', List.length_cons]
              dsimp only
              congr 1
              omega

/-! ### Pages -/

/-- Rows of fields belong to pages. -/
def RowsBelong (store : Store) : Prop :=
  ∀ table ∈ store.tables, ∀ row ∈ table.rows, row.page ≤ store.pages.length

/-- What a page of a seed becomes in a store, under a number. Its values are read at a moment of
the import. -/
structure Lands (schema : Schema) (now : Date.Moment) (moment next : Store) (id : Int)
    (page : SeedPage) : Prop where
  path : next.pageId? page.path = some id
  row : ∃ row ∈ next.pages, row.id = id ∧
    row.status = (page.status.map SeedStatus.value).getD Status.on ∧
      next.HasTemplate row.template page.template
  values : ∀ name value, (name, value) ∈ page.fields →
    HoldsScalar schema now moment next id name value

/-- What the import of a page makes of a store. -/
structure IsAdded (schema : Schema) (now : Date.Moment) (page : SeedPage) (store next : Store) :
    Prop where
  extended : store.IsExtended next
  length : next.pages.length = store.pages.length + 1
  count : next.fieldRows.length = store.fieldRows.length + page.fields.length
  lands : Lands schema now next next store.nextPageId page

theorem exists_of_importPage {report : SeedReport} {page : SeedPage}
    (done : (importPage schema now store report page).fault = none) :
    ∃ parent id between, (SeedPage.split page.path).2 ≠ "" ∧
      store.pageId? (SeedPage.split page.path).1 = some parent ∧
      (store.importTemplate page.template).2.insertPage now
        { parent, template := (store.importTemplate page.template).1
          name := (SeedPage.split page.path).2
          status := (page.status.map SeedStatus.value).getD Status.on
          created := page.created } = .ok (id, between) ∧
      importPage schema now store report page =
        importFields schema now page.path id between { report with pages := report.pages + 1 }
          page.fields := by
  unfold importPage at done ⊢
  dsimp only at done ⊢
  split at done
  · cases done
  next named =>
  rw [if_neg named]
  split at done
  · cases done
  next parent below =>
  split at done
  · cases done
  next id between inserted =>
  exact ⟨parent, id, between, named, below, inserted, rfl⟩

theorem ne_nextPageId (numbered : store.IsNumbered) {page : Page} (isPage : page ∈ store.pages) :
    page.id ≠ store.nextPageId := by
  intro same
  exact not_hasPage_nextPageId numbered (same ▸ hasPage_of_mem_pages isPage)

/-- The page added last, once it has its values, is the one that the seed lists. -/
theorem IsFilled.isAdded {page : SeedPage} {row : Page} {between : Store}
    (reached : Reachable schema between) (number : row.id = store.nextPageId)
    (status : row.status = (page.status.map SeedStatus.value).getD Status.on)
    (template : next.HasTemplate row.template page.template)
    (pages : between.pages = store.pages ++ [row]) (tables : between.tables = store.tables)
    (templates : store.templates <+: between.templates)
    (path : between.pageId? page.path = some row.id)
    (filled : IsFilled schema now page.fields store.pages row between next) :
    IsAdded schema now page store next := by
  obtain ⟨modified, pagesNext⟩ := filled.pages
  have rows := filled.rows
  rw [HasMoreRows, tables] at rows
  refine ⟨⟨?_, ?_, ?_⟩, ?_, ?_, ?_, ?_, ?_⟩
  · exact ⟨_, pagesNext.symm⟩
  · rwa [filled.templates]
  · refine rows.imp fun _ _ extended => extended.mono ?_
    rintro _ rfl
    rw [number, nextPageId]
    omega
  · rw [pagesNext, List.length_append, List.length_singleton]
  · rw [filled.count, fieldRows, tables, fieldRows]
  · have places := places_eq_of_pages pages pagesNext rfl
    rw [pageId?_congr reached.hasApartSiblings places, path, number]
  · refine ⟨{ row with modified }, ?_, number, status, template⟩
    rw [pagesNext]
    exact List.mem_append_right _ (List.mem_singleton_self _)
  · rw [← number]
    exact filled.values

theorem exists_row_of_insertPage {page : NewPage} {id : Int}
    (inserted : store.insertPage now page = .ok (id, next)) :
    ∃ row : Page, row.id = store.nextPageId ∧ id = row.id ∧ row.template = page.template ∧
      row.status = page.status ∧ next.pages = store.pages ++ [row] ∧
      next.templates = store.templates := by
  obtain ⟨created, -, -, rfl, rfl⟩ := exists_of_insertPage inserted
  exact ⟨_, rfl, rfl, rfl, rfl, rfl, rfl⟩

theorem RowsBelong.lacks_nextPageId (belong : store.RowsBelong) (table : String) :
    store.Lacks table store.nextPageId := by
  intro held isHeld _ row isRow
  have old := belong held isHeld row isRow
  rw [nextPageId]
  omega

theorem importPage_isAdded (own : schema.HasOwnTables) (reached : Reachable schema store)
    (belong : store.RowsBelong) {page : SeedPage} (names : page.fields.names.Nodup)
    (report : SeedReport) (done : (importPage schema now store report page).fault = none) :
    let imported := importPage schema now store report page
    IsAdded schema now page store imported.store ∧
      imported.report = { report with
        pages := report.pages + 1, values := report.values + page.fields.length } := by
  obtain ⟨parent, id, between, named, below, inserted, equality⟩ := exists_of_importPage done
  rw [equality] at done ⊢
  have templated := reached.importTemplate page.template
  have reachedBetween := templated.insertPage inserted
  have isInserted := insertPage_eq_ok inserted
  obtain ⟨row, number, rfl, template, status, pages, templates⟩ :=
    exists_row_of_insertPage inserted
  have tables := isInserted.tables.trans (tables_importTemplate store page.template)
  have path : between.pageId? page.path = some row.id := by
    rw [number]
    refine isInserted.pageId?_split templated.hasApartSiblings named rfl ?_
    rw [pageId?_importTemplate]
    exact below
  rw [pages_importTemplate] at pages
  rw [nextPageId, pages_importTemplate, ← nextPageId] at number
  have others : ∀ other ∈ store.pages, other.id ≠ row.id := fun other isPage =>
    number ▸ ne_nextPageId reached.isNumbered isPage
  have lacks (table : String) : between.Lacks table row.id := by
    rw [Lacks, tables, number]
    exact belong.lacks_nextPageId table
  obtain ⟨filled, report'⟩ := importFields_isFilled own names others reachedBetween pages
    (fun _ _ field _ => lacks field.table) _ done
  refine ⟨filled.isAdded reachedBetween number status ?_ pages tables ?_ path, report'⟩
  · rw [hasTemplate_congr (filled.templates.trans templates), template]
    exact hasTemplate_importTemplate reached.hasNumberedTemplates page.template
  · rw [templates]
    exact prefix_templates_importTemplate store page.template

end Store

end PageTree
