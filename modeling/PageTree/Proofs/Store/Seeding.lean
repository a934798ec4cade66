import PageTree.Proofs.Store.Imports

/-!
Imports of whole seeds. Main statement: an import without a fault adds every page that the seed
lists, each as it is listed, and neither the import nor a later page of it changes what is there.
-/

namespace PageTree

open Sql

namespace Store

variable {schema : Schema} {now : Date.Moment} {store next : Store}

/-! ### Rows of pages that exist -/

theorem RowsBelong.of_tables (belong : store.RowsBelong) (tables : next.tables = store.tables)
    (longer : store.pages.length ≤ next.pages.length) : next.RowsBelong := by
  intro table isTable row isRow
  rw [tables] at isTable
  have old := belong table isTable row isRow
  omega

theorem RowsBelong.addTemplate (belong : store.RowsBelong) (name : String) :
    (store.addTemplate name).2.RowsBelong :=
  belong.of_tables (tables_addTemplate store name) (pages_addTemplate store name ▸ Nat.le_refl _)

theorem RowsBelong.importTemplates (belong : store.RowsBelong) (names : List String)
    (report : SeedReport) : (store.importTemplates report names).1.RowsBelong := by
  induction names generalizing store report with
  | nil => exact belong
  | cons name names induction =>
      rw [Store.importTemplates]
      exact induction (belong.addTemplate name) _

/-- A page of the store is given a value. -/
theorem RowsBelong.setField (belong : store.RowsBelong) {name : String} {page : Int}
    {value : String} (isPage : page ≤ store.pages.length)
    (set : store.setField schema now name page value = .ok next) :
    next.RowsBelong ∧ next.pages.length = store.pages.length := by
  obtain ⟨field, text, table, -, -, -, -, rfl⟩ := exists_of_setField set
  have length : (store.pages.map fun row =>
      if row.id = page then { row with modified := now.text } else row).length =
        store.pages.length := List.length_map _
  refine ⟨fun changed isChanged row isRow => ?_, length⟩
  dsimp only
  rw [length]
  obtain ⟨held, isHeld, rfl⟩ := List.mem_map.1 isChanged
  split at isRow
  · rcases List.mem_append.1 isRow with kept | added
    · exact belong held isHeld row (List.mem_filter.1 kept).1
    · rw [List.mem_singleton.1 added]
      exact isPage
  · exact belong held isHeld row isRow

theorem RowsBelong.importFields (belong : store.RowsBelong) {path : String} {page : Int}
    (isPage : page ≤ store.pages.length) (report : SeedReport) (values : List (String × Datum)) :
    (Store.importFields schema now path page store report values).store.RowsBelong := by
  induction values generalizing store report with
  | nil => exact belong
  | cons entry rest induction =>
      obtain ⟨name, value⟩ := entry
      rw [Store.importFields]
      split
      · exact belong
      · split
        · exact belong
        · next next set =>
          obtain ⟨later, length⟩ := belong.setField isPage set
          exact induction later (length ▸ isPage) _

theorem RowsBelong.importPage (belong : store.RowsBelong) (report : SeedReport) (page : SeedPage) :
    (Store.importPage schema now store report page).store.RowsBelong := by
  unfold Store.importPage
  dsimp only
  split
  · exact belong
  split
  · exact belong
  have templated : (store.importTemplate page.template).2.RowsBelong :=
    belong.of_tables (tables_importTemplate store page.template)
      (pages_importTemplate store page.template ▸ Nat.le_refl _)
  split
  · exact templated
  · next id between inserted =>
    obtain ⟨row, number, rfl, -, -, pages, -⟩ := exists_row_of_insertPage inserted
    have length : between.pages.length =
        (store.importTemplate page.template).2.pages.length + 1 := by
      rw [pages, List.length_append, List.length_singleton]
    refine (templated.of_tables (insertPage_eq_ok inserted).tables (by omega)).importFields ?_ _ _
    rw [number, nextPageId, length]
    omega

theorem RowsBelong.importPages (belong : store.RowsBelong) (report : SeedReport)
    (pages : List SeedPage) :
    (Store.importPages schema now store report pages).store.RowsBelong := by
  induction pages generalizing store report with
  | nil => exact belong
  | cons page pages induction =>
      rw [Store.importPages]
      split
      · exact belong.importPage report page
      · exact induction (belong.importPage report page) _

/-! ### Stores made by seeds -/

/-- Stores that imports make of a fresh one, finished or not. -/
inductive Seeded (schema : Schema) : Store → Prop where
  | fresh {now : Date.Moment} {store : Store}
      (made : (Store.new now).ensureTables schema.fields = (store, .ok ())) : Seeded schema store
  | importSeed {store : Store} (now : Date.Moment) (seed : Seed) (seeded : Seeded schema store) :
      Seeded schema (store.importSeed schema now seed).store

theorem Seeded.reachable (seeded : Seeded schema store) : Reachable schema store := by
  induction seeded with
  | fresh made => exact .fresh made
  | importSeed now seed _ induction => exact .importSeed now seed induction

theorem Seeded.rowsBelong (seeded : Seeded schema store) : store.RowsBelong := by
  induction seeded with
  | fresh made =>
      intro table isTable row isRow
      rw [rows_of_ensureTables_new made table isTable] at isRow
      cases isRow
  | importSeed now seed _ induction => exact (induction.importTemplates _ _).importPages _ _

/-! ### Pages one after another -/

/-- What is there stays, however the store grows. -/
theorem Lands.of_isExtended {moment : Store} {id : Int} {page : SeedPage}
    (lands : Lands schema now moment store id page) (extended : store.IsExtended next)
    (before : Reachable schema store) (after : Reachable schema next) :
    Lands schema now moment next id page where
  path := extended.pageId? before after lands.path
  row := by
    obtain ⟨row, isRow, number, status, template⟩ := lands.row
    exact ⟨row, extended.pages.subset isRow, number, status,
      template.of_prefix after.hasNumberedTemplates extended.templates before.hasNumberedTemplates⟩
  values name value isValue := by
    obtain ⟨field, kind, text, stored, isField, isKind, spelled, kept, values⟩ :=
      lands.values name value isValue
    obtain ⟨row, isRow, rfl, -⟩ := lands.row
    have old := (hasPage_iff_of_isNumbered before.isNumbered).1 (hasPage_of_mem_pages isRow)
    refine ⟨field, kind, text, stored, isField, isKind, spelled, kept, ?_⟩
    rw [extended.rows.valuesOf_eq field.table (by omega), values]

theorem fault_importPage {report : SeedReport} {page : SeedPage} {pages : List SeedPage}
    (done : (importPages schema now store report (page :: pages)).fault = none) :
    (importPage schema now store report page).fault = none := by
  rw [importPages] at done
  split at done
  · next stopped => exact absurd done (stopped ▸ Option.some_ne_none _)
  · next finished => exact finished

theorem importPages_cons {report : SeedReport} {page : SeedPage} (pages : List SeedPage)
    (done : (importPage schema now store report page).fault = none) :
    importPages schema now store report (page :: pages) =
      importPages schema now (importPage schema now store report page).store
        (importPage schema now store report page).report pages := by
  rw [importPages, done]

def fieldCount (pages : List SeedPage) : Nat :=
  (pages.flatMap fun page => page.fields).length

/-- What an import of pages makes of a store. Each page is read when those up to it are there. -/
structure AreAdded (schema : Schema) (now : Date.Moment) (pages : List SeedPage)
    (moments : Nat → Store) (store next : Store) : Prop where
  extended : store.IsExtended next
  length : next.pages.length = store.pages.length + pages.length
  count : next.fieldRows.length = store.fieldRows.length + fieldCount pages
  lands : ∀ index page, pages[index]? = some page →
    Lands schema now (moments index) next (store.pages.length + index + 1 : Nat) page

theorem AreAdded.nil (moments : Nat → Store) : AreAdded schema now [] moments store store :=
  ⟨.refl store, rfl, rfl, by simp⟩

theorem AreAdded.cons {page : SeedPage} {pages : List SeedPage} {moments : Nat → Store}
    (between : Reachable schema (moments 0)) (after : Reachable schema next)
    (added : IsAdded schema now page store (moments 0))
    (rest : AreAdded schema now pages (fun index => moments (index + 1)) (moments 0) next) :
    AreAdded schema now (page :: pages) moments store next where
  extended := added.extended.trans rest.extended
  length := by
    rw [rest.length, added.length, List.length_cons]
    omega
  count := by
    rw [rest.count, added.count, fieldCount, fieldCount, List.flatMap_cons, List.length_append]
    omega
  lands index other isOther := by
    cases index with
    | zero =>
        cases isOther
        exact added.lands.of_isExtended rest.extended between after
    | succ index =>
        have lands := rest.lands index other isOther
        rwa [added.length, Nat.add_right_comm store.pages.length 1 index] at lands

theorem importPages_areAdded (own : schema.HasOwnTables) (reached : Reachable schema store)
    (belong : store.RowsBelong) {pages : List SeedPage}
    (names : ∀ page ∈ pages, page.fields.names.Nodup) (report : SeedReport)
    (done : (importPages schema now store report pages).fault = none) :
    AreAdded schema now pages
        (fun index => (importPages schema now store report (pages.take (index + 1))).store) store
        (importPages schema now store report pages).store ∧
      (importPages schema now store report pages).report = { report with
        pages := report.pages + pages.length, values := report.values + fieldCount pages } := by
  induction pages generalizing store report with
  | nil => exact ⟨.nil _, rfl⟩
  | cons page pages induction =>
      have first := fault_importPage done
      rw [importPages_cons pages first] at done ⊢
      rw [List.forall_mem_cons] at names
      obtain ⟨added, reported⟩ := importPage_isAdded own reached belong names.1 report first
      have between : Reachable schema (importPage schema now store report page).store :=
        reached.importRun (.importPage store report page)
      obtain ⟨rest, reportedRest⟩ :=
        induction between (belong.importPage report page) names.2 _ done
      simp only [List.take_succ_cons, importPages_cons _ first]
      generalize importPage schema now store report page = imported at *
      constructor
      · exact AreAdded.cons between (between.importRun (.importPages pages _ _)) added rest
      · rw [reportedRest, reported, fieldCount, fieldCount, List.flatMap_cons, List.length_append,
          List.length_cons]
        dsimp only
        congr 1 <;> omega

/-! ### Seeds -/

structure HasTemplatesAdded (report : SeedReport) (store : Store) (imported : Store × SeedReport) :
    Prop where
  templates : store.templates <+: imported.1.templates
  pages : imported.1.pages = store.pages
  tables : imported.1.tables = store.tables
  report : imported.2.pages = report.pages ∧ imported.2.values = report.values

theorem importTemplates_hasTemplatesAdded (names : List String) (store : Store)
    (report : SeedReport) :
    HasTemplatesAdded report store (store.importTemplates report names) := by
  induction names generalizing store report with
  | nil => exact ⟨List.prefix_refl _, rfl, rfl, rfl, rfl⟩
  | cons name names induction =>
      rw [importTemplates]
      have rest := induction (store.addTemplate name).2
        { report with templates := report.templates + 1 }
      exact ⟨(prefix_templates_addTemplate store name).trans rest.templates,
        rest.pages.trans (pages_addTemplate store name),
        rest.tables.trans (tables_addTemplate store name), rest.report⟩

/-- Templates of the seed come before its pages. -/
theorem AreAdded.after_templates {pages : List SeedPage} {moments : Nat → Store}
    {report : SeedReport} {imported : Store × SeedReport}
    (templated : HasTemplatesAdded report store imported)
    (added : AreAdded schema now pages moments imported.1 next) :
    AreAdded schema now pages moments store next where
  extended := by
    refine .trans ⟨templated.pages ▸ List.prefix_refl _, templated.templates, ?_⟩ added.extended
    rw [HasMoreRows, templated.tables]
    exact HasMoreRows.refl _ store
  length := by rw [added.length, templated.pages]
  count := by rw [added.count, fieldRows, templated.tables, fieldRows]
  lands := templated.pages ▸ added.lands

/-- An import without a fault adds all that the seed lists, under numbers that were free, and leaves
what was there. Its report counts what it added. A page of a seed lists a field once. -/
theorem importSeed_lands (own : schema.HasOwnTables) (seeded : Seeded schema store) {seed : Seed}
    (names : ∀ page ∈ seed.pages, page.fields.names.Nodup)
    (done : (store.importSeed schema now seed).fault = none) :
    let imported := store.importSeed schema now seed
    store.IsExtended imported.store ∧
      (∀ (index : Nat) (page : SeedPage), seed.pages[index]? = some page →
        ¬ store.HasPage (store.nextPageId + index) ∧
          Lands schema now
            (store.importSeed schema now { seed with pages := seed.pages.take (index + 1) }).store
            imported.store (store.nextPageId + index) page) ∧
      imported.store.pages.length = store.pages.length + imported.report.pages ∧
      imported.store.fieldRows.length = store.fieldRows.length + imported.report.values := by
  have run : ImportRun schema now store _ := .importTemplates seed.templates store ⟨0, 0, 0⟩
  have templated := importTemplates_hasTemplatesAdded seed.templates store ⟨0, 0, 0⟩
  obtain ⟨added, reported⟩ := importPages_areAdded own (seeded.reachable.importRun run)
    (seeded.rowsBelong.importTemplates _ _) names _ done
  replace added := added.after_templates templated
  have pageCount : (store.importSeed schema now seed).report.pages = seed.pages.length :=
    (congrArg SeedReport.pages reported).trans (by rw [templated.report.1, Nat.zero_add])
  have valueCount : (store.importSeed schema now seed).report.values = fieldCount seed.pages :=
    (congrArg SeedReport.values reported).trans (by rw [templated.report.2, Nat.zero_add])
  have numbers (index : Nat) :
      ((store.pages.length + index + 1 : Nat) : Int) = store.nextPageId + index := by
    rw [nextPageId]
    omega
  refine ⟨added.extended, fun index page isPage =>
    ⟨?_, numbers index ▸ added.lands index page isPage⟩, ?_, ?_⟩
  · rw [hasPage_iff_of_isNumbered seeded.reachable.isNumbered, nextPageId]
    omega
  · rw [pageCount]
    exact added.length
  · rw [valueCount]
    exact added.count

end Store

/-- A fresh store with the table of a title. -/
def emptyTitledStore : Store :=
  ((Store.new ⟨0, false⟩).ensureTables titleSchema.fields).1

theorem seeded_emptyTitledStore : Store.Seeded titleSchema emptyTitledStore :=
  .fresh rfl

def newsSeed : Seed where
  templates := ["basic"]
  pages :=
    [{ path := "/news/", template := some "basic", status := some (.labels "hidden locked")
       created := none, fields := [("title", .text "News")] },
      { path := "news//first", template := none, status := none, created := none
        fields := [("title", .text "/news/")] }]

theorem Store.importSeed_lands_newsSeed :
    let imported := emptyTitledStore.importSeed titleSchema ⟨0, false⟩ newsSeed
    imported.fault = none ∧ imported.store.pageId? "news//first" = some 3 ∧
      imported.store.pages.length = 3 := by
  have done : (emptyTitledStore.importSeed titleSchema ⟨0, false⟩ newsSeed).fault = none := rfl
  obtain ⟨-, lands, length, -⟩ :=
    importSeed_lands (by decide) seeded_emptyTitledStore (by decide) done
  exact ⟨done, (lands 1 _ rfl).2.path, length⟩

/-- The root is named by every path without names, but only a single slash stands for its number. -/
def slashSeed : Seed where
  templates := []
  pages := [{ path := "/a/", template := none, status := none, created := none
              fields := [("title", .text "//")] }]

theorem Store.importSeed_slashSeed :
    let imported := emptyTitledStore.importSeed titleSchema ⟨0, false⟩ slashSeed
    titleSchema.HasOwnTables ∧ Store.Seeded titleSchema emptyTitledStore ∧ imported.fault = none ∧
      emptyTitledStore.pageId? "//" = some rootId ∧ imported.store.pageId? "//" = some rootId ∧
      imported.store.valuesOf "field_title" 2 = [.text "//"] ∧
      imported.store.valuesOf "field_title" 2 ≠ [.text (toString rootId)] := by
  refine ⟨by decide, seeded_emptyTitledStore, rfl, rfl, rfl, rfl, by decide⟩

end PageTree
