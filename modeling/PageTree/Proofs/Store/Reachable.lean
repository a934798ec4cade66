import Mathlib.Data.List.Nodup
import Mathlib.Logic.Relation
import PageTree.Proofs.Compile.Words
import PageTree.Proofs.Store.Paths
import PageTree.Proofs.Store.Transaction
import PageTree.Store.Definition
import PageTree.Store.Seed

/-!
Stores that a site can come to: a fresh one with the tables of its fields, and whatever templates,
pages, values and seeds make of it. Main statements: what single changes keep, every such store has;
pages are numbered from one without a gap.
-/

namespace PageTree

open Sql

namespace Store

inductive Reachable (schema : Schema) : Store → Prop where
  | fresh {now : Date.Moment} {store : Store}
      (made : (Store.new now).ensureTables schema.fields = (store, .ok ())) :
      Reachable schema store
  | addTemplate {store : Store} (name : String) (reached : Reachable schema store) :
      Reachable schema (store.addTemplate name).2
  | insertPage {store next : Store} {now : Date.Moment} {page : NewPage} {id : Int}
      (reached : Reachable schema store) (inserted : store.insertPage now page = .ok (id, next)) :
      Reachable schema next
  | setField {store next : Store} {now : Date.Moment} {name : String} {page : Int} {value : String}
      (reached : Reachable schema store)
      (set : store.setField schema now name page value = .ok next) : Reachable schema next
  | importSeed {store : Store} (now : Date.Moment) (seed : Seed)
      (reached : Reachable schema store) :
      Reachable schema (store.importSeed schema now seed).store

/-! ### Imports -/

theorem pages_addTemplate (store : Store) (name : String) :
    (store.addTemplate name).2.pages = store.pages := by
  unfold addTemplate
  dsimp only
  split <;> rfl

theorem pages_importTemplate (store : Store) (name : Option String) :
    (store.importTemplate name).2.pages = store.pages := by
  cases name with
  | none => rfl
  | some name => exact pages_addTemplate store name

theorem descend?_congr {store next : Store} (pages : next.pages = store.pages) (id : Int)
    (names : List String) : next.descend? id names = store.descend? id names := by
  induction names generalizing id with
  | nil => rfl
  | cons name names induction =>
      rw [descend?, descend?, child?, child?, pages]
      exact congrArg _ (funext fun page => induction page.id)

theorem pageId?_importTemplate (store : Store) (name : Option String) (path : String) :
    (store.importTemplate name).2.pageId? path = store.pageId? path :=
  descend?_congr (pages_importTemplate store name) rootId (pathNames path)

/-- One change that an import makes. A page is added below one that its path leads to. -/
inductive ImportStep (schema : Schema) (now : Date.Moment) : Store → Store → Prop where
  | addTemplate (store : Store) (name : String) :
      ImportStep schema now store (store.addTemplate name).2
  | insertPage {store next : Store} {page : NewPage} {path : String} {id : Int}
      (below : store.pageId? path = some page.parent) (named : IsPathName page.name)
      (inserted : store.insertPage now page = .ok (id, next)) : ImportStep schema now store next
  | setField {store next : Store} {name : String} {page : Int} {value : String}
      (set : store.setField schema now name page value = .ok next) :
      ImportStep schema now store next

/-- An import of any length, finished or not. -/
abbrev ImportRun (schema : Schema) (now : Date.Moment) : Store → Store → Prop :=
  Relation.ReflTransGen (ImportStep schema now)

namespace ImportRun

variable {schema : Schema} {now : Date.Moment}

theorem importTemplates (names : List String) (store : Store) (report : SeedReport) :
    ImportRun schema now store (store.importTemplates report names).1 := by
  induction names generalizing store report with
  | nil => exact .refl
  | cons name names induction =>
      rw [Store.importTemplates]
      exact .head (.addTemplate store name) (induction _ _)

theorem importFields {path : String} {page : Int} (values : List (String × Datum)) (store : Store)
    (report : SeedReport) :
    ImportRun schema now store
      (Store.importFields schema now path page store report values).store := by
  induction values generalizing store report with
  | nil => exact .refl
  | cons entry rest induction =>
      obtain ⟨field, value⟩ := entry
      rw [Store.importFields]
      split
      · exact .refl
      · split
        · exact .refl
        · next next changed => exact .head (.setField changed) (induction _ _)

theorem importTemplate (store : Store) (name : Option String) :
    ImportRun schema now store (store.importTemplate name).2 := by
  cases name with
  | none => exact .refl
  | some name => exact .single (.addTemplate store name)

theorem importPage (store : Store) (report : SeedReport) (page : SeedPage) :
    ImportRun schema now store (Store.importPage schema now store report page).store := by
  unfold Store.importPage
  dsimp only
  split
  · exact .refl
  · next named =>
    split
    · exact .refl
    · next parent below =>
      have template : ImportRun schema now store (store.importTemplate page.template).2 :=
        importTemplate store page.template
      split
      · exact template
      · next id next inserted =>
        rw [← pageId?_importTemplate store page.template] at below
        exact (template.tail (.insertPage below (isPathName_split named) inserted)).trans
          (importFields _ _ _)

theorem importPages (pages : List SeedPage) (store : Store) (report : SeedReport) :
    ImportRun schema now store (Store.importPages schema now store report pages).store := by
  induction pages generalizing store report with
  | nil => exact .refl
  | cons page pages induction =>
      rw [Store.importPages]
      split
      · exact importPage store report page
      · exact (importPage store report page).trans (induction _ _)

theorem importSeed (seed : Seed) (store : Store) :
    ImportRun schema now store (store.importSeed schema now seed).store :=
  (importTemplates _ _ _).trans (importPages _ _ _)

end ImportRun

/-- A property that single changes keep. -/
structure IsKept (schema : Schema) (p : Store → Prop) : Prop where
  addTemplate : ∀ (store : Store) (name : String), p store → p (store.addTemplate name).2
  insertPage : ∀ (store next : Store) (now : Date.Moment) (page : NewPage) (id : Int),
    store.insertPage now page = .ok (id, next) → p store → p next
  setField : ∀ (store next : Store) (now : Date.Moment) (name : String) (page : Int)
    (value : String), store.setField schema now name page value = .ok next → p store → p next

namespace IsKept

variable {schema : Schema} {p : Store → Prop}

theorem importStep (kept : IsKept schema p) {now : Date.Moment} {store next : Store}
    (step : ImportStep schema now store next) (holds : p store) : p next := by
  cases step with
  | addTemplate name => exact kept.addTemplate _ _ holds
  | insertPage _ _ inserted => exact kept.insertPage _ _ _ _ _ inserted holds
  | setField set => exact kept.setField _ _ _ _ _ _ set holds

theorem importRun (kept : IsKept schema p) {now : Date.Moment} {store next : Store}
    (run : ImportRun schema now store next) (holds : p store) : p next := by
  induction run with
  | refl => exact holds
  | tail _ step induction => exact kept.importStep step induction

theorem of_reachable (kept : IsKept schema p)
    (fresh : ∀ (now : Date.Moment) (store : Store),
      (Store.new now).ensureTables schema.fields = (store, .ok ()) → p store)
    {store : Store} (reached : Reachable schema store) : p store := by
  induction reached with
  | fresh made => exact fresh _ _ made
  | addTemplate name _ induction => exact kept.addTemplate _ _ induction
  | insertPage _ inserted induction => exact kept.insertPage _ _ _ _ _ inserted induction
  | setField _ set induction => exact kept.setField _ _ _ _ _ _ set induction
  | importSeed now seed _ induction => exact kept.importRun (.importSeed seed _) induction

end IsKept

/-! ### What single changes do -/

/-- Where a page stands in the tree. -/
structure Place where
  id : Int
  parent : Int
  name : String

end Store

def Page.place (page : Page) : Store.Place :=
  ⟨page.id, page.parent, page.name⟩

namespace Store

def places (store : Store) : List Place :=
  store.pages.map Page.place

theorem map_id_places (store : Store) : store.places.map Place.id = store.pages.map Page.id := by
  rw [places, List.map_map]
  rfl

theorem places_addTemplate (store : Store) (name : String) :
    (store.addTemplate name).2.places = store.places := by
  rw [places, pages_addTemplate, places]

theorem tables_addTemplate (store : Store) (name : String) :
    (store.addTemplate name).2.tables = store.tables := by
  unfold addTemplate
  dsimp only
  split <;> rfl

theorem ancestry_addTemplate (store : Store) (name : String) :
    (store.addTemplate name).2.ancestry = store.ancestry := by
  unfold addTemplate
  dsimp only
  split <;> rfl

/-- What the addition of a page does to a store. -/
structure IsInserted (store : Store) (page : NewPage) (next : Store) : Prop where
  apart : store.child? page.parent page.name = none
  tables : next.tables = store.tables
  places : next.places = store.places ++ [⟨store.nextPageId, page.parent, page.name⟩]
  ancestry : next.ancestry = store.extendAncestry store.nextPageId page.parent

/-- What the addition of a page makes of a store. -/
theorem exists_of_insertPage {store next : Store} {now : Date.Moment} {page : NewPage} {id : Int}
    (inserted : store.insertPage now page = .ok (id, next)) :
    ∃ created, createdText now page = .ok created ∧ store.child? page.parent page.name = none ∧
      id = store.nextPageId ∧
      next = { store with
        pages := store.pages ++
          [{ id := store.nextPageId, parent := page.parent, template := page.template
             name := page.name, status := page.status, created, modified := created }]
        ancestry := store.extendAncestry store.nextPageId page.parent } := by
  obtain ⟨created, isCreated, inserted⟩ := bind_eq_ok.1 inserted
  split at inserted
  · cases inserted
  · next apart =>
    cases inserted
    exact ⟨created, isCreated, by simpa using apart, rfl, rfl⟩

theorem insertPage_eq_ok {store next : Store} {now : Date.Moment} {page : NewPage} {id : Int}
    (inserted : store.insertPage now page = .ok (id, next)) : store.IsInserted page next := by
  obtain ⟨created, -, apart, -, rfl⟩ := exists_of_insertPage inserted
  exact ⟨apart, rfl, List.map_append, rfl⟩

/-- What giving a field of a page a value makes of a store. -/
theorem exists_of_setField {schema : Schema} {store next : Store} {now : Date.Moment}
    {name : String} {page : Int} {value : String}
    (set : store.setField schema now name page value = .ok next) :
    ∃ field text table, schema.field? name = some field ∧ storedText now field value = .ok text ∧
      store.table? field.table = some table ∧ text.utf8ByteSize ≤ textLimit ∧
      next = { store.changeTable field.table (FieldTable.set · page text) with
        pages := store.pages.map fun row =>
          if row.id = page then { row with modified := now.text } else row } := by
  unfold Store.setField at set
  split at set
  · cases set
  next field isField =>
  obtain ⟨text, stored, set⟩ := bind_eq_ok.1 set
  split at set
  · cases set
  · next table found =>
    split at set
    · cases set
    · next short =>
      cases set
      exact ⟨field, text, table, isField, stored, found, Nat.le_of_not_lt short, rfl⟩

theorem places_setField {schema : Schema} {store next : Store} {now : Date.Moment} {name : String}
    {page : Int} {value : String}
    (set : store.setField schema now name page value = .ok next) : next.places = store.places := by
  obtain ⟨field, text, table, -, -, -, -, rfl⟩ := exists_of_setField set
  rw [places, places, List.map_map]
  apply List.map_congr_left
  intro row _
  dsimp only [Function.comp_apply]
  split <;> rfl

theorem ancestry_setField {schema : Schema} {store next : Store} {now : Date.Moment} {name : String}
    {page : Int} {value : String}
    (set : store.setField schema now name page value = .ok next) :
    next.ancestry = store.ancestry := by
  obtain ⟨field, text, table, -, -, -, -, rfl⟩ := exists_of_setField set
  rfl

/-- Only the addition of a page changes where pages stand. -/
theorem isKept_of_places (schema : Schema) {p : List Place → Prop}
    (grows : ∀ (store next : Store) (page : NewPage), store.IsInserted page next →
      p store.places → p next.places) : IsKept schema fun store => p store.places where
  addTemplate store name holds := by
    rw [places_addTemplate]
    exact holds
  insertPage store next now page id inserted := grows store next page (insertPage_eq_ok inserted)
  setField store next now name page value set holds := by
    rw [places_setField set]
    exact holds

/-! ### Pages -/

def IsNumbered (store : Store) : Prop :=
  store.places.map Place.id
    = (List.range store.places.length).map fun index : Nat => (index : Int) + 1

theorem length_places (store : Store) : store.places.length = store.pages.length :=
  List.length_map ..

theorem IsInserted.isNumbered {store next : Store} {page : NewPage}
    (inserted : store.IsInserted page next) (numbered : store.IsNumbered) : next.IsNumbered := by
  rw [IsNumbered, inserted.places, List.map_append, numbered, List.length_append,
    List.length_singleton, List.range_succ, List.map_append, List.map_singleton,
    List.map_singleton, nextPageId, length_places]

theorem nodup_of_isNumbered {store : Store} (numbered : store.IsNumbered) :
    (store.pages.map Page.id).Nodup := by
  rw [← map_id_places, numbered]
  refine List.Nodup.map (fun a b same => ?_) List.nodup_range
  have equal : (a : Int) + 1 = b + 1 := same
  omega

/-! ### Making tables -/

theorem define?_table_eq_some_iff {store next : Store} {name : String} {affinity : Affinity} :
    store.define? (.table name affinity) = some next ↔
      isTableName name = true ∧ isEngineName name = false ∧
        ((hasName store.tableNames name = true ∧ next = store) ∨
          (hasName store.tableNames name = false ∧ hasName store.indexNames name = false ∧
            next = { store with tables := store.tables ++ [{ name, affinity, rows := [] }] })) := by
  rw [define?]
  cases isTableName name <;> cases isEngineName name <;>
    cases hasName store.tableNames name <;> cases hasName store.indexNames name <;>
    simp [eq_comm (a := next)]

theorem define?_index_eq_some_iff {store next : Store} {name table column : String} :
    store.define? (.index name table column) = some next ↔
      isBareName name = true ∧ hasName store.tableNames name = false ∧
        ∃ source, store.source? table = some source ∧
          ((hasName store.indexNames name = true ∧ next = store) ∨
            (hasName store.indexNames name = false ∧ source.hasColumn column = true ∧
              next = { store with indexes := store.indexes ++ [name] })) := by
  rw [define?]
  cases isBareName name <;> cases hasName store.tableNames name <;>
    cases store.source? table with
    | none => simp
    | some source =>
        cases hasName store.indexNames name <;> cases source.hasColumn column <;>
          simp [eq_comm (a := next)]

/-- Making tables and indexes changes nothing else. -/
theorem exists_of_define? {store next : Store} {definition : Definition}
    (made : store.define? definition = some next) :
    ∃ tables indexes, next = { store with tables, indexes } := by
  cases definition with
  | table name affinity =>
      obtain ⟨-, -, ⟨-, rfl⟩ | ⟨-, -, rfl⟩⟩ := define?_table_eq_some_iff.1 made <;>
        exact ⟨_, _, rfl⟩
  | index name table column =>
      obtain ⟨-, -, source, -, ⟨-, rfl⟩ | ⟨-, -, rfl⟩⟩ := define?_index_eq_some_iff.1 made <;>
        exact ⟨_, _, rfl⟩

theorem exists_defineAll (store : Store) (definitions : List Definition) :
    ∃ tables indexes, (store.defineAll definitions).1 = { store with tables, indexes } := by
  induction definitions generalizing store with
  | nil => exact ⟨_, _, rfl⟩
  | cons definition definitions induction =>
      rw [defineAll]
      split
      · next next defined =>
        obtain ⟨tables, indexes, rfl⟩ := exists_of_define? defined
        exact induction _
      · exact ⟨_, _, rfl⟩

theorem exists_ensureTables (store : Store) (fields : List Field) :
    ∃ tables indexes, (store.ensureTables fields).1 = { store with tables, indexes } := by
  induction fields generalizing store with
  | nil => exact ⟨_, _, rfl⟩
  | cons field fields induction =>
      rw [ensureTables]
      split
      · exact ⟨_, _, rfl⟩
      next kind isKind =>
      obtain ⟨tables, indexes, defined⟩ :=
        exists_defineAll store (Definition.ofField field.table kind)
      split
      · next next made =>
        rw [made] at defined
        subst defined
        exact induction _
      · next next error made =>
        rw [made] at defined
        exact ⟨tables, indexes, defined⟩

theorem exists_of_ensureTables_new {fields : List Field} {now : Date.Moment} {store : Store}
    (made : (Store.new now).ensureTables fields = (store, .ok ())) :
    ∃ tables indexes, store = { Store.new now with tables, indexes } := by
  obtain ⟨tables, indexes, ensured⟩ := exists_ensureTables (Store.new now) fields
  rw [made] at ensured
  exact ⟨tables, indexes, ensured⟩

theorem defineAll_cons_eq_ok {store next : Store} {definition : Definition}
    {definitions : List Definition}
    (made : store.defineAll (definition :: definitions) = (next, .ok ())) :
    ∃ between, store.define? definition = some between ∧
      between.defineAll definitions = (next, .ok ()) := by
  rw [defineAll] at made
  split at made
  · next between defined => exact ⟨between, defined, made⟩
  · cases made

theorem define?_index {store next : Store} {name table column : String}
    (made : store.define? (.index name table column) = some next) : next.tables = store.tables := by
  obtain ⟨-, -, source, -, ⟨-, rfl⟩ | ⟨-, -, rfl⟩⟩ := define?_index_eq_some_iff.1 made <;> rfl

theorem define?_table {store next : Store} {name : String} {affinity : Affinity}
    (made : store.define? (.table name affinity) = some next)
    (missing : hasName store.tableNames name = false) :
    next.tables = store.tables ++ [{ name, affinity, rows := [] }] := by
  obtain ⟨-, -, ⟨known, -⟩ | ⟨-, -, rfl⟩⟩ := define?_table_eq_some_iff.1 made
  · exact absurd (known.symm.trans missing) Bool.noConfusion
  · rfl

theorem isTableName_of_ensureTables {fields : List Field} {store next : Store}
    (made : store.ensureTables fields = (next, .ok ())) :
    ∀ field ∈ fields, isTableName field.table = true := by
  induction fields generalizing store with
  | nil => simp
  | cons field rest induction =>
      rw [ensureTables] at made
      split at made
      · cases made
      split at made
      · next between defined =>
        obtain ⟨first, isFirst, -⟩ := defineAll_cons_eq_ok defined
        exact List.forall_mem_cons.2 ⟨(define?_table_eq_some_iff.1 isFirst).1, induction made⟩
      · cases made

/-! ### Reachable stores -/

theorem places_of_ensureTables_new {schema : Schema} {now : Date.Moment} {store : Store}
    (made : (Store.new now).ensureTables schema.fields = (store, .ok ())) :
    store.places = [⟨rootId, 0, "home"⟩] ∧ store.ancestry = [⟨rootId, rootId⟩] := by
  obtain ⟨tables, indexes, rfl⟩ := exists_of_ensureTables_new made
  exact ⟨rfl, rfl⟩

namespace Reachable

variable {schema : Schema} {store : Store}

/-- A store with tables for all fields names them by words, as the engine takes no other names. -/
theorem hasWordTables (reached : Reachable schema store) : schema.HasWordTables := by
  induction reached with
  | fresh made =>
      intro field isField
      have named := isTableName_of_ensureTables made field isField
      rw [isTableName, Bool.and_eq_true] at named
      exact isWord_of_isBareName named.1
  | addTemplate _ _ induction => exact induction
  | insertPage _ _ induction => exact induction
  | setField _ _ induction => exact induction
  | importSeed _ _ _ induction => exact induction

/-- What the root alone has and the addition of a page keeps, the pages of every store have. -/
theorem of_places {p : List Place → Prop} (reached : Reachable schema store)
    (root : p [⟨rootId, 0, "home"⟩])
    (grows : ∀ (store next : Store) (page : NewPage), store.IsInserted page next →
      p store.places → p next.places) : p store.places := by
  refine (isKept_of_places schema grows).of_reachable (fun now store made => ?_) reached
  rw [(places_of_ensureTables_new made).1]
  exact root

theorem isNumbered (reached : Reachable schema store) : store.IsNumbered :=
  reached.of_places
    (p := fun places => places.map Place.id
      = (List.range places.length).map fun index : Nat => (index : Int) + 1)
    rfl fun _ _ _ inserted => inserted.isNumbered

/-- No two pages have one number. -/
theorem nodup_ids (reached : Reachable schema store) : (store.pages.map Page.id).Nodup :=
  nodup_of_isNumbered reached.isNumbered

end Reachable

end Store

/-- A store with a page that has no title and a page that has one. -/
def titledStore : Store :=
  { Store.new ⟨0, false⟩ with
    pages :=
      [⟨1, 0, 0, "home", 1, "1970-01-01 00:00:00", "1970-01-01 00:00:00"⟩,
        ⟨2, 1, 0, "about", 1, "1970-01-01 00:00:00", "1970-01-01 00:00:00"⟩]
    ancestry := [⟨1, 1⟩, ⟨2, 1⟩]
    tables := [⟨"field_title", .text, [⟨1, 2, .text "us", 0⟩]⟩]
    indexes := ["idx_field_title_pages", "idx_field_title_data"] }

theorem Store.reachable_titledStore : Store.Reachable titleSchema titledStore := by
  let fresh : Store :=
    { Store.new ⟨0, false⟩ with
      tables := [⟨"field_title", .text, []⟩]
      indexes := titledStore.indexes }
  let paged : Store :=
    { fresh with pages := titledStore.pages, ancestry := titledStore.ancestry }
  have made : (Store.new ⟨0, false⟩).ensureTables titleSchema.fields = (fresh, .ok ()) := rfl
  have inserted : fresh.insertPage ⟨0, false⟩ (.named 1 "about") = .ok (2, paged) := rfl
  have set : paged.setField titleSchema ⟨0, false⟩ "title" 2 "us" = .ok titledStore := rfl
  exact ((Reachable.fresh made).insertPage inserted).setField set

end PageTree
