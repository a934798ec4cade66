import PageTree.Proofs.Store.Descent

/-!
Stores in which every page was added below one that was there, by hand or by a seed. Their pages are
a tree: parents have smaller numbers than the pages below them, so every way up ends at the root.
Main statement: the path of a page, read off on the way up, leads down to that page again.
-/

namespace PageTree

namespace Store

def HasPage (store : Store) (id : Int) : Prop :=
  id ∈ store.places.map Place.id

/-- Stores that grow from a fresh one. Pages are added below pages, under names that may be used. -/
inductive Grown (schema : Schema) (isName : String → Prop) : Store → Prop where
  | fresh {now : Date.Moment} {store : Store}
      (made : (Store.new now).ensureTables schema.fields = (store, .ok ())) :
      Grown schema isName store
  | addTemplate {store : Store} (name : String) (grown : Grown schema isName store) :
      Grown schema isName (store.addTemplate name).2
  | insertPage {store next : Store} {now : Date.Moment} {page : NewPage} {id : Int}
      (grown : Grown schema isName store) (below : store.HasPage page.parent)
      (named : isName page.name) (inserted : store.insertPage now page = .ok (id, next)) :
      Grown schema isName next
  | setField {store next : Store} {now : Date.Moment} {name : String} {page : Int} {value : String}
      (grown : Grown schema isName store)
      (set : store.setField schema now name page value = .ok next) : Grown schema isName next
  | importSeed {store : Store} (now : Date.Moment) (seed : Seed)
      (grown : Grown schema isName store) :
      Grown schema isName (store.importSeed schema now seed).store

theorem Grown.reachable {schema : Schema} {isName : String → Prop} {store : Store}
    (grown : Grown schema isName store) : Reachable schema store := by
  induction grown with
  | fresh made => exact .fresh made
  | addTemplate name _ induction => exact .addTemplate name induction
  | insertPage _ _ _ inserted induction => exact .insertPage induction inserted
  | setField _ set induction => exact .setField induction set
  | importSeed now seed _ induction => exact .importSeed now seed induction

theorem Grown.mono {schema : Schema} {isName other : String → Prop} {store : Store}
    (grown : Grown schema isName store) (weaker : ∀ name, isName name → other name) :
    Grown schema other store := by
  induction grown with
  | fresh made => exact .fresh made
  | addTemplate name _ induction => exact .addTemplate name induction
  | insertPage _ below named inserted induction =>
      exact .insertPage induction below (weaker _ named) inserted
  | setField _ set induction => exact .setField induction set
  | importSeed now seed _ induction => exact .importSeed now seed induction

/-! ### Trees -/

/-- Pages in which all but the root have a page with a smaller number above them. -/
structure IsTree (isName : String → Prop) (store : Store) : Prop where
  numbered : store.IsNumbered
  siblings : store.HasApartSiblings
  root : ∃ name, ⟨rootId, 0, name⟩ ∈ store.places
  parents : ∀ place ∈ store.places, place.id ≠ rootId →
    store.HasPage place.parent ∧ place.parent < place.id
  names : ∀ place ∈ store.places, place.id ≠ rootId → isName place.name

theorem hasPage_iff_of_isNumbered {store : Store} (numbered : store.IsNumbered) {id : Int} :
    store.HasPage id ↔ 1 ≤ id ∧ id ≤ store.pages.length := by
  rw [HasPage, numbered, length_places, List.mem_map]
  constructor
  · rintro ⟨index, inside, rfl⟩
    have bound := List.mem_range.1 inside
    omega
  · rintro ⟨positive, bound⟩
    exact ⟨(id - 1).toNat, List.mem_range.2 (by omega), by omega⟩

theorem hasPage_of_mem {store : Store} {place : Place} (isPlace : place ∈ store.places) :
    store.HasPage place.id :=
  List.mem_map_of_mem isPlace

theorem exists_page_of_hasPage {store : Store} {id : Int} (hasPage : store.HasPage id) :
    ∃ page ∈ store.pages, page.id = id := by
  obtain ⟨_, isPlace, rfl⟩ := List.mem_map.1 hasPage
  obtain ⟨page, isPage, rfl⟩ := List.mem_map.1 isPlace
  exact ⟨page, isPage, rfl⟩

theorem hasPage_of_leads {store : Store} (rooted : store.HasPage rootId) {names : List String}
    {id : Int} (leads : store.Leads names id) : store.HasPage id := by
  cases leads with
  | root => exact rooted
  | child above isPlace => exact hasPage_of_mem isPlace

namespace IsInserted

variable {store next : Store} {page : NewPage}

theorem hasPage_iff (inserted : store.IsInserted page next) {id : Int} :
    next.HasPage id ↔ store.HasPage id ∨ id = store.nextPageId := by
  rw [HasPage, inserted.places, List.map_append, List.mem_append, List.map_singleton,
    List.mem_singleton, HasPage]

theorem mem_places_iff (inserted : store.IsInserted page next) {place : Place} :
    place ∈ next.places ↔
      place ∈ store.places ∨ place = ⟨store.nextPageId, page.parent, page.name⟩ := by
  rw [inserted.places, List.mem_append, List.mem_singleton]

end IsInserted

theorem Reachable.hasPage_root {schema : Schema} {store : Store}
    (reached : Reachable schema store) : store.HasPage rootId :=
  reached.of_places (p := fun places => rootId ∈ places.map Place.id) (List.mem_cons_self ..)
    fun _ _ _ inserted rooted => inserted.hasPage_iff.2 (.inl rooted)

/-- What one change does to the tree: nothing at all, or it adds a page below one that is there. -/
inductive TreeStep (isName : String → Prop) (store next : Store) : Prop where
  | same (places : next.places = store.places) (ancestry : next.ancestry = store.ancestry) :
      TreeStep isName store next
  | insert {page : NewPage} (below : store.HasPage page.parent) (named : isName page.name)
      (inserted : store.IsInserted page next) : TreeStep isName store next

theorem treeStep_addTemplate (isName : String → Prop) (store : Store) (name : String) :
    TreeStep isName store (store.addTemplate name).2 :=
  .same (places_addTemplate store name) (ancestry_addTemplate store name)

theorem treeStep_setField {schema : Schema} (isName : String → Prop) {store next : Store}
    {now : Date.Moment} {name : String} {page : Int} {value : String}
    (set : store.setField schema now name page value = .ok next) : TreeStep isName store next :=
  .same (places_setField set) (ancestry_setField set)

/-- Only the root is there. -/
structure IsBare (store : Store) : Prop where
  places : store.places = [⟨rootId, 0, "home"⟩]
  ancestry : store.ancestry = [⟨rootId, rootId⟩]

namespace IsTree

variable {isName : String → Prop} {store next : Store}

theorem of_isBare (bare : store.IsBare) : store.IsTree isName := by
  refine ⟨?_, ?_, ⟨"home", ?_⟩, ?_, ?_⟩
  · rw [IsNumbered, bare.places]
    rfl
  · rw [HasApartSiblings, bare.places]
    exact List.nodup_singleton _
  · simp [bare.places]
  · simp [bare.places]
  · simp [bare.places]

theorem congr (tree : store.IsTree isName) (places : next.places = store.places) :
    next.IsTree isName := by
  obtain ⟨numbered, siblings, root, parents, names⟩ := tree
  unfold IsNumbered HasApartSiblings HasPage at *
  rw [← places] at numbered siblings root parents names
  exact ⟨numbered, siblings, root, parents, names⟩

theorem insertPage {page : NewPage} (tree : store.IsTree isName)
    (below : store.HasPage page.parent) (named : isName page.name)
    (inserted : store.IsInserted page next) : next.IsTree isName where
  numbered := inserted.isNumbered tree.numbered
  siblings := inserted.hasApartSiblings tree.siblings
  root := by
    obtain ⟨name, isRoot⟩ := tree.root
    exact ⟨name, inserted.mem_places_iff.2 (.inl isRoot)⟩
  parents place isPlace other := by
    rw [inserted.hasPage_iff]
    rcases inserted.mem_places_iff.1 isPlace with old | rfl
    · obtain ⟨above, older⟩ := tree.parents place old other
      exact ⟨.inl above, older⟩
    · have bounds := (hasPage_iff_of_isNumbered tree.numbered).1 below
      exact ⟨.inl below, Int.lt_add_one_of_le bounds.2⟩
  names place isPlace other := by
    rcases inserted.mem_places_iff.1 isPlace with old | rfl
    · exact tree.names place old other
    · exact named

theorem treeStep (tree : store.IsTree isName) (step : TreeStep isName store next) :
    next.IsTree isName := by
  cases step with
  | same places ancestry => exact tree.congr places
  | insert below named inserted => exact tree.insertPage below named inserted

theorem run (tree : store.IsTree isName)
    (run : Relation.ReflTransGen (TreeStep isName) store next) : next.IsTree isName := by
  induction run with
  | refl => exact tree
  | tail _ step induction => exact induction.treeStep step

theorem hasPage_root (tree : store.IsTree isName) : store.HasPage rootId := by
  obtain ⟨name, isRoot⟩ := tree.root
  exact hasPage_of_mem isRoot

theorem hasPage_of_leads (tree : store.IsTree isName) {names : List String} {id : Int}
    (leads : store.Leads names id) : store.HasPage id :=
  Store.hasPage_of_leads tree.hasPage_root leads

/-- Imports look their parents up, so they add pages below pages. -/
theorem run_of_importRun {schema : Schema} {now : Date.Moment}
    (usable : ∀ name, IsPathName name → isName name) (tree : store.IsTree isName)
    (imported : ImportRun schema now store next) :
    Relation.ReflTransGen (TreeStep isName) store next := by
  induction imported with
  | refl => exact .refl
  | tail _ step induction =>
      refine induction.tail ?_
      have between := tree.run induction
      cases step with
      | addTemplate name => exact treeStep_addTemplate isName _ name
      | insertPage below named inserted =>
          have leads := (pageId?_eq_some_iff between.siblings).1 below
          exact .insert (between.hasPage_of_leads leads) (usable _ named)
            (insertPage_eq_ok inserted)
      | setField set => exact treeStep_setField isName set

end IsTree

namespace Grown

variable {schema : Schema} {isName : String → Prop} {store : Store}

theorem exists_run (grown : Grown schema isName store)
    (usable : ∀ name, IsPathName name → isName name) :
    ∃ bare : Store, bare.IsBare ∧ Relation.ReflTransGen (TreeStep isName) bare store := by
  induction grown with
  | @fresh _ store made =>
      obtain ⟨places, ancestry⟩ := places_of_ensureTables_new made
      exact ⟨store, ⟨places, ancestry⟩, .refl⟩
  | @addTemplate store name _ induction =>
      obtain ⟨bare, isBare, run⟩ := induction
      exact ⟨bare, isBare, run.tail (treeStep_addTemplate isName store name)⟩
  | insertPage _ below named inserted induction =>
      obtain ⟨bare, isBare, run⟩ := induction
      exact ⟨bare, isBare, run.tail (.insert below named (insertPage_eq_ok inserted))⟩
  | setField _ set induction =>
      obtain ⟨bare, isBare, run⟩ := induction
      exact ⟨bare, isBare, run.tail (treeStep_setField isName set)⟩
  | importSeed now seed _ induction =>
      obtain ⟨bare, isBare, run⟩ := induction
      have tree := (IsTree.of_isBare isBare).run run
      exact ⟨bare, isBare, run.trans (tree.run_of_importRun usable (.importSeed seed _))⟩

theorem isTree (grown : Grown schema isName store)
    (usable : ∀ name, IsPathName name → isName name) : store.IsTree isName := by
  obtain ⟨bare, isBare, run⟩ := grown.exists_run usable
  exact (IsTree.of_isBare isBare).run run

end Grown

/-! ### Ways up -/

/-- The page stands right below another one. -/
def IsChildOf (store : Store) (id parent : Int) : Prop :=
  (∃ name, ⟨id, parent, name⟩ ∈ store.places) ∧ store.HasPage parent

theorem place_eq_of_id_eq {store : Store} (apart : (store.pages.map Page.id).Nodup)
    {place other : Place} (isPlace : place ∈ store.places) (isOther : other ∈ store.places)
    (same : place.id = other.id) : place = other := by
  rw [← map_id_places] at apart
  exact List.inj_on_of_nodup_map apart isPlace isOther same

theorem leads_concat_page_iff {store : Store} (apart : (store.pages.map Page.id).Nodup)
    {names : List String} {name : String} {page : Page} (isPage : page ∈ store.pages) :
    store.Leads (names ++ [name]) page.id ↔ store.Leads names page.parent ∧ page.name = name := by
  have isPlace : page.place ∈ store.places := List.mem_map_of_mem isPage
  rw [leads_concat_iff]
  constructor
  · rintro ⟨parent, leads, isOther⟩
    cases place_eq_of_id_eq apart isOther isPlace rfl
    exact ⟨leads, rfl⟩
  · rintro ⟨leads, rfl⟩
    exact ⟨page.parent, leads, isPlace⟩

theorem page?_of_mem {store : Store} (apart : (store.pages.map Page.id).Nodup) {page : Page}
    (isPage : page ∈ store.pages) : store.page? page.id = some page := by
  cases found : store.page? page.id with
  | none =>
      have absent := List.find?_eq_none.1 found page isPage
      exact absurd (decide_eq_true rfl) absent
  | some other =>
      have same : other.id = page.id := by simpa using List.find?_some found
      exact congrArg some
        (List.inj_on_of_nodup_map apart (List.mem_of_find?_eq_some found) isPage same)

theorem page?_eq_some {store : Store} (apart : (store.pages.map Page.id).Nodup) {place : Place}
    (isPlace : place ∈ store.places) :
    ∃ page, store.page? place.id = some page ∧ page.place = place := by
  obtain ⟨page, isPage, rfl⟩ := List.mem_map.1 isPlace
  exact ⟨page, page?_of_mem apart isPage, rfl⟩

namespace IsTree

variable {isName : String → Prop} {store : Store} {names : List String} {id : Int}

theorem eq_of_id_eq (tree : store.IsTree isName) {place other : Place}
    (isPlace : place ∈ store.places) (isOther : other ∈ store.places) (same : place.id = other.id) :
    place = other :=
  place_eq_of_id_eq (nodup_of_isNumbered tree.numbered) isPlace isOther same

theorem ne_root_of_leads (tree : store.IsTree isName) {parent : Int} {name : String}
    (above : store.Leads names parent) (isPlace : ⟨id, parent, name⟩ ∈ store.places) :
    id ≠ rootId := by
  rintro rfl
  obtain ⟨first, isRoot⟩ := tree.root
  cases tree.eq_of_id_eq isPlace isRoot rfl
  have bounds := (hasPage_iff_of_isNumbered tree.numbered).1 (tree.hasPage_of_leads above)
  omega

theorem isName_of_leads (tree : store.IsTree isName) (leads : store.Leads names id) :
    ∀ name ∈ names, isName name := by
  induction leads with
  | root => simp
  | child above isPlace induction =>
      rw [List.forall_mem_append, List.forall_mem_singleton]
      exact ⟨induction, tree.names _ isPlace (tree.ne_root_of_leads above isPlace)⟩

theorem length_lt_of_leads (tree : store.IsTree isName) (leads : store.Leads names id) :
    (names.length : Int) < id := by
  induction leads with
  | root => decide
  | child above isPlace induction =>
      have older := (tree.parents _ isPlace (tree.ne_root_of_leads above isPlace)).2
      rw [List.length_append, List.length_singleton]
      dsimp only at older
      omega

theorem climbFrom_of_leads (tree : store.IsTree isName) (leads : store.Leads names id) {fuel : Nat}
    (enough : names.length ≤ fuel) (below : List String) :
    store.climbFrom fuel id below = .root (names ++ below) := by
  induction leads generalizing fuel below with
  | root => cases fuel <;> exact if_pos rfl
  | @child names id parent name above isPlace induction =>
      rw [List.length_append, List.length_singleton] at enough
      obtain ⟨less, rfl⟩ : ∃ less, fuel = less + 1 := ⟨fuel - 1, by omega⟩
      obtain ⟨page, found, stands⟩ := page?_eq_some (nodup_of_isNumbered tree.numbered) isPlace
      obtain ⟨-, rfl, rfl⟩ := Place.mk.inj stands
      rw [climbFrom, if_neg (tree.ne_root_of_leads above isPlace), found]
      dsimp only
      rw [induction (by omega), List.append_assoc, List.singleton_append]

theorem climb_of_leads (tree : store.IsTree isName) (leads : store.Leads names id) :
    store.climb id = .root names := by
  have short := tree.length_lt_of_leads leads
  have bounds := (hasPage_iff_of_isNumbered tree.numbered).1 (tree.hasPage_of_leads leads)
  rw [climb, tree.climbFrom_of_leads leads (by omega), List.append_nil]

theorem exists_leads (tree : store.IsTree isName) (isPage : store.HasPage id) :
    ∃ names, store.Leads names id := by
  -- Parents have smaller numbers, so what is below a number is led to before it.
  induction bound : id.toNat using Nat.strong_induction_on generalizing id with
  | _ number induction =>
      rcases eq_or_ne id rootId with rfl | other
      · exact ⟨[], .root⟩
      · obtain ⟨⟨_, parent, name⟩, isPlace, rfl⟩ := List.mem_map.1 isPage
        obtain ⟨above, older⟩ := tree.parents _ isPlace other
        have positive := ((hasPage_iff_of_isNumbered tree.numbered).1 above).1
        obtain ⟨names, leads⟩ := induction parent.toNat (by dsimp only at *; omega) above rfl
        exact ⟨names ++ [name], .child leads isPlace⟩

theorem reflTransGen_of_leads (tree : store.IsTree isName) (leads : store.Leads names id) :
    Relation.ReflTransGen store.IsChildOf id rootId := by
  induction leads with
  | root => exact .refl
  | child above isPlace induction =>
      exact .head ⟨⟨_, isPlace⟩, tree.hasPage_of_leads above⟩ induction

end IsTree

theorem hasPage_of_mem_pages {store : Store} {page : Page} (isPage : page ∈ store.pages) :
    store.HasPage page.id :=
  hasPage_of_mem (List.mem_map_of_mem isPage)

theorem Grown.paths_agree {schema : Schema} {store : Store}
    (grown : Grown schema IsPathName store) :
    (∀ page ∈ store.pages, Relation.ReflTransGen store.IsChildOf page.id rootId) ∧
      (∀ page ∈ store.pages,
        ∃ path, store.pagePath? page.id = some path ∧ store.pageId? path = some page.id) ∧
      ∀ path id, store.pageId? path = some id →
        store.pagePath? id = some (pathText (pathNames path)) := by
  have tree := grown.isTree fun _ named => named
  have shown {names : List String} {id : Int} (leads : store.Leads names id) :
      store.pagePath? id = some (pathText names) := by
    rw [pagePath?, tree.climb_of_leads leads]
  refine ⟨fun page isPage => ?_, fun page isPage => ?_, fun path id found => ?_⟩
  · obtain ⟨names, leads⟩ := tree.exists_leads (hasPage_of_mem_pages isPage)
    exact tree.reflTransGen_of_leads leads
  · obtain ⟨names, leads⟩ := tree.exists_leads (hasPage_of_mem_pages isPage)
    refine ⟨pathText names, shown leads, ?_⟩
    rw [pageId?_eq_some_iff tree.siblings, pathNames_pathText (tree.isName_of_leads leads)]
    exact leads
  · exact shown ((pageId?_eq_some_iff tree.siblings).1 found)

end Store

/-- A page below the root, and a seed with a page below that one and a page below none. -/
def teamSeed : Seed where
  templates := ["basic"]
  pages :=
    [{ path := "/about/team", template := some "basic", status := none, created := none
       fields := [("title", .text "us")] },
      { path := "/news/today", template := none, status := none, created := none, fields := [] }]

def teamStore : Store :=
  { Store.new ⟨0, false⟩ with
    templates := [⟨1, "basic"⟩]
    lastTemplate := 2
    pages :=
      [⟨1, 0, 0, "home", 1, "1970-01-01 00:00:00", "1970-01-01 00:00:00"⟩,
        ⟨2, 1, 0, "about", 1, "1970-01-01 00:00:00", "1970-01-01 00:00:00"⟩,
        ⟨3, 2, 1, "team", 1, "1970-01-01 00:00:00", "1970-01-01 00:00:00"⟩]
    ancestry := [⟨1, 1⟩, ⟨2, 1⟩, ⟨3, 2⟩, ⟨3, 1⟩]
    tables := [⟨"field_title", .text, [⟨1, 3, .text "us", 0⟩]⟩]
    indexes := ["idx_field_title_pages", "idx_field_title_data"] }

namespace Store

theorem grown_teamStore : Grown titleSchema IsPathName teamStore := by
  let fresh : Store :=
    { Store.new ⟨0, false⟩ with
      tables := [⟨"field_title", .text, []⟩]
      indexes := teamStore.indexes }
  let paged : Store :=
    { fresh with
      pages := teamStore.pages.take 2
      ancestry := teamStore.ancestry.take 2 }
  have made : (Store.new ⟨0, false⟩).ensureTables titleSchema.fields = (fresh, .ok ()) := rfl
  have inserted : fresh.insertPage ⟨0, false⟩ (.named 1 "about") = .ok (2, paged) := rfl
  have imported : (paged.importSeed titleSchema ⟨0, false⟩ teamSeed).store = teamStore := rfl
  have below : fresh.HasPage rootId := List.mem_cons_self ..
  rw [← imported]
  exact .importSeed _ _ (.insertPage (.fresh made) below ⟨by decide, by decide⟩ inserted)

theorem paths_agree_teamStore :
    teamStore.pageId? "about//team" = some 3 ∧ teamStore.pagePath? 3 = some "/about/team/" ∧
      Relation.ReflTransGen teamStore.IsChildOf 3 rootId := by
  obtain ⟨rooted, -, shown⟩ := grown_teamStore.paths_agree
  have found : teamStore.pageId? "about//team" = some 3 := rfl
  have isPage : teamStore.pages[2] ∈ teamStore.pages := List.getElem_mem (by decide)
  exact ⟨found, shown _ _ found, rooted _ isPage⟩

end Store

end PageTree
