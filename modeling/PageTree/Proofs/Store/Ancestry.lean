import PageTree.Proofs.Store.Tree

/-!
The table of ancestors. A new page takes over the entries of its parent. Main statement: in a store
that grew, the table has an entry for every page and every page above it, each once, and besides
these only one of the root with itself.
-/

namespace PageTree

namespace Store

/-! ### Entries -/

theorem nodup_eraseDups {α : Type} [DecidableEq α] (as : List α) : as.eraseDups.Nodup := by
  induction bound : as.length using Nat.strong_induction_on generalizing as with
  | _ length induction =>
      cases as with
      | nil => exact List.nodup_nil
      | cons a as =>
          rw [List.eraseDups_cons, List.nodup_cons, List.mem_eraseDups]
          refine ⟨by simp, induction _ ?_ _ rfl⟩
          rw [← bound]
          exact Nat.lt_succ_of_le (List.length_filter_le _ _)

theorem mem_ancestors_iff {ancestry : List Ancestry} {page id : Int} :
    id ∈ ancestors ancestry page ↔ ⟨page, id⟩ ∈ ancestry := by
  rw [ancestors, List.mem_map]
  constructor
  · rintro ⟨⟨_, _⟩, member, rfl⟩
    obtain ⟨isEntry, same⟩ := List.mem_filter.1 member
    obtain rfl := of_decide_eq_true same
    exact isEntry
  · intro isEntry
    exact ⟨_, List.mem_filter.2 ⟨isEntry, decide_eq_true rfl⟩, rfl⟩

theorem mem_addAncestors_iff {ancestry : List Ancestry} {page : Int} {above : List Int}
    {entry : Ancestry} :
    entry ∈ addAncestors ancestry page above ↔
      entry ∈ ancestry ∨ entry.page = page ∧ entry.ancestor ∈ above := by
  obtain ⟨id, ancestor⟩ := entry
  rw [addAncestors, List.mem_append, List.mem_map]
  simp only [List.mem_eraseDups, List.mem_filter, Bool.not_eq_true', List.contains_eq_mem,
    decide_eq_false_iff_not, mem_ancestors_iff, Ancestry.mk.injEq]
  constructor
  · rintro (known | ⟨_, ⟨isAbove, -⟩, rfl, rfl⟩)
    · exact .inl known
    · exact .inr ⟨rfl, isAbove⟩
  · rintro (known | ⟨rfl, isAbove⟩)
    · exact .inl known
    · by_cases known : ⟨id, ancestor⟩ ∈ ancestry
      · exact .inl known
      · exact .inr ⟨ancestor, ⟨isAbove, known⟩, rfl, rfl⟩

theorem nodup_addAncestors {ancestry : List Ancestry} (nodup : ancestry.Nodup) (page : Int)
    (above : List Int) : (addAncestors ancestry page above).Nodup := by
  rw [addAncestors, List.nodup_append]
  refine ⟨nodup, (nodup_eraseDups _).map fun id other same => (Ancestry.mk.inj same).2, ?_⟩
  rintro entry known _ isNew rfl
  obtain ⟨id, member, rfl⟩ := List.mem_map.1 isNew
  rw [List.mem_eraseDups, List.mem_filter] at member
  simp [mem_ancestors_iff, known] at member

theorem nodup_extendAncestry {store : Store} (nodup : store.ancestry.Nodup) (id parent : Int) :
    (store.extendAncestry id parent).Nodup := by
  unfold extendAncestry
  split
  · exact nodup
  · exact nodup_addAncestors (nodup_addAncestors nodup id [parent]) id _

theorem mem_extendAncestry_iff {store : Store} {id parent : Int} (isPage : parent ≠ 0)
    (apart : parent ≠ id) {entry : Ancestry} :
    entry ∈ store.extendAncestry id parent ↔
      entry ∈ store.ancestry ∨ entry.page = id ∧
        (entry.ancestor = parent ∨ ⟨parent, entry.ancestor⟩ ∈ store.ancestry) := by
  rw [extendAncestry, if_neg isPage]
  simp only [mem_addAncestors_iff, mem_ancestors_iff, List.mem_singleton, apart, false_and,
    or_false]
  tauto

/-! ### Pages above a page -/

/-- The second page stands above the first, at any distance. -/
def IsBelow (store : Store) : Int → Int → Prop :=
  Relation.TransGen store.IsChildOf

theorem hasPage_of_isBelow {store : Store} {id above : Int} (below : store.IsBelow id above) :
    store.HasPage above := by
  cases below with
  | single child => exact child.2
  | tail _ child => exact child.2

theorem hasPage_of_isBelow_left {store : Store} {id above : Int}
    (below : store.IsBelow id above) : store.HasPage id := by
  obtain ⟨_, ⟨⟨name, isPlace⟩, -⟩, -⟩ := Relation.TransGen.head'_iff.1 below
  exact hasPage_of_mem isPlace

theorem not_hasPage_nextPageId {store : Store} (numbered : store.IsNumbered) :
    ¬store.HasPage store.nextPageId := by
  rw [hasPage_iff_of_isNumbered numbered, nextPageId]
  omega

namespace IsInserted

variable {isName : String → Prop} {store next : Store} {page : NewPage}
  (inserted : store.IsInserted page next) (tree : store.IsTree isName)
  (hasParent : store.HasPage page.parent)

include inserted tree hasParent

theorem isChildOf_iff {id parent : Int} :
    next.IsChildOf id parent ↔
      store.IsChildOf id parent ∨ id = store.nextPageId ∧ parent = page.parent := by
  constructor
  · rintro ⟨⟨name, isPlace⟩, hasPage⟩
    rcases inserted.mem_places_iff.1 isPlace with old | isNew
    · refine .inl ⟨⟨name, old⟩, ?_⟩
      rcases eq_or_ne id rootId with rfl | other
      · -- The root has zero above it, and no page ever has that number.
        obtain ⟨first, isRoot⟩ := tree.root
        cases tree.eq_of_id_eq old isRoot rfl
        have positive := inserted.isNumbered tree.numbered
        rw [hasPage_iff_of_isNumbered positive] at hasPage
        omega
      · exact (tree.parents _ old other).1
    · obtain ⟨rfl, rfl, -⟩ := Place.mk.inj isNew
      exact .inr ⟨rfl, rfl⟩
  · rintro (⟨⟨name, isPlace⟩, hasPage⟩ | ⟨rfl, rfl⟩)
    · exact ⟨⟨name, inserted.mem_places_iff.2 (.inl isPlace)⟩,
        inserted.hasPage_iff.2 (.inl hasPage)⟩
    · exact ⟨⟨page.name, inserted.mem_places_iff.2 (.inr rfl)⟩,
        inserted.hasPage_iff.2 (.inl hasParent)⟩

theorem isBelow_iff {id above : Int} :
    next.IsBelow id above ↔
      store.IsBelow id above ∨
        id = store.nextPageId ∧ (above = page.parent ∨ store.IsBelow page.parent above) := by
  have children {id parent : Int} : next.IsChildOf id parent ↔
      store.IsChildOf id parent ∨ id = store.nextPageId ∧ parent = page.parent :=
    inserted.isChildOf_iff tree hasParent
  have fresh := not_hasPage_nextPageId tree.numbered
  have old {id above : Int} (below : store.IsBelow id above) : next.IsBelow id above :=
    Relation.TransGen.mono (fun _ _ child => children.2 (.inl child)) _ _ below
  constructor
  · intro below
    induction below with
    | single child =>
        rcases children.1 child with known | ⟨rfl, rfl⟩
        · exact .inl (.single known)
        · exact .inr ⟨rfl, .inl rfl⟩
    | tail _ child induction =>
        rcases children.1 child with known | ⟨rfl, rfl⟩
        · rcases induction with below | ⟨rfl, rfl | below⟩
          · exact .inl (below.tail known)
          · exact .inr ⟨rfl, .inr (.single known)⟩
          · exact .inr ⟨rfl, .inr (below.tail known)⟩
        · -- Nothing is below the new page.
          rcases induction with below | ⟨-, same | below⟩
          · exact absurd (hasPage_of_isBelow below) fresh
          · exact absurd hasParent (same ▸ fresh)
          · exact absurd (hasPage_of_isBelow below) fresh
  · rintro (below | ⟨rfl, rfl | below⟩)
    · exact old below
    · exact .single (children.2 (.inr ⟨rfl, rfl⟩))
    · exact .head (children.2 (.inr ⟨rfl, rfl⟩)) (old below)

end IsInserted

/-! ### The table -/

/-- The table has the root with itself, and every page with every page above it. -/
structure ListsAncestors (store : Store) : Prop where
  nodup : store.ancestry.Nodup
  mem_iff : ∀ entry, entry ∈ store.ancestry ↔
    entry = ⟨rootId, rootId⟩ ∨ store.IsBelow entry.page entry.ancestor

namespace ListsAncestors

variable {isName : String → Prop} {store next : Store}

theorem of_isBare (bare : store.IsBare) : store.ListsAncestors := by
  have childless {id parent : Int} (child : store.IsChildOf id parent) : False := by
    obtain ⟨⟨name, isPlace⟩, hasPage⟩ := child
    rw [bare.places, List.mem_singleton] at isPlace
    rw [HasPage, bare.places] at hasPage
    obtain ⟨-, rfl, -⟩ := Place.mk.inj isPlace
    simp [rootId] at hasPage
  have alone {id above : Int} (below : store.IsBelow id above) : False := by
    obtain ⟨parent, child, -⟩ := Relation.TransGen.head'_iff.1 below
    exact childless child
  refine ⟨bare.ancestry ▸ List.nodup_singleton _, fun entry => ?_⟩
  rw [bare.ancestry, List.mem_singleton]
  exact (or_iff_left alone).symm

theorem congr (lists : store.ListsAncestors) (places : next.places = store.places)
    (ancestry : next.ancestry = store.ancestry) : next.ListsAncestors := by
  obtain ⟨nodup, mem_iff⟩ := lists
  unfold IsBelow IsChildOf HasPage at mem_iff
  rw [← ancestry] at nodup
  simp only [← ancestry, ← places] at mem_iff
  exact ⟨nodup, mem_iff⟩

theorem insertPage {page : NewPage} (lists : store.ListsAncestors) (tree : store.IsTree isName)
    (hasParent : store.HasPage page.parent) (inserted : store.IsInserted page next) :
    next.ListsAncestors := by
  have bounds := (hasPage_iff_of_isNumbered tree.numbered).1 hasParent
  constructor
  · rw [inserted.ancestry]
    exact nodup_extendAncestry lists.nodup _ _
  · intro entry
    rw [inserted.ancestry, mem_extendAncestry_iff (by omega) (by rw [nextPageId]; omega),
      inserted.isBelow_iff tree hasParent, lists.mem_iff, lists.mem_iff, or_assoc]
    refine or_congr_right (or_congr_right (and_congr_right fun _ => ?_))
    -- The entry of the root with itself adds the root as a parent once more.
    constructor
    · rintro (same | isRoot | below)
      · exact .inl same
      · obtain ⟨isRoot, same⟩ := Ancestry.mk.inj isRoot
        exact .inl (same.trans isRoot.symm)
      · exact .inr below
    · rintro (same | below)
      · exact .inl same
      · exact .inr (.inr below)

theorem treeStep (lists : store.ListsAncestors) (tree : store.IsTree isName)
    (step : TreeStep isName store next) : next.ListsAncestors := by
  cases step with
  | same places ancestry => exact lists.congr places ancestry
  | insert below named inserted => exact lists.insertPage tree below inserted

end ListsAncestors

theorem Grown.listsAncestors {schema : Schema} {isName : String → Prop} {store : Store}
    (grown : Grown schema isName store) (usable : ∀ name, IsPathName name → isName name) :
    store.ListsAncestors := by
  obtain ⟨bare, isBare, run⟩ := grown.exists_run usable
  clear grown
  induction run with
  | refl => exact .of_isBare isBare
  | tail before step induction =>
      exact induction.treeStep ((IsTree.of_isBare isBare).run before) step

/-! ### Entries of parents -/

section

variable {isName : String → Prop} {store : Store} (tree : store.IsTree isName)

include tree

theorem IsTree.not_isBelow_root {top : Int} : ¬store.IsBelow rootId top := by
  intro below
  obtain ⟨parent, ⟨⟨name, isPlace⟩, hasPage⟩, -⟩ := Relation.TransGen.head'_iff.1 below
  obtain ⟨first, isRoot⟩ := tree.root
  cases tree.eq_of_id_eq isPlace isRoot rfl
  have bounds := (hasPage_iff_of_isNumbered tree.numbered).1 hasPage
  omega

theorem IsTree.isBelow_iff {page : Page} (isPage : page ∈ store.pages) {top : Int} :
    store.IsBelow page.id top ↔
      store.HasPage page.parent ∧ (page.parent = top ∨ store.IsBelow page.parent top) := by
  constructor
  · intro below
    obtain ⟨parent, child, rest⟩ := Relation.TransGen.head'_iff.1 below
    obtain ⟨⟨name, isPlace⟩, hasPage⟩ := child
    cases tree.eq_of_id_eq isPlace (List.mem_map_of_mem isPage) rfl
    exact ⟨hasPage, (Relation.reflTransGen_iff_eq_or_transGen.1 rest).imp_left Eq.symm⟩
  · rintro ⟨hasPage, above⟩
    have child : store.IsChildOf page.id page.parent :=
      ⟨⟨page.name, List.mem_map_of_mem isPage⟩, hasPage⟩
    rcases above with rfl | above
    · exact .single child
    · exact .head child above

/-- A page below another one is found by the entries of its parent. -/
theorem ListsAncestors.exists_entry_iff (lists : store.ListsAncestors) {page : Page}
    (isPage : page ∈ store.pages) {top : Int} :
    (∃ entry ∈ store.ancestry, entry.page = page.parent ∧
      (entry.ancestor = top ∨ entry.page = top)) ↔ store.IsBelow page.id top := by
  have rooted : store.HasPage rootId := tree.hasPage_root
  have hasEntry {id : Int} (hasPage : store.HasPage id) :
      ∃ ancestor, ⟨id, ancestor⟩ ∈ store.ancestry := by
    rcases eq_or_ne id rootId with rfl | other
    · exact ⟨rootId, (lists.mem_iff _).2 (.inl rfl)⟩
    · obtain ⟨⟨_, parent, name⟩, isPlace, rfl⟩ := List.mem_map.1 hasPage
      have above := (tree.parents _ isPlace other).1
      exact ⟨parent, (lists.mem_iff _).2 (.inr (.single ⟨⟨name, isPlace⟩, above⟩))⟩
  rw [tree.isBelow_iff isPage]
  constructor
  · rintro ⟨⟨_, ancestor⟩, isEntry, rfl, found⟩
    rcases (lists.mem_iff _).1 isEntry with isRoot | below
    · obtain ⟨same, rfl⟩ := Ancestry.mk.inj isRoot
      rw [same] at found ⊢
      exact ⟨rooted, .inl (found.elim id id)⟩
    · refine ⟨hasPage_of_isBelow_left below, found.symm.imp_right fun same => ?_⟩
      exact same ▸ below
  · rintro ⟨hasPage, same | below⟩
    · obtain ⟨ancestor, isEntry⟩ := hasEntry hasPage
      exact ⟨_, isEntry, rfl, .inr same⟩
    · exact ⟨⟨page.parent, top⟩, (lists.mem_iff _).2 (.inr below), rfl, .inl rfl⟩

end

end Store

end PageTree
