import PageTree.Proofs.Store.Reachable

/-!
Ways down the page tree. Two pages below one page never have one name, so names lead to one page at
most. Main statement: a path is looked up as the page that its names lead to, one page below the
other from the root.
-/

namespace PageTree

namespace Store

/-- No two pages below one page have one name. -/
def HasApartSiblings (store : Store) : Prop :=
  (store.places.map fun place => (place.parent, place.name)).Nodup

theorem child?_eq_none_iff {store : Store} {parent : Int} {name : String} :
    store.child? parent name = none ↔
      (parent, name) ∉ store.places.map fun place => (place.parent, place.name) := by
  rw [child?, List.find?_eq_none, places]
  simp [Page.place]

theorem IsInserted.hasApartSiblings {store next : Store} {page : NewPage}
    (inserted : store.IsInserted page next) (apart : store.HasApartSiblings) :
    next.HasApartSiblings := by
  rw [HasApartSiblings, inserted.places, List.map_append]
  exact apart.append (List.nodup_singleton _)
    (List.disjoint_singleton.2 (child?_eq_none_iff.1 inserted.apart))

theorem Reachable.hasApartSiblings {schema : Schema} {store : Store}
    (reached : Reachable schema store) : store.HasApartSiblings :=
  reached.of_places
    (p := fun places => (places.map fun place : Place => (place.parent, place.name)).Nodup)
    (List.nodup_singleton _) fun _ _ _ inserted => inserted.hasApartSiblings

theorem map_id_child?_eq_some_iff {store : Store} (apart : store.HasApartSiblings)
    {id parent : Int} {name : String} :
    (store.child? parent name).map Page.id = some id ↔ ⟨id, parent, name⟩ ∈ store.places := by
  constructor
  · intro found
    obtain ⟨page, isChild, rfl⟩ := Option.map_eq_some_iff.1 found
    obtain ⟨rfl, rfl⟩ : page.parent = parent ∧ page.name = name := by
      simpa using List.find?_some isChild
    exact List.mem_map_of_mem (List.mem_of_find?_eq_some isChild)
  · intro isPlace
    obtain ⟨page, isPage, stands⟩ := List.mem_map.1 isPlace
    cases stands
    cases found : store.child? page.parent page.name with
    | none => exact absurd (List.mem_map_of_mem isPlace) (child?_eq_none_iff.1 found)
    | some other =>
        have alike : other.parent = page.parent ∧ other.name = page.name := by
          simpa using List.find?_some found
        have same : other.place = page.place :=
          List.inj_on_of_nodup_map apart
            (List.mem_map_of_mem (List.mem_of_find?_eq_some found)) isPlace
            (Prod.ext alike.1 alike.2)
        exact congrArg some (congrArg Place.id same)

/-- Names lead from the root down to a page. -/
inductive Leads (store : Store) : List String → Int → Prop where
  | root : Leads store [] rootId
  | child {names : List String} {id parent : Int} {name : String} (above : Leads store names parent)
      (isPlace : ⟨id, parent, name⟩ ∈ store.places) : Leads store (names ++ [name]) id

theorem leads_nil_iff {store : Store} {id : Int} : store.Leads [] id ↔ id = rootId := by
  constructor
  · intro leads
    generalize spelled : ([] : List String) = names at leads
    cases leads with
    | root => rfl
    | child => simp at spelled
  · rintro rfl
    exact .root

theorem leads_concat_iff {store : Store} {names : List String} {name : String} {id : Int} :
    store.Leads (names ++ [name]) id ↔
      ∃ parent, store.Leads names parent ∧ ⟨id, parent, name⟩ ∈ store.places := by
  constructor
  · intro leads
    generalize spelled : names ++ [name] = whole at leads
    cases leads with
    | root => simp at spelled
    | child above isPlace =>
        obtain ⟨rfl, same⟩ := List.append_inj' spelled rfl
        obtain rfl := List.singleton_inj.1 same
        exact ⟨_, above, isPlace⟩
  · rintro ⟨parent, above, isPlace⟩
    exact .child above isPlace

theorem descend?_append (store : Store) (id : Int) (names more : List String) :
    store.descend? id (names ++ more) = (store.descend? id names).bind (store.descend? · more) := by
  induction names generalizing id with
  | nil => rfl
  | cons name names induction =>
      rw [List.cons_append, descend?, descend?, Option.bind_assoc]
      exact congrArg _ (funext fun page => induction page.id)

theorem descend?_eq_some_iff {store : Store} (apart : store.HasApartSiblings) {names : List String}
    {id : Int} : store.descend? rootId names = some id ↔ store.Leads names id := by
  induction names using List.reverseRecOn generalizing id with
  | nil =>
      rw [descend?, leads_nil_iff, Option.some.injEq]
      exact eq_comm
  | append_singleton names name induction =>
      rw [descend?_append, Option.bind_eq_some_iff, leads_concat_iff]
      refine exists_congr fun parent => and_congr induction ?_
      rw [← map_id_child?_eq_some_iff apart, descend?, Option.map_eq_bind]
      rfl

theorem pageId?_eq_some_iff {store : Store} (apart : store.HasApartSiblings) {path : String}
    {id : Int} : store.pageId? path = some id ↔ store.Leads (pathNames path) id :=
  descend?_eq_some_iff apart

end Store

end PageTree
