import Mathlib.Data.List.Perm.Subperm
import PageTree.Proofs.Store.Imports

/-!
Ways up from any page, whatever its parent was when it was added. The walk up is said step by step,
without a bound on the steps. Main statement: a walk never ends just when it comes to a page that
stands above its own parent and was added before that parent was there.
-/

namespace PageTree

namespace Store

/-- One step of the walk up: from a page below the root to the number of its parent. -/
def StepsUp (store : Store) (id parent : Int) : Prop :=
  id ≠ rootId ∧ ∃ page, store.page? id = some page ∧ page.parent = parent

/-- The walk up from the first number comes to the second. -/
abbrev Passes (store : Store) : Int → Int → Prop :=
  Relation.ReflTransGen store.StepsUp

/-- The walk up from a number comes back to it. -/
def IsCircular (store : Store) (id : Int) : Prop :=
  Relation.TransGen store.StepsUp id id

/-- The walk up with the names below it, and where it ends. -/
inductive ClimbsTo (store : Store) : Int → List String → Climb → Prop where
  | root (names : List String) : ClimbsTo store rootId names (.root names)
  | lost {id : Int} (names : List String) (other : id ≠ rootId) (missing : store.page? id = none) :
      ClimbsTo store id names .lost
  | up {id : Int} {names : List String} {page : Page} {outcome : Climb} (other : id ≠ rootId)
      (found : store.page? id = some page)
      (rest : ClimbsTo store page.parent (page.name :: names) outcome) :
      ClimbsTo store id names outcome

variable {store : Store} {id other parent : Int} {names : List String} {outcome : Climb}

theorem StepsUp.unique (first : store.StepsUp id parent) (second : store.StepsUp id other) :
    parent = other := by
  obtain ⟨-, page, found, rfl⟩ := first
  obtain ⟨-, again, foundAgain, rfl⟩ := second
  cases found.symm.trans foundAgain
  rfl

theorem not_stepsUp_root : ¬store.StepsUp rootId parent :=
  fun step => step.1 rfl

theorem not_stepsUp_of_missing (missing : store.page? id = none) : ¬store.StepsUp id parent := by
  rintro ⟨-, page, found, -⟩
  cases missing.symm.trans found

theorem mem_of_page? {page : Page} (found : store.page? id = some page) :
    page ∈ store.pages ∧ page.id = id :=
  ⟨List.mem_of_find?_eq_some found, by simpa using List.find?_some found⟩

theorem IsCircular.exists_stepsUp (circular : store.IsCircular id) :
    ∃ parent, store.StepsUp id parent ∧ store.Passes parent id :=
  Relation.TransGen.head'_iff.1 circular

theorem isCircular_of_stepsUp (step : store.StepsUp id parent) (back : store.Passes parent id) :
    store.IsCircular id :=
  .head' step back

/-! ### Circles -/

namespace IsCircular

/-- There is one way up from every page, so a walk along a circle leads back. -/
theorem passes_back (circular : store.IsCircular id) (passes : store.Passes id other) :
    store.Passes other id := by
  induction passes with
  | refl => exact .refl
  | @tail between last _ step back =>
      -- the way back from the page below is empty at most where the circle itself begins
      rcases Relation.ReflTransGen.cases_head back with rfl | ⟨next, nextStep, rest⟩
      · obtain ⟨next, nextStep, rest⟩ := circular.exists_stepsUp
        rwa [step.unique nextStep]
      · rwa [step.unique nextStep]

/-- Numbers cannot fall all the way round. -/
theorem exists_rise (circular : store.IsCircular id) :
    ∃ low high, store.Passes id low ∧ store.StepsUp low high ∧ low ≤ high := by
  by_contra falling
  have falls {low high : Int} (passes : store.Passes id low) (step : store.StepsUp low high) :
      high < low :=
    Int.not_le.1 fun rises => falling ⟨low, high, passes, step, rises⟩
  have below {other : Int} (above : Relation.TransGen store.StepsUp id other) : other < id := by
    induction above with
    | single step => exact falls .refl step
    | tail above step induction => exact Int.lt_trans (falls above.to_reflTransGen step) induction
  exact Int.lt_irrefl id (below circular)

end IsCircular

/-! ### Walks that end -/

namespace ClimbsTo

theorem unique (first : store.ClimbsTo id names outcome) {again : Climb}
    (second : store.ClimbsTo id names again) : outcome = again := by
  induction first with
  | root =>
      cases second with
      | root => rfl
      | lost _ other | up other => exact absurd rfl other
  | lost _ other missing =>
      cases second with
      | root => exact absurd rfl other
      | lost => rfl
      | up _ found => cases missing.symm.trans found
  | up other found _ induction =>
      cases second with
      | root => exact absurd rfl other
      | lost _ _ missing => cases missing.symm.trans found
      | up _ foundAgain rest =>
          cases found.symm.trans foundAgain
          exact induction rest

theorem ne_endless (climbs : store.ClimbsTo id names outcome) : outcome ≠ .endless := by
  induction climbs with
  | root | lost => exact Climb.noConfusion
  | up _ _ _ induction => exact induction

/-- A walk that ends comes to no circle. -/
theorem not_isCircular (climbs : store.ClimbsTo id names outcome) (passes : store.Passes id other) :
    ¬store.IsCircular other := by
  induction climbs with
  | root =>
      rcases Relation.ReflTransGen.cases_head passes with rfl | ⟨_, step, -⟩
      · intro circular
        obtain ⟨_, step, -⟩ := circular.exists_stepsUp
        exact not_stepsUp_root step
      · exact absurd step not_stepsUp_root
  | lost _ _ missing =>
      rcases Relation.ReflTransGen.cases_head passes with rfl | ⟨_, step, -⟩
      · intro circular
        obtain ⟨_, step, -⟩ := circular.exists_stepsUp
        exact not_stepsUp_of_missing missing step
      · exact absurd step (not_stepsUp_of_missing missing)
  | @up id _ page _ apart found _ induction =>
      have up : store.StepsUp id page.parent := ⟨apart, page, found, rfl⟩
      rcases Relation.ReflTransGen.cases_head passes with rfl | ⟨_, step, rest⟩
      · intro circular
        obtain ⟨_, step, back⟩ := circular.exists_stepsUp
        obtain rfl := up.unique step
        exact induction back circular
      · obtain rfl := up.unique step
        exact induction rest

end ClimbsTo

theorem climbsTo_climbFrom {fuel : Nat} (ends : store.climbFrom fuel id names ≠ .endless) :
    store.ClimbsTo id names (store.climbFrom fuel id names) := by
  induction fuel generalizing id names with
  | zero =>
      rw [climbFrom] at ends ⊢
      split at ends
      · next isRoot =>
        subst isRoot
        exact .root names
      · exact absurd rfl ends
  | succ fuel induction =>
      rw [climbFrom] at ends ⊢
      split at ends
      · next isRoot =>
        subst isRoot
        exact .root names
      · next other =>
        rw [if_neg other]
        cases found : store.page? id with
        | none => exact .lost names other found
        | some page =>
            rw [found] at ends
            exact .up other found (induction ends)

/-- The pages on the way to a page that is on no circle are all different, so there are no more of
them than pages. -/
theorem climbFrom_ne_endless {fuel : Nat} {visited : List Int} (apart : visited.Nodup)
    (arePages : visited ⊆ store.pages.map Page.id)
    (below : ∀ lower ∈ visited, Relation.TransGen store.StepsUp lower id)
    (straight : ∀ other, store.Passes id other → ¬store.IsCircular other)
    (enough : store.pages.length < fuel + visited.length) :
    store.climbFrom fuel id names ≠ .endless := by
  induction fuel generalizing id names visited with
  | zero =>
      -- more different pages would have been passed than there are
      have few := (apart.subperm arePages).length_le
      rw [List.length_map] at few
      omega
  | succ fuel induction =>
      rw [climbFrom]
      split
      · exact Climb.noConfusion
      · next other =>
        cases found : store.page? id with
        | none => exact Climb.noConfusion
        | some page =>
            have step : store.StepsUp id page.parent := ⟨other, page, found, rfl⟩
            have isPage : id ∈ store.pages.map Page.id := List.mem_map.2 ⟨page, mem_of_page? found⟩
            have unvisited : id ∉ visited := fun again => straight id .refl (below id again)
            refine induction (List.nodup_cons.2 ⟨unvisited, apart⟩)
              (List.cons_subset.2 ⟨isPage, arePages⟩) ?_ ?_ ?_
            · exact List.forall_mem_cons.2 ⟨.single step, fun lower isLower =>
                (below lower isLower).tail step⟩
            · exact fun above passes => straight above (.head step passes)
            · rw [List.length_cons]
              omega

theorem climb_ne_endless (straight : ∀ other, store.Passes id other → ¬store.IsCircular other) :
    store.climb id ≠ .endless :=
  climbFrom_ne_endless List.nodup_nil (List.nil_subset _) (by simp) straight (by simp)

/-- Climbing at most as many steps as there are pages tells where the walk ends, and that it never
does otherwise. -/
theorem climbsTo_iff :
    store.ClimbsTo id [] outcome ↔ outcome ≠ .endless ∧ store.climb id = outcome := by
  constructor
  · intro climbs
    have ends : store.climb id ≠ .endless :=
      climb_ne_endless fun other passes => climbs.not_isCircular passes
    exact ⟨climbs.ne_endless, (climbsTo_climbFrom ends).unique climbs⟩
  · rintro ⟨ends, rfl⟩
    exact climbsTo_climbFrom ends

theorem climb_eq_endless_iff :
    store.climb id = .endless ↔ ∃ other, store.Passes id other ∧ store.IsCircular other := by
  constructor
  · intro endless
    by_contra straight
    exact climb_ne_endless (fun other passes circular => straight ⟨other, passes, circular⟩) endless
  · rintro ⟨other, passes, circular⟩
    by_contra ends
    exact (climbsTo_climbFrom ends).not_isCircular passes circular

/-! ### Pages that were added before their parents -/

theorem stepsUp_iff_mem (apart : (store.pages.map Page.id).Nodup) :
    store.StepsUp id parent ↔ id ≠ rootId ∧ ∃ name, ⟨id, parent, name⟩ ∈ store.places := by
  refine and_congr_right fun _ => ⟨?_, ?_⟩
  · rintro ⟨page, found, rfl⟩
    obtain ⟨isPage, rfl⟩ := mem_of_page? found
    exact ⟨page.name, List.mem_map_of_mem isPage⟩
  · rintro ⟨name, isPlace⟩
    obtain ⟨page, found, stands⟩ := page?_eq_some apart isPlace
    exact ⟨page, found, congrArg Place.parent stands⟩

theorem forall_climb_ne_endless_iff :
    (∀ id, store.climb id ≠ .endless) ↔ ∀ id, ¬store.IsCircular id := by
  simp only [ne_eq, climb_eq_endless_iff]
  constructor
  · exact fun ends id circular => ends id ⟨id, .refl, circular⟩
  · rintro straight id ⟨other, -, circular⟩
    exact straight other circular

namespace Reachable

variable {schema : Schema}

theorem parent_root (reached : Reachable schema store) {page : Page} (isPage : page ∈ store.pages)
    (isRoot : page.id = rootId) : page.parent = 0 := by
  have first : store.places.head? = some ⟨rootId, 0, "home"⟩ := by
    refine reached.of_places (p := fun places => places.head? = some ⟨rootId, 0, "home"⟩) rfl ?_
    intro store next page inserted first
    rw [inserted.places, List.head?_append, first]
    rfl
  have same : page.place = ⟨rootId, 0, "home"⟩ :=
    place_eq_of_id_eq reached.nodup_ids (List.mem_map_of_mem isPage) (List.mem_of_mem_head? first)
      isRoot
  exact congrArg Place.parent same

/-- The walk up from a page never ends just when it comes to a page that was added before its
parent was there, as numbers are given in order, and from that parent it comes to the page again. -/
theorem climb_endless_iff (reached : Reachable schema store) (id : Int) :
    (store.climb id = .endless ↔ ¬∃ outcome, store.ClimbsTo id [] outcome) ∧
      (store.climb id = .endless ↔
        ∃ page ∈ store.pages, page.id ≤ page.parent ∧ store.Passes id page.id ∧
          store.Passes page.parent page.id) := by
  constructor
  · simp only [climbsTo_iff, not_exists, not_and]
    constructor
    · exact fun endless outcome ends same => ends (same ▸ endless)
    · intro none
      by_contra ends
      exact none _ ends rfl
  · rw [climb_eq_endless_iff]
    constructor
    · rintro ⟨other, passes, circular⟩
      obtain ⟨low, high, along, step, rises⟩ := circular.exists_rise
      obtain ⟨page, found, rfl⟩ := step.2
      obtain ⟨isPage, rfl⟩ := mem_of_page? found
      refine ⟨page, isPage, rises, passes.trans along, ?_⟩
      exact (circular.passes_back (along.tail step)).trans along
    · rintro ⟨page, isPage, rises, passes, back⟩
      have other : page.id ≠ rootId := by
        intro isRoot
        rw [reached.parent_root isPage isRoot, isRoot] at rises
        exact absurd rises (by decide)
      have step : store.StepsUp page.id page.parent :=
        ⟨other, page, page?_of_mem reached.nodup_ids isPage, rfl⟩
      exact ⟨page.id, passes, isCircular_of_stepsUp step back⟩

end Reachable

/-- A store with two pages below each other: the first was added below the number that the second
got then. -/
def circledStore : Store :=
  { Store.new ⟨0, false⟩ with
    pages := (Store.new ⟨0, false⟩).pages ++
      [⟨2, 3, 0, "egg", 1, "1970-01-01 00:00:00", "1970-01-01 00:00:00"⟩,
        ⟨3, 2, 0, "hen", 1, "1970-01-01 00:00:00", "1970-01-01 00:00:00"⟩]
    ancestry := [⟨1, 1⟩, ⟨2, 3⟩, ⟨3, 2⟩, ⟨3, 3⟩] }

theorem climb_circledStore :
    Reachable [] circledStore ∧ circledStore.climb 3 = .endless ∧
      (¬∃ outcome, circledStore.ClimbsTo 3 [] outcome) ∧
      ∃ page ∈ circledStore.pages, page.id ≤ page.parent ∧ circledStore.Passes 3 page.id ∧
        circledStore.Passes page.parent page.id := by
  let single : Store :=
    { circledStore with
      pages := circledStore.pages.take 2
      ancestry := circledStore.ancestry.take 2 }
  have made : (Store.new ⟨0, false⟩).ensureTables (Schema.fields []) =
      (Store.new ⟨0, false⟩, .ok ()) := rfl
  have first : (Store.new ⟨0, false⟩).insertPage ⟨0, false⟩ (.named 3 "egg") = .ok (2, single) :=
    rfl
  have second : single.insertPage ⟨0, false⟩ (.named 2 "hen") = .ok (3, circledStore) := rfl
  have reached : Reachable [] circledStore :=
    ((Reachable.fresh made).insertPage first).insertPage second
  have endless : circledStore.climb 3 = .endless := by decide
  obtain ⟨walks, pages⟩ := reached.climb_endless_iff 3
  exact ⟨reached, endless, walks.1 endless, pages.1 endless⟩

/-! ### Which additions close a circle -/

/-- Every walk up ends. -/
def HasEndingWalks (store : Store) : Prop :=
  ∀ id, store.climb id ≠ .endless

theorem HasEndingWalks.congr {next : Store} (apart : (store.pages.map Page.id).Nodup)
    (apartNext : (next.pages.map Page.id).Nodup) (places : next.places = store.places) :
    next.HasEndingWalks ↔ store.HasEndingWalks := by
  have steps : next.StepsUp = store.StepsUp := by
    funext id parent
    rw [stepsUp_iff_mem apart, stepsUp_iff_mem apartNext, places]
  rw [HasEndingWalks, HasEndingWalks, forall_climb_ne_endless_iff, forall_climb_ne_endless_iff]
  simp only [IsCircular, steps]

namespace IsInserted

variable {next : Store} {page : NewPage} (inserted : store.IsInserted page next)
  (numbered : store.IsNumbered) (rooted : store.HasPage rootId)

include inserted numbered rooted

theorem stepsUp_iff :
    next.StepsUp id parent ↔
      store.StepsUp id parent ∨ id = store.nextPageId ∧ parent = page.parent := by
  have fresh : store.nextPageId ≠ rootId := by
    rintro isRoot
    exact not_hasPage_nextPageId numbered (isRoot ▸ rooted)
  rw [stepsUp_iff_mem (nodup_of_isNumbered (inserted.isNumbered numbered)),
    stepsUp_iff_mem (nodup_of_isNumbered numbered)]
  simp only [inserted.mem_places_iff, Place.mk.injEq]
  constructor
  · rintro ⟨other, name, old | ⟨rfl, rfl, rfl⟩⟩
    · exact .inl ⟨other, name, old⟩
    · exact .inr ⟨rfl, rfl⟩
  · rintro (⟨other, name, old⟩ | ⟨rfl, rfl⟩)
    · exact ⟨other, name, .inl old⟩
    · exact ⟨fresh, page.name, .inr ⟨rfl, rfl, rfl⟩⟩

theorem passes_old (unlinked : ¬store.Passes page.parent store.nextPageId)
    (passes : next.Passes id other) :
    store.Passes id other ∨
      store.Passes id store.nextPageId ∧ store.Passes page.parent other := by
  induction passes with
  | refl => exact .inl .refl
  | tail _ step induction =>
      rcases (inserted.stepsUp_iff numbered rooted).1 step with old | ⟨rfl, rfl⟩
      · exact induction.imp (fun before => before.tail old)
          fun ⟨before, after⟩ => ⟨before, after.tail old⟩
      · rcases induction with before | ⟨before, after⟩
        -- the new page is passed for the first time, or a second time, which closes a circle
        · exact .inr ⟨before, .refl⟩
        · exact absurd after unlinked

/-- A page closes a circle just when the walk up from its parent comes to the number that the page
gets, which no page has until then. -/
theorem hasEndingWalks_iff :
    next.HasEndingWalks ↔
      store.HasEndingWalks ∧ ¬store.Passes page.parent store.nextPageId := by
  have steps {id parent : Int} : next.StepsUp id parent ↔
      store.StepsUp id parent ∨ id = store.nextPageId ∧ parent = page.parent :=
    inserted.stepsUp_iff numbered rooted
  have old {id other : Int} (passes : store.Passes id other) : next.Passes id other :=
    Relation.ReflTransGen.mono (fun _ _ step => steps.2 (.inl step)) _ _ passes
  rw [HasEndingWalks, HasEndingWalks, forall_climb_ne_endless_iff, forall_climb_ne_endless_iff]
  constructor
  · intro straight
    refine ⟨fun id circular => ?_, fun closes => ?_⟩
    · obtain ⟨parent, step, back⟩ := circular.exists_stepsUp
      exact straight id (isCircular_of_stepsUp (steps.2 (.inl step)) (old back))
    · exact straight store.nextPageId
        (isCircular_of_stepsUp (steps.2 (.inr ⟨rfl, rfl⟩)) (old closes))
  · rintro ⟨straight, unlinked⟩ id circular
    obtain ⟨parent, step, back⟩ := circular.exists_stepsUp
    have passes := inserted.passes_old numbered rooted unlinked back
    rcases steps.1 step with step | ⟨rfl, rfl⟩
    · rcases passes with back | ⟨before, after⟩
      · exact straight id (isCircular_of_stepsUp step back)
      · exact unlinked ((after.tail step).trans before)
    · rcases passes with back | ⟨back, -⟩ <;> exact unlinked back

end IsInserted

/-- Stores that a site can come to when no addition closes a circle. -/
inductive Guarded (schema : Schema) : Store → Prop where
  | fresh {now : Date.Moment} {store : Store}
      (made : (Store.new now).ensureTables schema.fields = (store, .ok ())) :
      Guarded schema store
  | addTemplate {store : Store} (name : String) (guarded : Guarded schema store) :
      Guarded schema (store.addTemplate name).2
  | insertPage {store next : Store} {now : Date.Moment} {page : NewPage} {id : Int}
      (guarded : Guarded schema store)
      (straight : ¬store.Passes page.parent store.nextPageId)
      (inserted : store.insertPage now page = .ok (id, next)) : Guarded schema next
  | setField {store next : Store} {now : Date.Moment} {name : String} {page : Int} {value : String}
      (guarded : Guarded schema store)
      (set : store.setField schema now name page value = .ok next) : Guarded schema next
  | importSeed {store : Store} (now : Date.Moment) (seed : Seed)
      (guarded : Guarded schema store) :
      Guarded schema (store.importSeed schema now seed).store

theorem Guarded.reachable {schema : Schema} (guarded : Guarded schema store) :
    Reachable schema store := by
  induction guarded with
  | fresh made => exact .fresh made
  | addTemplate name _ induction => exact .addTemplate name induction
  | insertPage _ _ inserted induction => exact .insertPage induction inserted
  | setField _ set induction => exact .setField induction set
  | importSeed now seed _ induction => exact .importSeed now seed induction

/-- The walk up from a page that names lead to comes to pages only. -/
theorem Leads.hasPage_of_passes (apart : (store.pages.map Page.id).Nodup)
    (rooted : store.HasPage rootId) {names : List String} (leads : store.Leads names id)
    (passes : store.Passes id other) : store.HasPage other := by
  induction leads with
  | root =>
      rcases Relation.ReflTransGen.cases_head passes with rfl | ⟨_, step, -⟩
      · exact rooted
      · exact absurd step not_stepsUp_root
  | @child _ id parent name _ isPlace induction =>
      rcases Relation.ReflTransGen.cases_head passes with rfl | ⟨_, step, rest⟩
      · exact hasPage_of_mem isPlace
      · obtain ⟨-, again, isAgain⟩ := (stepsUp_iff_mem apart).1 step
        cases place_eq_of_id_eq apart isPlace isAgain rfl
        exact induction rest

namespace Reachable

variable {schema : Schema} {next : Store}

theorem hasEndingWalks_addTemplate (reached : Reachable schema store) (name : String) :
    (store.addTemplate name).2.HasEndingWalks ↔ store.HasEndingWalks :=
  HasEndingWalks.congr reached.nodup_ids (reached.addTemplate name).nodup_ids
    (places_addTemplate store name)

theorem hasEndingWalks_setField (reached : Reachable schema store) {now : Date.Moment}
    {name value : String} {page : Int}
    (set : store.setField schema now name page value = .ok next) :
    next.HasEndingWalks ↔ store.HasEndingWalks :=
  HasEndingWalks.congr reached.nodup_ids (reached.setField set).nodup_ids (places_setField set)

theorem hasEndingWalks_importStep (reached : Reachable schema store) {now : Date.Moment}
    (step : ImportStep schema now store next) : next.HasEndingWalks ↔ store.HasEndingWalks := by
  cases step with
  | addTemplate name => exact reached.hasEndingWalks_addTemplate name
  | setField set => exact reached.hasEndingWalks_setField set
  | insertPage below _ inserted =>
      have leads := (pageId?_eq_some_iff reached.hasApartSiblings).1 below
      rw [(insertPage_eq_ok inserted).hasEndingWalks_iff reached.isNumbered reached.hasPage_root,
        and_iff_left fun closes => not_hasPage_nextPageId reached.isNumbered
          (leads.hasPage_of_passes reached.nodup_ids reached.hasPage_root closes)]

/-- Imports never close a circle. -/
theorem hasEndingWalks_importRun (reached : Reachable schema store) {now : Date.Moment}
    (run : ImportRun schema now store next) : next.HasEndingWalks ↔ store.HasEndingWalks := by
  induction run with
  | refl => rfl
  | tail run step induction =>
      exact ((reached.importRun run).hasEndingWalks_importStep step).trans induction

theorem hasEndingWalks_fresh {now : Date.Moment}
    (made : (Store.new now).ensureTables schema.fields = (store, .ok ())) :
    store.HasEndingWalks := by
  have tree : store.IsTree fun _ => True :=
    IsTree.of_isBare ⟨(places_of_ensureTables_new made).1, (places_of_ensureTables_new made).2⟩
  rw [HasEndingWalks, forall_climb_ne_endless_iff]
  intro id circular
  obtain ⟨low, high, -, step, rises⟩ := circular.exists_rise
  obtain ⟨other, name, isPlace⟩ := (stepsUp_iff_mem (nodup_of_isNumbered tree.numbered)).1 step
  exact absurd (tree.parents _ isPlace other).2 (Int.not_lt.2 rises)

end Reachable

/-- The walks up of a store all end just when no addition of a page closed a circle. -/
theorem guarded_iff {schema : Schema} :
    Guarded schema store ↔ Reachable schema store ∧ store.HasEndingWalks := by
  constructor
  · intro guarded
    refine ⟨guarded.reachable, ?_⟩
    induction guarded with
    | fresh made => exact Reachable.hasEndingWalks_fresh made
    | addTemplate name guarded induction =>
        exact (guarded.reachable.hasEndingWalks_addTemplate name).2 induction
    | insertPage guarded straight inserted induction =>
        have reached := guarded.reachable
        exact ((insertPage_eq_ok inserted).hasEndingWalks_iff reached.isNumbered
          reached.hasPage_root).2 ⟨induction, straight⟩
    | setField guarded set induction =>
        exact (guarded.reachable.hasEndingWalks_setField set).2 induction
    | importSeed now seed guarded induction =>
        exact (guarded.reachable.hasEndingWalks_importRun (.importSeed seed _)).2 induction
  · rintro ⟨reached, ends⟩
    induction reached with
    | fresh made => exact .fresh made
    | addTemplate name reached induction =>
        exact .addTemplate name (induction ((reached.hasEndingWalks_addTemplate name).1 ends))
    | insertPage reached inserted induction =>
        obtain ⟨before, straight⟩ := ((insertPage_eq_ok inserted).hasEndingWalks_iff
          reached.isNumbered reached.hasPage_root).1 ends
        exact .insertPage (induction before) straight inserted
    | setField reached set induction =>
        exact .setField (induction ((reached.hasEndingWalks_setField set).1 ends)) set
    | importSeed now seed reached induction =>
        exact .importSeed now seed
          (induction ((reached.hasEndingWalks_importRun (.importSeed seed _)).1 ends))

end Store

end PageTree
