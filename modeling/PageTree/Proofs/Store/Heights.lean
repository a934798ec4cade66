import PageTree.Proofs.Compile.Alias
import PageTree.Proofs.Store.Tree

/-!
Pages at the places that paths name. Every page above the last name of a path has an alias by its
number in the path, whatever other paths there are. Main statement: pages can be given to the
aliases of several paths just when the pages above have the names of each path, and where a number
stands in two paths, it stands for one page in both.
-/

namespace PageTree

open Sql

namespace Path

/-- The names above the last one, from the deepest on. -/
def upper (path : String) : List String :=
  if path = "/" then [] else (segments path).dropLast.reverse

theorem joins_eq (path : String) : joins path = joinsAbove "pages" (upper path) := by
  unfold joins upper
  split <;> rfl

def parentAlias (n : Nat) : String :=
  "parent" ++ toString n

def aliases : List String → List String
  | [] => []
  | name :: above =>
    (if name = "" then "rootparent" else parentAlias (above.length + 1)) :: aliases above

theorem map_aliasName_joinsAbove_eq (above : List String) (below : String) :
    (joinsAbove below above).map Join.aliasName = aliases above := by
  induction above generalizing below with
  | nil => rfl
  | cons name above induction =>
      rw [joinsAbove, aliases]
      split
      · rw [List.map_cons, induction]
        rfl
      · rw [List.map_cons, induction]
        rfl

/-- The numbers of the named pages above a page, each with the height at which the page stands. -/
def stops : Nat → List String → List (Nat × Nat)
  | _, [] => []
  | height, name :: above =>
    if name = "" then stops height above
    else (above.length + 1, height + 1) :: stops (height + 1) above

/-- Does a number that stands in both paths stand at one height in both? -/
def Aligned (path other : String) : Prop :=
  ∀ stop ∈ stops 0 (upper path), ∀ another ∈ stops 0 (upper other),
    stop.1 = another.1 → stop.2 = another.2

instance (path other : String) : Decidable (Aligned path other) :=
  inferInstanceAs (Decidable (∀ stop ∈ stops 0 (upper path), ∀ another ∈ stops 0 (upper other),
    stop.1 = another.1 → stop.2 = another.2))

example : Aligned "/a/b" "/c/b" ∧ Aligned "a/b" "b" ∧ ¬ Aligned "a/b/c" "/a/b/c" := by decide

theorem fst_le_of_mem_stops {above : List String} {height : Nat} :
    ∀ stop ∈ stops height above, stop.1 ≤ above.length := by
  induction above generalizing height with
  | nil => simp [stops]
  | cons name above induction =>
      rw [stops, List.length_cons]
      split
      · exact fun stop isStop => Nat.le_succ_of_le (induction stop isStop)
      · exact List.forall_mem_cons.2
          ⟨Nat.le_refl _, fun stop isStop => Nat.le_succ_of_le (induction stop isStop)⟩

/-- No number stands at two heights of one path. -/
theorem aligned_self (path : String) : Aligned path path := by
  have once (above : List String) (height : Nat) : ∀ stop ∈ stops height above,
      ∀ another ∈ stops height above, stop.1 = another.1 → stop.2 = another.2 := by
    induction above generalizing height with
    | nil => simp [stops]
    | cons name above induction =>
        rw [stops]
        split
        · exact induction height
        · have last {stop : Nat × Nat} (isStop : stop ∈ stops (height + 1) above) :
              stop.1 ≠ above.length + 1 :=
            Nat.ne_of_lt (Nat.lt_succ_of_le (fst_le_of_mem_stops stop isStop))
          simp only [List.forall_mem_cons]
          refine ⟨⟨fun _ => trivial, fun another isOther same => absurd same.symm (last isOther)⟩,
            fun stop isStop => ⟨fun same => absurd same (last isStop), ?_⟩⟩
          exact induction (height + 1) stop isStop
  exact once (upper path) 0

theorem parentAlias_injective : Function.Injective parentAlias := by
  intro m n same
  have spelled := congrArg String.toList same
  rw [parentAlias, parentAlias, String.toList_append, String.toList_append] at spelled
  have digits (n : Nat) : Nat.ofDigitChars 10 (toString n).toList 0 = n := by
    simp
  rw [← digits m, List.append_cancel_left spelled, digits n]

theorem parentAlias_ne_root (n : Nat) : parentAlias n ≠ "rootparent" := by
  intro same
  have heads := congrArg (fun name => name.toList.head?) same
  have first : (parentAlias n).toList.head? = some 'p' := by
    rw [parentAlias, String.toList_append]
    rfl
  have other : "rootparent".toList.head? = some 'r' := rfl
  rw [first, other] at heads
  exact absurd heads (by decide)

end Path

/-! ### Pages above a page -/

namespace Store

variable {store : Store}

/-- The page that stands so many steps above a page. -/
def above? (store : Store) (page : Page) : Nat → Option Page
  | 0 => some page
  | height + 1 => (store.above? page height).bind fun other => store.page? other.parent

/-- Do the pages above a page have these names, from the deepest on? An empty name asks for the root
right above. -/
def Ascends (store : Store) : Page → List String → Prop
  | _, [] => True
  | page, name :: above =>
    if name = "" then page.parent = rootId ∧ store.Ascends page above
    else ∃ next, store.page? page.parent = some next ∧ next.name = dropNulls name ∧
      store.Ascends next above

instance decidableAscends (store : Store) :
    (page : Page) → (above : List String) → Decidable (store.Ascends page above)
  | _, [] => isTrue trivial
  | page, name :: above =>
    if empty : name = "" then
      have := decidableAscends store page above
      decidable_of_iff (page.parent = rootId ∧ store.Ascends page above) (by
        rw [Ascends, if_pos empty])
    else
      match found : store.page? page.parent with
      | none => isFalse (by simp [Ascends, empty, found])
      | some next =>
        have := decidableAscends store next above
        decidable_of_iff (next.name = dropNulls name ∧ store.Ascends next above) (by
          simp [Ascends, empty, found])

/-- Does the page stand at the path? One that names no other page has to stand below the root. -/
def LiesAt (store : Store) (path : String) (page : Page) : Prop :=
  if path = "/" then page.id = rootId
  else page.name = dropNulls ((Path.segments path).getLastD "") ∧
    ((Path.segments path).length ≤ 1 → page.parent = rootId) ∧
      store.Ascends page (Path.upper path)

instance (store : Store) (path : String) (page : Page) : Decidable (store.LiesAt path page) :=
  inferInstanceAs (Decidable (ite ..))

/-- Above the page, do two paths lead to one page wherever a number stands in both? -/
def Meet (store : Store) (page : Page) (path other : String) : Prop :=
  ∀ stop ∈ Path.stops 0 (Path.upper path), ∀ another ∈ Path.stops 0 (Path.upper other),
    stop.1 = another.1 → store.above? page stop.2 = store.above? page another.2

theorem meet_of_aligned {path other : String} (aligned : Path.Aligned path other) (page : Page) :
    store.Meet page path other := by
  intro stop isStop another isOther same
  rw [aligned stop isStop another isOther same]

theorem page?_eq_some_iff (apart : (store.pages.map Page.id).Nodup) {id : Int} {page : Page} :
    store.page? id = some page ↔ page ∈ store.pages ∧ page.id = id := by
  constructor
  · exact fun found => ⟨List.mem_of_find?_eq_some found, by simpa using List.find?_some found⟩
  · rintro ⟨isPage, rfl⟩
    exact page?_of_mem apart isPage

end Store

/-! ### Pages given to aliases -/

namespace Path

/-- The pages that the aliases of the names stand for stand above the page and have the names. -/
def Seats (place : String → Page) : Page → List String → Prop
  | _, [] => True
  | page, name :: above =>
    if name = "" then
      (page.parent = (place "rootparent").id ∧ (place "rootparent").id = rootId) ∧
        Seats place page above
    else
      (page.parent = (place (parentAlias (above.length + 1))).id ∧
        (place (parentAlias (above.length + 1))).name = dropNulls name) ∧
        Seats place (place (parentAlias (above.length + 1))) above

variable {store : Store} (apart : (store.pages.map Page.id).Nodup) {place : String → Page}
  {page start : Page} {above : List String} {height : Nat}

include apart

theorem Seats.ascends (seats : Seats place page above)
    (inside : ∀ aliasName ∈ aliases above, place aliasName ∈ store.pages) :
    store.Ascends page above := by
  induction above generalizing page with
  | nil => trivial
  | cons name above induction =>
      rw [aliases, List.forall_mem_cons] at inside
      rw [Seats] at seats
      rw [Store.Ascends]
      by_cases empty : name = ""
      · rw [if_pos empty] at seats ⊢
        exact ⟨seats.1.1.trans seats.1.2, induction seats.2 inside.2⟩
      · rw [if_neg empty] at seats inside ⊢
        obtain ⟨⟨parent, named⟩, rest⟩ := seats
        exact ⟨_, (Store.page?_eq_some_iff apart).2 ⟨inside.1, parent.symm⟩, named,
          induction rest inside.2⟩

/-- The alias of a number stands for the page at its height. -/
theorem Seats.above?_eq (seats : Seats place page above)
    (inside : ∀ aliasName ∈ aliases above, place aliasName ∈ store.pages)
    (stands : store.above? start height = some page) :
    ∀ stop ∈ stops height above, store.above? start stop.2 = some (place (parentAlias stop.1)) := by
  induction above generalizing page height with
  | nil => simp [stops]
  | cons name above induction =>
      rw [aliases, List.forall_mem_cons] at inside
      rw [Seats] at seats
      rw [stops]
      by_cases empty : name = ""
      · rw [if_pos empty] at seats ⊢
        exact induction seats.2 inside.2 stands
      · rw [if_neg empty] at seats inside ⊢
        obtain ⟨⟨parent, -⟩, rest⟩ := seats
        have next : store.above? start (height + 1) =
            some (place (parentAlias (above.length + 1))) := by
          rw [Store.above?, stands, Option.bind_some]
          exact (Store.page?_eq_some_iff apart).2 ⟨inside.1, parent.symm⟩
        exact List.forall_mem_cons.2 ⟨next, induction rest inside.2 next⟩

theorem seats_of_ascends {root : Page} (isRoot : root.id = rootId)
    (rooted : place "rootparent" = root) (ascends : store.Ascends page above)
    (stands : store.above? start height = some page)
    (placed : ∀ stop ∈ stops height above,
      store.above? start stop.2 = some (place (parentAlias stop.1))) : Seats place page above := by
  induction above generalizing page height with
  | nil => trivial
  | cons name above induction =>
      rw [Store.Ascends] at ascends
      rw [stops] at placed
      rw [Seats]
      by_cases empty : name = ""
      · rw [if_pos empty] at ascends placed ⊢
        rw [rooted, isRoot]
        exact ⟨⟨ascends.1, rfl⟩, induction ascends.2 stands placed⟩
      · rw [if_neg empty] at ascends placed ⊢
        obtain ⟨next, found, named, rest⟩ := ascends
        rw [List.forall_mem_cons] at placed
        have above : store.above? start (height + 1) = some next := by
          rw [Store.above?, stands, Option.bind_some, found]
        obtain rfl : next = _ := Option.some.inj (above.symm.trans placed.1)
        exact ⟨⟨((Store.page?_eq_some_iff apart).1 found).2.symm, named⟩,
          induction rest above placed.2⟩

theorem exists_above?_of_ascends (ascends : store.Ascends page above)
    (stands : store.above? start height = some page) :
    ∀ stop ∈ stops height above, ∃ other ∈ store.pages, store.above? start stop.2 = some other := by
  induction above generalizing page height with
  | nil => simp [stops]
  | cons name above induction =>
      rw [Store.Ascends] at ascends
      rw [stops]
      by_cases empty : name = ""
      · rw [if_pos empty] at ascends ⊢
        exact induction ascends.2 stands
      · rw [if_neg empty] at ascends ⊢
        obtain ⟨next, found, -, rest⟩ := ascends
        have above : store.above? start (height + 1) = some next := by
          rw [Store.above?, stands, Option.bind_some, found]
        exact List.forall_mem_cons.2
          ⟨⟨next, ((Store.page?_eq_some_iff apart).1 found).1, above⟩, induction rest above⟩

/-- Pages can be given to the aliases of some paths when they have the names of each path, and no
number leads two paths to two pages. -/
theorem exists_seats_iff (page : Page) (rooted : store.HasPage rootId) (paths : List String) :
    (∃ place : String → Page, ∀ path ∈ paths,
      (∀ aliasName ∈ aliases (upper path), place aliasName ∈ store.pages) ∧
        Seats place page (upper path)) ↔
      (∀ path ∈ paths, store.Ascends page (upper path)) ∧
        ∀ path ∈ paths, ∀ other ∈ paths, store.Meet page path other := by
  constructor
  · rintro ⟨place, seated⟩
    constructor
    · intro path isPath
      obtain ⟨inside, seats⟩ := seated path isPath
      exact seats.ascends apart inside
    · intro path isPath other isOther stop isStop another isAnother same
      obtain ⟨inside, seats⟩ := seated path isPath
      obtain ⟨insideToo, seatsToo⟩ := seated other isOther
      rw [seats.above?_eq apart inside rfl stop isStop,
        seatsToo.above?_eq apart insideToo rfl another isAnother, same]
  · rintro ⟨ascends, meet⟩
    obtain ⟨root, isFirst, isRoot⟩ := Store.exists_page_of_hasPage rooted
    -- Every alias is given the page at the height of its number in whatever path has it.
    have found (aliasName : String) : ∃ other ∈ store.pages,
        (aliasName = "rootparent" → other = root) ∧
        ∀ path ∈ paths, ∀ stop ∈ stops 0 (upper path), aliasName = parentAlias stop.1 →
          store.above? page stop.2 = some other := by
      by_cases numbered : ∃ path ∈ paths, ∃ stop ∈ stops 0 (upper path),
          aliasName = parentAlias stop.1
      · obtain ⟨path, isPath, stop, isStop, rfl⟩ := numbered
        obtain ⟨other, isOther, stands⟩ :=
          exists_above?_of_ascends apart (ascends path isPath) rfl stop isStop
        refine ⟨other, isOther, fun same => absurd same (parentAlias_ne_root _), ?_⟩
        intro path' isPath' another isAnother same
        rw [← meet path isPath path' isPath' stop isStop another isAnother
          (parentAlias_injective same), stands]
      · exact ⟨root, isFirst, fun _ => rfl, fun path isPath stop isStop same =>
          absurd ⟨path, isPath, stop, isStop, same⟩ numbered⟩
    choose place inside isPlace placed using found
    refine ⟨place, fun path isPath => ⟨fun aliasName _ => inside aliasName, ?_⟩⟩
    exact seats_of_ascends apart isRoot (isPlace _ rfl) (ascends path isPath) rfl
      fun stop isStop => placed _ path isPath stop isStop rfl

end Path

/-! ### Heights in trees -/

namespace Store

variable {store : Store} {isName : String → Prop} {page : Page}

theorem Meet.symm {path other : String} (meet : store.Meet page path other) :
    store.Meet page other path :=
  fun stop isStop another isOther same => (meet another isOther stop isStop same.symm).symm

namespace IsTree

variable (tree : store.IsTree isName)

include tree

theorem id_lt_of_page?_parent {next : Page} (isPage : page ∈ store.pages)
    (found : store.page? page.parent = some next) : next.id < page.id := by
  obtain ⟨isNext, same⟩ := (page?_eq_some_iff (nodup_of_isNumbered tree.numbered)).1 found
  have isPlace : page.place ∈ store.places := List.mem_map_of_mem isPage
  by_cases top : page.id = rootId
  · obtain ⟨name, isRoot⟩ := tree.root
    have parent : page.parent = 0 := congrArg Place.parent (tree.eq_of_id_eq isPlace isRoot top)
    have isHere : store.HasPage next.id :=
      hasPage_of_mem (List.mem_map_of_mem isNext : next.place ∈ store.places)
    have bounds := (hasPage_iff_of_isNumbered tree.numbered).1 isHere
    omega
  · rw [same]
    exact (tree.parents page.place isPlace top).2

theorem id_above?_lt (isPage : page ∈ store.pages) {height : Nat} {above : Page}
    (found : store.above? page (height + 1) = some above) :
    ∃ below ∈ store.pages, store.above? page height = some below ∧ above.id < below.id := by
  rw [above?, Option.bind_eq_some_iff] at found
  obtain ⟨below, stands, next⟩ := found
  have inside : below ∈ store.pages := by
    cases height with
    | zero => exact Option.some.inj stands ▸ isPage
    | succ height =>
        rw [above?, Option.bind_eq_some_iff] at stands
        obtain ⟨_, -, last⟩ := stands
        exact List.mem_of_find?_eq_some last
  exact ⟨below, inside, stands, tree.id_lt_of_page?_parent inside next⟩

theorem id_above?_lt_of_lt (isPage : page ∈ store.pages) {height : Nat} {low : Page}
    (stands : store.above? page height = some low) (n : Nat) {high : Page}
    (found : store.above? page (height + n + 1) = some high) : high.id < low.id := by
  induction n generalizing high with
  | zero =>
      obtain ⟨below, -, same, less⟩ := tree.id_above?_lt isPage found
      obtain rfl : low = below := Option.some.inj (stands.symm.trans same)
      exact less
  | succ n induction =>
      obtain ⟨below, -, next, less⟩ := tree.id_above?_lt isPage found
      exact Int.lt_trans less (induction next)

theorem height_eq_of_above?_eq (isPage : page ∈ store.pages) {height other : Nat} {above : Page}
    (stands : store.above? page height = some above)
    (again : store.above? page other = some above) : height = other := by
  rcases Nat.lt_trichotomy height other with less | same | less
  · obtain ⟨n, rfl⟩ := Nat.exists_eq_add_of_lt less
    exact absurd (tree.id_above?_lt_of_lt isPage stands n again) (Int.lt_irrefl _)
  · exact same
  · obtain ⟨n, rfl⟩ := Nat.exists_eq_add_of_lt less
    exact absurd (tree.id_above?_lt_of_lt isPage again n stands) (Int.lt_irrefl _)

/-- In a tree no page stands at two heights, so that only aligned paths meet. -/
theorem meet_iff_aligned (isPage : page ∈ store.pages) {path other : String}
    (ascends : store.Ascends page (Path.upper path)) :
    store.Meet page path other ↔ Path.Aligned path other := by
  have apart := nodup_of_isNumbered tree.numbered
  refine ⟨fun meet stop isStop another isOther same => ?_, fun aligned =>
    meet_of_aligned aligned page⟩
  obtain ⟨above, -, stands⟩ := Path.exists_above?_of_ascends apart ascends rfl stop isStop
  refine tree.height_eq_of_above?_eq isPage stands ?_
  rw [← meet stop isStop another isOther same, stands]

end IsTree

end Store

end PageTree
