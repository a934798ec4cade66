import PageTree.Proofs.Store.Frames

/-!
Tables that are only looked up. A table that keeps rows and has at most one record for every page
gives each joined row of the page that record, or none, and does nothing else. Main statements: with
such tables joined first, the joined rows of a page are the rows without them, each extended by what
is looked up, and no pattern beyond the limit comes up that did not come up before.
-/

namespace PageTree

open Sql

universe u

namespace Sql.Condition

variable {α : Type u} {f g : α → Truth} {marked : α → Bool}

mutual

theorem reaches_congr : (c : Condition α) → (∀ a ∈ c.tests, f a = g a) →
    c.reaches f marked = c.reaches g marked
  | .test _, _ => rfl
  | .fragment _, _ => rfl
  | .never, _ => rfl
  | .all cs, same => reachesEach_congr cs same
  | .any cs, same => reachesEach_congr cs same
  | .not c, same => reaches_congr c same

theorem reachesEach_congr {settled : Truth} : (cs : List (Condition α)) →
    (∀ a ∈ testsEach cs, f a = g a) →
      reachesEach f marked settled cs = reachesEach g marked settled cs
  | [], _ => rfl
  | c :: cs, same => by
      have first : ∀ a ∈ c.tests, f a = g a := fun a member =>
        same a (List.mem_append_left _ member)
      rw [reachesEach, reachesEach, reaches_congr c first, eval_congr c first,
        reachesEach_congr cs fun a member => same a (List.mem_append_right _ member)]

end

mutual

theorem reaches_eq_false : (c : Condition α) → (∀ a ∈ c.tests, marked a = false) →
    c.reaches f marked = false
  | .test a, unmarked => unmarked a (List.mem_singleton_self a)
  | .fragment a, unmarked => unmarked a (List.mem_singleton_self a)
  | .never, _ => rfl
  | .all cs, unmarked => reachesEach_eq_false cs unmarked
  | .any cs, unmarked => reachesEach_eq_false cs unmarked
  | .not c, unmarked => reaches_eq_false c unmarked

theorem reachesEach_eq_false {settled : Truth} : (cs : List (Condition α)) →
    (∀ a ∈ testsEach cs, marked a = false) → reachesEach f marked settled cs = false
  | [], _ => rfl
  | c :: cs, unmarked => by
      rw [reachesEach, reaches_eq_false c fun a member => unmarked a (List.mem_append_left _ member),
        reachesEach_eq_false cs fun a member => unmarked a (List.mem_append_right _ member),
        Bool.and_false, Bool.or_false]

end

end Sql.Condition

namespace Binding

variable {binding : Binding} {source other : Source} {record otherRecord : Option Record}

/-- Tables under different names can be joined in either order. -/
theorem extend_comm (apart : foldName source.aliasName ≠ foldName other.aliasName) :
    (binding.extend source record).extend other otherRecord =
      (binding.extend other otherRecord).extend source record := by
  funext column
  unfold extend
  cases own : source.provides column with
  | false => rfl
  | true =>
      cases ownToo : other.provides column with
      | false => rfl
      | true =>
          rw [Source.provides, Bool.and_eq_true] at own ownToo
          exact absurd ((of_decide_eq_true own.1).trans (of_decide_eq_true ownToo.1).symm) apart

theorem extendAll_extend_comm {chosen : List (JoinedSource × Option Record)}
    (apart : ∀ choice ∈ chosen, foldName choice.1.source.aliasName ≠ foldName source.aliasName) :
    (binding.extendAll chosen).extend source record =
      (binding.extend source record).extendAll chosen := by
  induction chosen generalizing binding with
  | nil => rfl
  | cons choice rest induction =>
      rw [List.forall_mem_cons] at apart
      rw [extendAll_cons, extendAll_cons, induction apart.2, extend_comm apart.1]

end Binding

namespace Plan

variable {plan frame : Plan}

/-! ### What is looked up -/

/-- The records of a table that match a page. -/
def recordsOf (plan : Plan) (page : Record) (joined : JoinedSource) : List Record :=
  joined.source.table.records.filter (joined.holdsFor plan.affinity (plan.pageBinding page))

def lookUp (plan : Plan) (page : Record) (tables : List JoinedSource) :
    List (JoinedSource × Option Record) :=
  tables.map fun joined => (joined, (plan.recordsOf page joined).head?)

theorem mem_of_mem_lookUp {page : Record} {tables : List JoinedSource}
    {choice : JoinedSource × Option Record} (isChoice : choice ∈ plan.lookUp page tables) :
    choice.1 ∈ tables := by
  obtain ⟨joined, isJoined, rfl⟩ := List.mem_map.1 isChoice
  exact isJoined

theorem joinLeft_eq_singleton {page : Record} {joined : JoinedSource}
    (alone : plan.IsLocal joined.source joined.join.on)
    (sole : (plan.recordsOf page joined).length ≤ 1) {binding : Binding}
    (agree : plan.AgreeOnPage binding (plan.pageBinding page)) :
    plan.joinLeft joined binding =
      [binding.extend joined.source (plan.recordsOf page joined).head?] := by
  have same : joined.source.table.records.filter (joined.holdsFor plan.affinity binding) =
      plan.recordsOf page joined :=
    List.filter_congr fun record _ => holdsFor_congr agree alone record
  rw [joinLeft, joined.filter_candidates, same]
  match found : plan.recordsOf page joined with
  | [] => rfl
  | [record] => rfl
  | _ :: _ :: _ => simp [found] at sole

/-- The plan looks up some tables first, and reads what the other one reads. -/
structure LooksUp (plan frame : Plan) (tables : List JoinedSource) : Prop where
  base : plan.base = frame.base
  inner : plan.inner = frame.inner
  left : plan.left = tables ++ frame.left
  nodup : (plan.sources.map fun source => foldName source.aliasName).Nodup
  isLocal : ∀ joined ∈ tables, plan.IsLocal joined.source joined.join.on
  sole : ∀ joined ∈ tables, ∀ page ∈ plan.base.table.records,
    (plan.recordsOf page joined).length ≤ 1
  short : ∀ joined ∈ tables, ∀ test ∈ joined.join.on.tests, test.isTooLong = false
  resolves : ∀ joined ∈ frame.inner ++ frame.left, ∀ column ∈ Filter.columns joined.join.on,
    frame.resolves column = true

namespace LooksUp

variable {tables : List JoinedSource} (looksUp : plan.LooksUp frame tables)

include looksUp

theorem adds : plan.Adds frame tables := by
  refine ⟨looksUp.base, ?_⟩
  rw [looksUp.inner, looksUp.left, List.append_assoc]
  exact List.perm_append_comm.append_left _

theorem pageBinding_eq (page : Record) : plan.pageBinding page = frame.pageBinding page := by
  rw [pageBinding, pageBinding, looksUp.base]

theorem resolves_of_frame {column : Column} (framed : frame.resolves column = true) :
    plan.resolves column = true := by
  obtain ⟨source, isSource, own⟩ := exists_of_resolves framed
  exact resolves_of_nodup looksUp.nodup
    (looksUp.adds.sources.mem_iff.2 (List.mem_append_left _ isSource)) own

theorem extendAll_eq {column : Column} (framed : frame.resolves column = true) (page : Record)
    (start : Binding) : start.extendAll (plan.lookUp page tables) column = start column :=
  looksUp.adds.extendAll_eq (looksUp.resolves_of_frame framed) framed
    (fun _ isChoice => mem_of_mem_lookUp isChoice) start

/-- A column of a table that is looked up has the value of the record that was found. -/
theorem extendAll_eq_head? {joined : JoinedSource} (isTable : joined ∈ tables) {column : Column}
    (own : joined.source.provides column = true) (page : Record) (start : Binding) :
    start.extendAll (plan.lookUp page tables) column =
      (plan.recordsOf page joined).head?.elim .null fun record =>
        joined.source.table.cell record column.name := by
  have among : joined ∈ plan.inner ++ plan.left := by
    rw [looksUp.left]
    exact List.mem_append_right _ (List.mem_append_left _ isTable)
  have resolved : plan.resolves column = true :=
    resolves_of_nodup looksUp.nodup
      (List.mem_cons_of_mem _ (List.mem_map_of_mem among)) own
  have first : (plan.lookUp page tables).map Prod.fst = tables :=
    List.map_map.trans (List.map_id tables)
  have sublist : ((plan.lookUp page tables).map Prod.fst).Sublist (plan.inner ++ plan.left) := by
    rw [first, looksUp.left]
    exact (List.sublist_append_left ..).trans (List.sublist_append_right ..)
  rw [extendAll_eq_extend sublist (List.mem_map_of_mem isTable) resolved (.inl own)]
  cases (plan.recordsOf page joined).head? with
  | none => exact Binding.extend_none own
  | some record => exact Binding.extend_of_provides own

/-- What is looked up changes nothing for a filter that reads the rest. -/
theorem truth_eq {filter : Filter} (read : ∀ column ∈ filter.columns, frame.resolves column = true)
    {binding other : Binding} (same : ∀ column ∈ filter.columns, binding column = other column) :
    ∀ test ∈ filter.tests, test.truth plan.affinity binding = test.truth frame.affinity other := by
  refine fun test isTest => Test.truth_congr fun column isColumn => ?_
  have among : column ∈ filter.columns := List.mem_flatMap.2 ⟨test, isTest, isColumn⟩
  have framed := read column among
  exact ⟨looksUp.adds.affinity_eq (looksUp.resolves_of_frame framed) framed, same column among⟩

theorem holds_eq {filter : Filter} (read : ∀ column ∈ filter.columns, frame.resolves column = true)
    {binding other : Binding} (same : ∀ column ∈ filter.columns, binding column = other column) :
    plan.holds binding filter = frame.holds other filter := by
  rw [holds, holds, Condition.eval_congr filter (looksUp.truth_eq read same)]

theorem reaches_eq {filter : Filter}
    (read : ∀ column ∈ filter.columns, frame.resolves column = true) {binding other : Binding}
    (same : ∀ column ∈ filter.columns, binding column = other column) :
    filter.reaches (Test.truth plan.affinity binding) Test.isTooLong =
      filter.reaches (Test.truth frame.affinity other) Test.isTooLong :=
  Condition.reaches_congr filter (looksUp.truth_eq read same)

theorem apart {page : Record} {joined : JoinedSource} (isLeft : joined ∈ frame.left) :
    ∀ choice ∈ plan.lookUp page tables,
      foldName choice.1.source.aliasName ≠ foldName joined.source.aliasName := by
  intro choice isChoice same
  have nodup := looksUp.nodup
  rw [sources, looksUp.left, List.map_cons, List.nodup_cons, List.map_map, List.map_append,
    List.map_append] at nodup
  have disjoint := (List.nodup_append'.1 (List.nodup_append'.1 nodup.2).2.1).2.2
  exact disjoint (List.mem_map_of_mem (mem_of_mem_lookUp isChoice))
    (List.mem_map.2 ⟨joined, isLeft, same.symm⟩)

/-! ### Joined rows -/

theorem holdsFor_eq_frame {joined : JoinedSource} (isJoined : joined ∈ frame.inner ++ frame.left)
    (binding : Binding) :
    joined.holdsFor plan.affinity binding = joined.holdsFor frame.affinity binding :=
  funext fun _ => looksUp.holds_eq (looksUp.resolves joined isJoined) fun _ _ => rfl

theorem joinInner_eq (known : List Source) {joined : JoinedSource} (isInner : joined ∈ frame.inner)
    (bindings : List Binding) :
    plan.joinInner known joined bindings = frame.joinInner known joined bindings := by
  unfold joinInner
  simp only [joined.filter_candidates]
  simp only [looksUp.holdsFor_eq_frame (List.mem_append_left _ isInner)]

theorem joinAllInner_eq (known : List Source) {inner : List JoinedSource}
    (among : ∀ joined ∈ inner, joined ∈ frame.inner) (bindings : List Binding) :
    plan.joinAllInner known inner bindings = frame.joinAllInner known inner bindings := by
  induction inner generalizing known bindings with
  | nil => rfl
  | cons joined rest induction =>
      rw [List.forall_mem_cons] at among
      rw [joinAllInner, joinAllInner, looksUp.joinInner_eq known among.1, induction _ among.2]

theorem foldl_joinLeft_tables {page : Record} (isPage : page ∈ plan.base.table.records)
    {bindings : List Binding}
    (agree : ∀ binding ∈ bindings, plan.AgreeOnPage binding (plan.pageBinding page))
    {some : List JoinedSource} (among : ∀ joined ∈ some, joined ∈ tables) :
    some.foldl (fun bindings joined => bindings.flatMap (plan.joinLeft joined)) bindings =
      bindings.map fun binding => binding.extendAll (plan.lookUp page some) := by
  induction some generalizing bindings with
  | nil => exact (List.map_id _).symm
  | cons joined rest induction =>
      rw [List.forall_mem_cons] at among
      have isJoined : joined ∈ plan.inner ++ plan.left := by
        rw [looksUp.left]
        exact List.mem_append_right _ (List.mem_append_left _ among.1)
      have first : bindings.flatMap (plan.joinLeft joined) =
          bindings.map fun binding =>
            binding.extend joined.source (plan.recordsOf page joined).head? := by
        rw [← List.flatMap_singleton' (bindings.map _), List.flatMap_map]
        exact List.flatMap_congr fun binding isBinding => joinLeft_eq_singleton
          (looksUp.isLocal joined among.1) (looksUp.sole joined among.1 page isPage)
          (agree binding isBinding)
      rw [List.foldl_cons, first, induction ?_ among.2, List.map_map]
      · rfl
      · rw [List.forall_mem_map]
        exact fun binding isBinding => (agree binding isBinding).extend isJoined _

theorem joinLeft_extendAll (page : Record) {joined : JoinedSource} (isLeft : joined ∈ frame.left)
    (binding : Binding) :
    plan.joinLeft joined (binding.extendAll (plan.lookUp page tables)) =
      (frame.joinLeft joined binding).map
        fun binding => binding.extendAll (plan.lookUp page tables) := by
  have read := looksUp.resolves joined (List.mem_append_right _ isLeft)
  have same : joined.source.table.records.filter
        (joined.holdsFor plan.affinity (binding.extendAll (plan.lookUp page tables))) =
      joined.source.table.records.filter (joined.holdsFor frame.affinity binding) := by
    refine List.filter_congr fun record _ => ?_
    rw [holdsFor_eq, holdsFor_eq, Binding.extendAll_extend_comm (looksUp.apart isLeft)]
    exact looksUp.holds_eq read fun column isColumn =>
      looksUp.extendAll_eq (read column isColumn) page _
  rw [joinLeft, joinLeft, joined.filter_candidates, joined.filter_candidates, same]
  simp only [List.isEmpty_map, Binding.extendAll_extend_comm (looksUp.apart isLeft)]
  split
  · rfl
  · rw [List.map_map]
    rfl

theorem flatMap_joinLeft_extendAll (page : Record) {joined : JoinedSource}
    (isLeft : joined ∈ frame.left) (bindings : List Binding) :
    (bindings.map fun binding => binding.extendAll (plan.lookUp page tables)).flatMap
        (plan.joinLeft joined) =
      (bindings.flatMap (frame.joinLeft joined)).map
        fun binding => binding.extendAll (plan.lookUp page tables) := by
  rw [List.flatMap_map, List.map_flatMap]
  exact List.flatMap_congr fun binding _ => looksUp.joinLeft_extendAll page isLeft binding

theorem foldl_joinLeft_extendAll (page : Record) {left : List JoinedSource}
    (among : ∀ joined ∈ left, joined ∈ frame.left) (bindings : List Binding) :
    left.foldl (fun bindings joined => bindings.flatMap (plan.joinLeft joined))
        (bindings.map fun binding => binding.extendAll (plan.lookUp page tables)) =
      (left.foldl (fun bindings joined => bindings.flatMap (frame.joinLeft joined)) bindings).map
        fun binding => binding.extendAll (plan.lookUp page tables) := by
  induction left generalizing bindings with
  | nil => rfl
  | cons joined rest induction =>
      rw [List.forall_mem_cons] at among
      rw [List.foldl_cons, List.foldl_cons, looksUp.flatMap_joinLeft_extendAll page among.1,
        induction among.2]

theorem agreeOnPage_of_mem_joinAllInner {page : Record} {binding : Binding}
    (member : binding ∈ frame.joinAllInner [frame.base] frame.inner [frame.pageBinding page]) :
    plan.AgreeOnPage binding (plan.pageBinding page) := by
  obtain ⟨start, isStart, chosen, choice, rfl⟩ := exists_of_mem_joinAllInner member
  rw [List.mem_singleton.1 isStart, ← looksUp.pageBinding_eq]
  refine AgreeOnPage.extendAll (fun _ _ _ => rfl) fun one isOne => List.mem_append_left _ ?_
  rw [looksUp.inner, ← choice.tables]
  exact List.mem_map_of_mem isOne

/-- Looking up extends the joined rows of a page. -/
theorem joinAll_eq {page : Record} (isPage : page ∈ plan.base.table.records) :
    plan.joinAll page = (frame.joinAll page).map
      fun binding => binding.extendAll (plan.lookUp page tables) := by
  have inner : ((plan.joinAllInner [plan.base] plan.inner [plan.pageBinding page]).filter
        fun binding => plan.inner.all fun joined => plan.holds binding joined.join.on) =
      (frame.joinAllInner [frame.base] frame.inner [frame.pageBinding page]).filter
        fun binding => frame.inner.all fun joined => frame.holds binding joined.join.on := by
    rw [looksUp.inner, looksUp.base, looksUp.joinAllInner_eq _ (fun _ => id),
      looksUp.pageBinding_eq]
    refine List.filter_congr fun binding _ => ?_
    rw [Bool.eq_iff_iff, List.all_eq_true, List.all_eq_true]
    refine forall₂_congr fun joined isJoined => ?_
    rw [looksUp.holds_eq (looksUp.resolves joined (List.mem_append_left _ isJoined)) fun _ _ => rfl]
  change (plan.left.foldl _ (List.filter _ (plan.joinAllInner _ _ [plan.pageBinding page]))) =
    (frame.left.foldl _ (List.filter _ (frame.joinAllInner _ _ [frame.pageBinding page]))).map _
  rw [inner, looksUp.left, List.foldl_append, looksUp.foldl_joinLeft_tables isPage ?_ fun _ => id,
    looksUp.foldl_joinLeft_extendAll page fun _ => id]
  exact fun binding isBinding =>
    looksUp.agreeOnPage_of_mem_joinAllInner (List.mem_of_mem_filter isBinding)

/-! ### Patterns beyond the limit -/

theorem joinMeetsLongPattern_inner_eq {joined : JoinedSource} (isInner : joined ∈ frame.inner)
    (bindings : List Binding) :
    plan.joinMeetsLongPattern joined bindings = frame.joinMeetsLongPattern joined bindings := by
  have read := looksUp.resolves joined (List.mem_append_left _ isInner)
  unfold joinMeetsLongPattern
  simp only [looksUp.reaches_eq read fun _ _ => rfl]

theorem innerMeetsLongPattern_eq (known : List Source) {inner : List JoinedSource}
    (among : ∀ joined ∈ inner, joined ∈ frame.inner) (bindings : List Binding) :
    plan.innerMeetsLongPattern known inner bindings =
      frame.innerMeetsLongPattern known inner bindings := by
  induction inner generalizing known bindings with
  | nil => rfl
  | cons joined rest induction =>
      rw [List.forall_mem_cons] at among
      rw [innerMeetsLongPattern, innerMeetsLongPattern, looksUp.joinInner_eq known among.1,
        looksUp.joinMeetsLongPattern_inner_eq among.1, induction _ among.2]

theorem joinMeetsLongPattern_tables {joined : JoinedSource} (isTable : joined ∈ tables)
    (bindings : List Binding) : plan.joinMeetsLongPattern joined bindings = false := by
  unfold joinMeetsLongPattern
  simp [Condition.reaches_eq_false _ (looksUp.short joined isTable)]

theorem joinMeetsLongPattern_left_eq (page : Record) {joined : JoinedSource}
    (isLeft : joined ∈ frame.left) (bindings : List Binding) :
    plan.joinMeetsLongPattern joined
        (bindings.map fun binding => binding.extendAll (plan.lookUp page tables)) =
      frame.joinMeetsLongPattern joined bindings := by
  have read := looksUp.resolves joined (List.mem_append_right _ isLeft)
  have same (binding : Binding) (record : Record) :
      joined.join.on.reaches (Test.truth plan.affinity
          ((binding.extendAll (plan.lookUp page tables)).extend joined.source (some record)))
        Test.isTooLong =
      joined.join.on.reaches
        (Test.truth frame.affinity (binding.extend joined.source (some record)))
        Test.isTooLong := by
    rw [Binding.extendAll_extend_comm (looksUp.apart isLeft)]
    exact looksUp.reaches_eq read fun column isColumn =>
      looksUp.extendAll_eq (read column isColumn) page _
  unfold joinMeetsLongPattern
  simp only [List.any_map, Function.comp_def, same]

theorem leftMeetsLongPattern_append {some : List JoinedSource}
    (among : ∀ joined ∈ some, joined ∈ tables) (left : List JoinedSource)
    (bindings : List Binding) :
    plan.leftMeetsLongPattern (some ++ left) bindings =
      plan.leftMeetsLongPattern left
        (some.foldl (fun bindings joined => bindings.flatMap (plan.joinLeft joined)) bindings) := by
  induction some generalizing bindings with
  | nil => rfl
  | cons joined rest induction =>
      rw [List.forall_mem_cons] at among
      rw [List.cons_append, leftMeetsLongPattern, looksUp.joinMeetsLongPattern_tables among.1,
        Bool.false_or, induction among.2, List.foldl_cons]

theorem leftMeetsLongPattern_extendAll (page : Record) {left : List JoinedSource}
    (among : ∀ joined ∈ left, joined ∈ frame.left) (bindings : List Binding) :
    plan.leftMeetsLongPattern left
        (bindings.map fun binding => binding.extendAll (plan.lookUp page tables)) =
      frame.leftMeetsLongPattern left bindings := by
  induction left generalizing bindings with
  | nil => rfl
  | cons joined rest induction =>
      rw [List.forall_mem_cons] at among
      rw [leftMeetsLongPattern, leftMeetsLongPattern,
        looksUp.joinMeetsLongPattern_left_eq page among.1,
        looksUp.flatMap_joinLeft_extendAll page among.1, induction among.2]

/-! ### Queries -/

variable {query other : Query} (filters : query.filters = other.filters)
  (read : ∀ filter ∈ other.filters, ∀ column ∈ filter.columns, frame.resolves column = true)

include filters read

theorem pageRows_eq {page : Record} (isPage : page ∈ plan.base.table.records) :
    plan.pageRows query page = (frame.pageRows other page).map
      fun binding => binding.extendAll (plan.lookUp page tables) := by
  rw [pageRows, pageRows, looksUp.joinAll_eq isPage, List.filter_map, filters]
  refine congrArg _ (List.filter_congr fun binding _ => ?_)
  rw [Function.comp_apply, Bool.eq_iff_iff, List.all_eq_true, List.all_eq_true]
  refine forall₂_congr fun filter isFilter => ?_
  rw [looksUp.holds_eq (read filter isFilter) fun column isColumn =>
    looksUp.extendAll_eq (read filter isFilter column isColumn) page binding]

theorem pageMeetsLongPattern_eq {page : Record} (isPage : page ∈ plan.base.table.records) :
    plan.pageMeetsLongPattern query page = frame.pageMeetsLongPattern other page := by
  have start : plan.pageBinding page = frame.pageBinding page := looksUp.pageBinding_eq page
  have passes : (query.filters.all fun filter => !covers [plan.base] filter ||
        plan.holds (plan.pageBinding page) filter) =
      other.filters.all fun filter => !covers [frame.base] filter ||
        frame.holds (frame.pageBinding page) filter := by
    rw [filters, Bool.eq_iff_iff, List.all_eq_true, List.all_eq_true]
    refine forall₂_congr fun filter isFilter => ?_
    rw [looksUp.base, start, looksUp.holds_eq (read filter isFilter) fun _ _ => rfl]
  have inner : plan.innerMeetsLongPattern [plan.base] plan.inner [plan.pageBinding page] =
      frame.innerMeetsLongPattern [frame.base] frame.inner [frame.pageBinding page] := by
    rw [looksUp.base, looksUp.inner, start, looksUp.innerMeetsLongPattern_eq _ fun _ => id]
  have left : plan.leftMeetsLongPattern plan.left
        (plan.joinAllInner [plan.base] plan.inner [plan.pageBinding page]) =
      frame.leftMeetsLongPattern frame.left
        (frame.joinAllInner [frame.base] frame.inner [frame.pageBinding page]) := by
    rw [looksUp.base, looksUp.inner, start, looksUp.joinAllInner_eq _ fun _ => id, looksUp.left,
      looksUp.leftMeetsLongPattern_append (fun _ => id),
      looksUp.foldl_joinLeft_tables isPage
        (fun _ isBinding => looksUp.agreeOnPage_of_mem_joinAllInner isBinding) fun _ => id,
      looksUp.leftMeetsLongPattern_extendAll page fun _ => id]
  have joined : ((plan.joinAll page).any fun binding => query.filters.any fun filter =>
        filter.reaches (Test.truth plan.affinity binding) Test.isTooLong) =
      (frame.joinAll page).any fun binding => other.filters.any fun filter =>
        filter.reaches (Test.truth frame.affinity binding) Test.isTooLong := by
    rw [looksUp.joinAll_eq isPage, List.any_map, filters]
    refine congrArg _ (funext fun binding => ?_)
    rw [Function.comp_apply, Bool.eq_iff_iff, List.any_eq_true, List.any_eq_true]
    refine exists_congr fun filter => and_congr_right fun isFilter => ?_
    rw [looksUp.reaches_eq (read filter isFilter) fun column isColumn =>
      looksUp.extendAll_eq (read filter isFilter column isColumn) page binding]
  change (_ && (_ || _ || _)) = (_ && (_ || _ || _))
  exact congrArg₂ _ passes (congrArg₂ _ (congrArg₂ _ inner left) joined)

end LooksUp

end Plan

end PageTree
