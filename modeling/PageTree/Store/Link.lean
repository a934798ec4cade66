import PageTree.Query.Basic
import PageTree.Store.Table

/-!
Joined tables. Most joins ask that a column of their table equal a column that is known before, so
only the records with that value have to be looked at. Main statement: among those are all the
records for which the condition of the join holds.
-/

namespace PageTree

open Sql

/-- An equality between a column of a joined table and another column. -/
structure Link where
  own : Column
  other : Column
  /-- Does its own column stand on the left? -/
  isOwnLeft : Bool
  deriving Repr

namespace Link

def test (link : Link) : Test :=
  if link.isOwnLeft then .compare link.own .equal (.column link.other)
  else .compare link.other .equal (.column link.own)

/-- The link that a test is, when exactly one of its columns is one of the source. -/
def ofTest? (source : Source) : Test → Option Link
  | .compare left .equal (.column right) =>
    match source.provides left, source.provides right with
    | true, false => some { own := left, other := right, isOwnLeft := true }
    | false, true => some { own := right, other := left, isOwnLeft := false }
    | _, _ => none
  | _ => none

/-- A link without which a condition does not hold. -/
def ofFilter? (source : Source) (filter : Filter) : Option Link :=
  filter.necessaryTests.findSome? (ofTest? source)

/-- The records of a source with the values that the link compares. -/
def entries (link : Link) (source : Source) : List (Value × Record) :=
  source.table.records.map fun record => (source.table.cell record link.own.name, record)

def conversion (link : Link) (affinity : Column → Affinity) : Affinity :=
  if link.isOwnLeft then (affinity link.own).join (affinity link.other)
  else (affinity link.other).join (affinity link.own)

/-- Is a value of its own column the known value of the other one? -/
def agrees (link : Link) (own known : Value) : Bool :=
  (if link.isOwnLeft then compareValues .equal own known
    else compareValues .equal known own).isYes

theorem test_eq_of_ofTest? {source : Source} {test : Test} {link : Link}
    (found : ofTest? source test = some link) : link.test = test := by
  unfold ofTest? at found
  split at found
  · split at found
    · cases found; rfl
    · cases found; rfl
    · contradiction
  · contradiction

theorem provides_of_ofTest? {source : Source} {test : Test} {link : Link}
    (found : ofTest? source test = some link) :
    source.provides link.own = true ∧ source.provides link.other = false := by
  unfold ofTest? at found
  split at found
  · split at found
    · cases found; exact ⟨‹_›, ‹_›⟩
    · cases found; exact ⟨‹_›, ‹_›⟩
    · contradiction
  · contradiction

end Link

/-- A join with its source. The records are kept by the values of its link, where it has one. -/
structure JoinedSource where
  join : Join
  source : Source
  linked : Option (Link × List (Value × Record))
  linked_eq :
    linked = (Link.ofFilter? source join.on).map fun link => (link, link.entries source)

namespace JoinedSource

def of (join : Join) (source : Source) : JoinedSource :=
  { join, source
    linked := (Link.ofFilter? source join.on).map fun link => (link, link.entries source)
    linked_eq := rfl }

def candidates (joined : JoinedSource) (affinity : Column → Affinity) (binding : Binding) :
    List Record :=
  match joined.linked with
  | none => joined.source.table.records
  | some (link, entries) =>
    let conversion := link.conversion affinity
    let known := (binding link.other).convert conversion
    (entries.filter fun entry => link.agrees (entry.1.convert conversion) known).map Prod.snd

/-- Does the condition of the join hold for a record? -/
def holdsFor (joined : JoinedSource) (affinity : Column → Affinity) (binding : Binding)
    (record : Record) : Bool :=
  (joined.join.on.eval
    (Test.truth affinity (binding.extend joined.source (some record)))).isYes

theorem filter_candidates (joined : JoinedSource) (affinity : Column → Affinity)
    (binding : Binding) :
    (joined.candidates affinity binding).filter (joined.holdsFor affinity binding) =
      joined.source.table.records.filter (joined.holdsFor affinity binding) := by
  unfold candidates
  rw [joined.linked_eq]
  cases found : Link.ofFilter? joined.source joined.join.on with
  | none => rfl
  | some link =>
    obtain ⟨test, mem, isLink⟩ := List.exists_of_findSome?_eq_some found
    have isTest := Link.test_eq_of_ofTest? isLink
    obtain ⟨isOwn, isOther⟩ := Link.provides_of_ofTest? isLink
    simp only [Option.map_some, Link.entries, List.filter_map, List.map_map,
      Function.comp_def, List.map_id', List.filter_filter]
    apply List.filter_congr
    intro record _
    cases holds : joined.holdsFor affinity binding record with
    | false => rfl
    | true =>
      have isYes := Condition.isYes_of_mem_necessaryTests mem holds
      rw [← isTest] at isYes
      unfold Link.test at isYes
      unfold Link.agrees Link.conversion
      split at isYes <;>
        simp_all [Test.truth, Operand.conversion, Operand.value, Binding.extend]

end JoinedSource

end PageTree
