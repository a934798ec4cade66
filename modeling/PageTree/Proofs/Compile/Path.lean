import Mathlib.Data.List.Nodup
import PageTree.Proofs.Compile.Alias

/-!
The joins of a path. Every page above the last name is joined under an alias with its depth in it,
from the deepest page up to the root. Main statements: no two of these aliases are the same to the
engine, and what holds of the two kinds of joins holds of all joins of a path.
-/

namespace PageTree

open Sql

namespace Path

/-- The alias of the page that stands so many names below the root. -/
def aliasAt : Nat → String
  | 0 => "rootparent"
  | n + 1 => "parent" ++ toString (n + 2)

theorem aliasAt_succ (n : Nat) :
    aliasAt (n + 1) = nextAlias (List.replicate (n + 2) "parent") "parent" := by
  rw [nextAlias, List.count_replicate_self]
  rfl

theorem toList_foldName_aliasAt (n : Nat) :
    (foldName (aliasAt (n + 1))).toList = "parent".toList ++ aliasDigits (n + 2) := by
  have lower : (foldName "parent").toList = "parent".toList := by decide
  rw [aliasAt_succ, toList_foldName_nextAlias, List.count_replicate_self, lower]

theorem foldName_aliasAt_zero_ne (n : Nat) :
    foldName (aliasAt 0) ≠ foldName (aliasAt (n + 1)) := by
  intro same
  have heads := congrArg (fun name => name.toList.head?) same
  have root : (foldName (aliasAt 0)).toList.head? = some 'r' := by decide
  have other : ("parent".toList ++ aliasDigits (n + 2)).head? = some 'p' := rfl
  rw [toList_foldName_aliasAt, root, other] at heads
  exact absurd heads (by decide)

theorem injective_foldName_aliasAt : Function.Injective fun n => foldName (aliasAt n) := by
  intro m n same
  cases m with
  | zero =>
      cases n with
      | zero => rfl
      | succ n => exact absurd same (foldName_aliasAt_zero_ne n)
  | succ m =>
      cases n with
      | zero => exact absurd same.symm (foldName_aliasAt_zero_ne m)
      | succ n =>
          have spelled := congrArg String.toList same
          dsimp only at spelled
          rw [toList_foldName_aliasAt, toList_foldName_aliasAt] at spelled
          have counts := eq_of_aliasDigits_eq (List.append_cancel_left spelled)
          omega

theorem injective_aliasAt : Function.Injective aliasAt :=
  fun _ _ same => injective_foldName_aliasAt (congrArg foldName same)

theorem prefix_foldName_aliasAt (n : Nat) :
    "parent".toList <+: (foldName (aliasAt (n + 1))).toList := by
  rw [toList_foldName_aliasAt]
  exact List.prefix_append ..

/-- The aliases are none of the words that a statement gives another meaning. -/
theorem foldName_aliasAt_notMem {words : List String} (root : foldName "rootparent" ∉ words)
    (none : words.all (fun word => !"parent".toList.isPrefixOf word.toList) = true) (n : Nat) :
    foldName (aliasAt n) ∉ words := by
  cases n with
  | zero => exact root
  | succ n => exact Schema.foldName_notMem none (prefix_foldName_aliasAt n)

theorem isWord_aliasAt (n : Nat) : isWord (aliasAt n) = true := by
  cases n with
  | zero => decide
  | succ n => exact isWord_of_isTableName (isTableName_appendNumber (by decide) _)

theorem isQualifier_aliasAt (n : Nat) : isQualifier (aliasAt n) = true :=
  Schema.isQualifier_of_notMem (isWord_aliasAt n)
    (foldName_aliasAt_notMem (by decide) (by decide) n)

theorem beginsQuery_aliasAt (n : Nat) : beginsQuery (aliasAt n) = false := by
  have other := foldName_aliasAt_notMem (by decide : foldName "rootparent" ∉ [queryWord])
    (by decide) n
  rw [beginsQuery, decide_eq_false_iff_not]
  exact fun same => other (List.mem_singleton.2 same)

theorem foldName_aliasAt_ne_pages (n : Nat) : foldName (aliasAt n) ≠ foldName "pages" := by
  have other := foldName_aliasAt_notMem (by decide : foldName "rootparent" ∉ [foldName "pages"])
    (by decide) n
  exact fun same => other (List.mem_singleton.2 same)

/-! ### Joins -/

variable {below name : String} {above : List String}

theorem joinsAbove_root (below : String) : joinsAbove below [""] = [rootJoin below] := rfl

theorem joinsAbove_cons (named : name ≠ "") :
    joinsAbove below (name :: (above ++ [""])) =
      parentJoin below (aliasAt (above.length + 1)) name ::
        joinsAbove (aliasAt (above.length + 1)) (above ++ [""]) := by
  rw [joinsAbove, if_neg named, List.length_append]
  rfl

theorem map_aliasName_joinsAbove (named : ∀ name ∈ above, name ≠ "") :
    (joinsAbove below (above ++ [""])).map Join.aliasName =
      (List.range (above.length + 1)).reverse.map aliasAt := by
  induction above generalizing below with
  | nil => rfl
  | cons name above induction =>
      rw [List.forall_mem_cons] at named
      rw [List.cons_append, joinsAbove_cons named.1, List.map_cons, induction named.2,
        List.length_cons, List.range_succ (n := above.length + 1), List.reverse_append]
      rfl

theorem mem_map_aliasName_iff (named : ∀ name ∈ above, name ≠ "") {aliasName : String} :
    aliasName ∈ (joinsAbove below (above ++ [""])).map Join.aliasName ↔
      ∃ n ≤ above.length, aliasAt n = aliasName := by
  rw [map_aliasName_joinsAbove named, List.mem_map]
  simp only [List.mem_reverse, List.mem_range, Nat.lt_succ_iff]

theorem exists_join_of_le (named : ∀ name ∈ above, name ≠ "") {n : Nat}
    (inside : n ≤ above.length) :
    ∃ join ∈ joinsAbove below (above ++ [""]), join.aliasName = aliasAt n :=
  List.mem_map.1 ((mem_map_aliasName_iff named).2 ⟨n, inside, rfl⟩)

theorem nodup_map_foldName_joinsAbove (named : ∀ name ∈ above, name ≠ "") :
    (("pages" :: (joinsAbove below (above ++ [""])).map Join.aliasName).map foldName).Nodup := by
  rw [map_aliasName_joinsAbove named, List.map_cons, List.map_map, List.nodup_cons]
  constructor
  · intro member
    obtain ⟨n, -, same⟩ := List.mem_map.1 member
    exact foldName_aliasAt_ne_pages n same
  · exact (List.nodup_reverse.2 List.nodup_range).map injective_foldName_aliasAt

/-- What holds of the joins of the root and of those of other pages holds of all joins, each of
which is below a page that was joined before. -/
theorem forall_joinsAbove {isAlias : String → Prop} {p : Join → Prop}
    (named : ∀ name ∈ above, name ≠ "") (start : isAlias below)
    (aliases : ∀ n ≤ above.length, isAlias (aliasAt n))
    (root : ∀ below, isAlias below → p (rootJoin below))
    (parent : ∀ below n name, isAlias below → n < above.length → name ∈ above →
      p (parentJoin below (aliasAt (n + 1)) name)) :
    ∀ join ∈ joinsAbove below (above ++ [""]), p join := by
  induction above generalizing below with
  | nil => exact List.forall_mem_singleton.2 (root below start)
  | cons name above induction =>
      rw [List.forall_mem_cons] at named
      rw [List.length_cons] at aliases parent
      rw [List.cons_append, joinsAbove_cons named.1, List.forall_mem_cons]
      refine ⟨parent below _ name start (Nat.lt_succ_self _) (List.mem_cons_self ..),
        induction named.2 (aliases _ (Nat.le_refl _)) (fun n inside => aliases n (by omega)) ?_⟩
      exact fun below n name isAlias inside member =>
        parent below n name isAlias (by omega) (List.mem_cons_of_mem _ member)

end Path

end PageTree
