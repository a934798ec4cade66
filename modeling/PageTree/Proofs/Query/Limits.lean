import PageTree.Query.Limits

/-!
How deep conditions get: operands that are joined add one each to the deepest of them.
-/

namespace PageTree

namespace Sql

namespace Condition

universe u

variable {α : Type u}

theorem depthEach_eq_map (ofTest : α → Nat) (cs : List (Condition α)) :
    depthEach ofTest cs = cs.map (depth ofTest) := by
  induction cs with
  | nil => rfl
  | cons c cs induction => rw [depthEach, induction, List.map_cons]

theorem add_length_le_foldl_depths (depths : List Nat) (total : Nat) :
    total + depths.length ≤ depths.foldl (fun total depth => max total depth + 1) total := by
  induction depths generalizing total with
  | nil => exact Nat.le_refl _
  | cons depth depths induction =>
      have rest := induction (max total depth + 1)
      rw [List.length_cons, List.foldl_cons]
      omega

theorem foldl_depths_le {depths : List Nat} {bound total : Nat}
    (small : ∀ depth ∈ depths, depth ≤ bound) (start : total ≤ bound) :
    depths.foldl (fun total depth => max total depth + 1) total ≤ bound + depths.length := by
  induction depths generalizing bound total with
  | nil => exact start
  | cons depth depths induction =>
      rw [List.forall_mem_cons] at small
      have rest := induction (fun depth member => Nat.le_succ_of_le (small.2 depth member))
        (by omega : max total depth + 1 ≤ bound + 1)
      rw [List.length_cons, List.foldl_cons]
      omega

theorem chainDepth_le {depths : List Nat} {bound : Nat} (least : 2 ≤ bound)
    (small : ∀ depth ∈ depths, depth ≤ bound) : chainDepth depths ≤ bound + depths.length := by
  cases depths with
  | nil => exact least
  | cons depth depths =>
      rw [List.forall_mem_cons] at small
      have rest := foldl_depths_le small.2 small.1
      rw [chainDepth, List.length_cons]
      omega

/-- Tests of one depth, one after the other. -/
theorem chainDepth_eq {depth : Nat} {depths : List Nat} (same : ∀ other ∈ depths, other = depth)
    (some : depths ≠ []) : chainDepth depths + 1 = depth + depths.length := by
  cases depths with
  | nil => exact absurd rfl some
  | cons first depths =>
      obtain ⟨rfl, same⟩ := List.forall_mem_cons.1 same
      have most := foldl_depths_le (fun other member => Nat.le_of_eq (same other member))
        (Nat.le_refl first)
      have least := add_length_le_foldl_depths depths first
      rw [chainDepth, List.length_cons]
      omega

end Condition

end Sql

end PageTree
