import Mathlib.Data.Rat.Defs
import Mathlib.Algebra.Order.Field.Rat
import Mathlib.Algebra.Order.Field.Basic
import Mathlib.Order.Compare
import PageTree.Store.Rows

/-!
The order of rows. Values are ordered by what they are, numbers by their size and texts by their
letters; rows are ordered by the first key that tells them apart, and stay as they are where none
does. Main statement: sorting by some keys and then by others is sorting once, by the others first.
-/

namespace PageTree

open Sql Number

namespace Sql.Value

/-- Missing values come first, texts last, and numbers between the infinite ones. -/
def rank : Value → Nat
  | .null => 0
  | .real (.infinite true) => 1
  | .real .nan => 2
  | .integer _ => 3
  | .real (.finite _ _ _) => 3
  | .real (.infinite false) => 4
  | .text _ => 5

def number : Value → Rat
  | .integer n => n
  | .real (.finite negative mantissa exponent) =>
    let parts := Binary64.magnitude mantissa exponent
    ((if negative then -(parts.1 : Int) else parts.1 : Int) : Rat) / parts.2
  | _ => 0

def letters : Value → String
  | .text s => s
  | _ => ""

theorem compare_mul_eq {m n : Int} {k l : Nat} (pos : 0 < k) (posToo : 0 < l) :
    compare (m * l) (n * k) = compare ((m : Rat) / k) ((n : Rat) / l) := by
  have first : (0 : Rat) < k := Nat.cast_pos.2 pos
  have second : (0 : Rat) < l := Nat.cast_pos.2 posToo
  rcases lt_trichotomy (m * l) (n * k) with less | equal | greater
  · rw [compare_lt_iff_lt.2 less, eq_comm, compare_lt_iff_lt, div_lt_div_iff₀ first second]
    exact_mod_cast less
  · rw [compare_eq_iff_eq.2 equal, eq_comm, compare_eq_iff_eq, div_eq_div_iff first.ne' second.ne']
    exact_mod_cast equal
  · rw [compare_gt_iff_gt.2 greater, eq_comm, compare_gt_iff_gt]
    refine (div_lt_div_iff₀ second first).2 ?_
    exact_mod_cast greater

theorem magnitude_pos (mantissa : Nat) (exponent : Int) :
    0 < (Binary64.magnitude mantissa exponent).2 := by
  unfold Binary64.magnitude
  split
  · exact Nat.one_pos
  · exact Nat.pow_pos (by decide)

theorem order_eq : order = compareLex (compareOn rank)
    (compareLex (compareOn number) (compareOn letters)) := by
  have whole (m n : Int) : compare m n = compare (m : Rat) n := by
    have same := compare_mul_eq (m := m) (n := n) Nat.one_pos Nat.one_pos
    simpa using same
  have mixed (m n : Int) {k : Nat} (pos : 0 < k) :
      compare m (n * k) = compare ((m : Rat) / k) n := by
    have same := compare_mul_eq (m := m) (n := n) pos Nat.one_pos
    simpa using same
  have numbers (value other : Value) (place : value.rank = other.rank)
      (untold : value.letters = other.letters) :
      compareLex (compareOn rank) (compareLex (compareOn number) (compareOn letters)) value other =
        compare value.number other.number := by
    simp [compareLex, compareOn, place, untold]
  funext value other
  -- Values in different places are told apart by these.
  rcases value with _ | m | (⟨s, k, e⟩ | (_ | _) | _) | text <;>
    rcases other with _ | n | (⟨t, l, f⟩ | (_ | _) | _) | otherText
  any_goals rfl
  case integer.integer => exact (whole m n).trans (numbers (.integer m) (.integer n) rfl rfl).symm
  case integer.real.finite =>
    rw [numbers (.integer m) (.real (.finite t l f)) rfl rfl]
    refine (congrArg Ordering.swap (mixed _ m (magnitude_pos l f))).trans ?_
    exact Std.OrientedOrd.eq_swap.symm
  case real.finite.integer =>
    rw [numbers (.real (.finite s k e)) (.integer n) rfl rfl]
    exact mixed _ n (magnitude_pos k e)
  case real.finite.real.finite =>
    rw [numbers (.real (.finite s k e)) (.real (.finite t l f)) rfl rfl]
    exact compare_mul_eq (magnitude_pos k e) (magnitude_pos l f)
  case text.text =>
    simp only [compareLex, compareOn, rank, number, letters, Std.ReflCmp.compare_self,
      Ordering.eq_then]
    change compareText text otherText = compareOfLessAndEq text otherText
    unfold compareText compareOfLessAndEq
    by_cases same : text = otherText
    · subst same
      rw [if_pos rfl, if_neg (String.lt_irrefl text), if_pos rfl]
    · rw [if_neg same, if_neg same]

instance : Std.TransCmp order := by
  rw [order_eq]
  infer_instance

end Sql.Value

/-! ### Stable sorting -/

section

variable {α : Type} {l : List α} {a b : α}

theorem pair_sublist_of_mem (differ : a ≠ b) (isFirst : a ∈ l) (isSecond : b ∈ l) :
    [a, b].Sublist l ∨ [b, a].Sublist l := by
  induction l with
  | nil => simp at isFirst
  | cons c l induction =>
      rcases List.mem_cons.1 isFirst with rfl | first
      · have second := (List.mem_cons.1 isSecond).resolve_left differ.symm
        exact .inl ((List.singleton_sublist.2 second).cons_cons a)
      · rcases List.mem_cons.1 isSecond with rfl | second
        · exact .inr ((List.singleton_sublist.2 first).cons_cons b)
        · exact (induction first second).imp (·.cons c) (·.cons c)

theorem not_pair_sublist (nodup : l.Nodup) (pair : [a, b].Sublist l) : ¬ [b, a].Sublist l := by
  induction l with
  | nil => cases pair
  | cons c l induction =>
      obtain ⟨notMem, nodup⟩ := List.nodup_cons.1 nodup
      intro swapped
      cases pair with
      | cons _ pair =>
          cases swapped with
          | cons _ swapped => exact induction nodup pair swapped
          | cons_cons _ _ => exact notMem (pair.subset (by simp))
      | cons_cons _ second =>
          cases swapped with
          | cons _ swapped => exact notMem (swapped.subset (by simp))
          | cons_cons _ first => exact notMem (List.singleton_sublist.1 first)

/-- Does `a` come before `b` in the order, or else stand before it in the list? -/
def IsStablyBefore (order : α → α → Ordering) (l : List α) (a b : α) : Prop :=
  (order a b).isLE = true ∧ (order a b = .eq → [a, b].Sublist l)

theorem pairwise_mergeSort_stable (order : α → α → Ordering) [Std.TransCmp order]
    (nodup : l.Nodup) :
    (l.mergeSort fun a b => (order a b).isLE).Pairwise (IsStablyBefore order l) := by
  have swap (a b : α) : order a b = (order b a).swap := Std.OrientedCmp.eq_swap
  have trans (a b c : α) (before : (order a b).isLE = true) (after : (order b c).isLE = true) :
      (order a c).isLE = true :=
    Std.TransCmp.isLE_trans before after
  have total (a b : α) : ((order a b).isLE || (order b a).isLE) = true := by
    rw [swap a b]
    cases order b a <;> rfl
  have sorted := List.pairwise_mergeSort trans total l
  have nodupSorted := (List.mergeSort_perm l fun a b => (order a b).isLE).nodup_iff.2 nodup
  rw [List.pairwise_iff_forall_sublist] at sorted ⊢
  intro a b pair
  refine ⟨sorted pair, fun same => ?_⟩
  have differ : a ≠ b := by
    rintro rfl
    exact (List.nodup_cons.1 (nodupSorted.sublist pair)).1 (List.mem_singleton_self a)
  have isFirst : a ∈ l := List.mem_mergeSort.1 (pair.subset (by simp))
  have isSecond : b ∈ l := List.mem_mergeSort.1 (pair.subset (by simp))
  refine (pair_sublist_of_mem differ isFirst isSecond).resolve_right fun swapped => ?_
  refine not_pair_sublist nodupSorted pair (List.pair_sublist_mergeSort trans total ?_ swapped)
  rw [swap, same]
  rfl

variable {first second : α → α → Ordering} [Std.TransCmp first] [Std.TransCmp second]

/-- Sorting what is sorted already is sorting by both orders, the later one first. -/
theorem mergeSort_mergeSort (nodup : l.Nodup) :
    (l.mergeSort fun a b => (second a b).isLE).mergeSort (fun a b => (first a b).isLE) =
      l.mergeSort fun a b => (compareLex first second a b).isLE := by
  have inner := pairwise_mergeSort_stable second nodup
  have nodupInner := (List.mergeSort_perm l fun a b => (second a b).isLE).nodup_iff.2 nodup
  have outer := pairwise_mergeSort_stable first nodupInner
  have both := pairwise_mergeSort_stable (compareLex first second) nodup
  rw [List.pairwise_iff_forall_sublist] at inner
  have nested {a b : α}
      (stable : IsStablyBefore first (l.mergeSort fun a b => (second a b).isLE) a b) :
      IsStablyBefore (compareLex first second) l a b := by
    obtain ⟨isLE, same⟩ := stable
    unfold IsStablyBefore compareLex
    cases order : first a b with
    | lt => exact ⟨rfl, fun equal => nomatch equal⟩
    | eq => exact inner (same order)
    | gt =>
        rw [order] at isLE
        cases isLE
  refine List.Perm.eq_of_pairwise (fun a b _ _ before after => ?_) (outer.imp nested) both ?_
  · -- Of two items of one order, each would stand before the other.
    have swap : compareLex first second b a = (compareLex first second a b).swap :=
      Std.OrientedCmp.eq_swap
    have equal : compareLex first second a b = .eq := by
      have isLE := after.1
      rw [swap] at isLE
      have isLEToo := before.1
      cases order : compareLex first second a b with
      | lt => rw [order] at isLE; cases isLE
      | eq => rfl
      | gt => rw [order] at isLEToo; cases isLEToo
    exact absurd (after.2 (by rw [swap, equal]; rfl)) (not_pair_sublist nodup (before.2 equal))
  · exact ((List.mergeSort_perm _ _).trans (List.mergeSort_perm _ _)).trans
      (List.mergeSort_perm _ _).symm

variable {β : Type} (f : β → α)

theorem transCmp_comap : Std.TransCmp fun a b => first (f a) (f b) where
  eq_swap := Std.OrientedCmp.eq_swap
  isLE_trans := Std.TransCmp.isLE_trans

theorem transCmp_swap : Std.TransCmp fun a b => (first a b).swap := by
  have swap : (fun a b => (first a b).swap) = fun a b => first b a :=
    funext fun a => funext fun b => Std.OrientedCmp.eq_swap.symm
  rw [swap]
  infer_instance

end

/-! ### Orders of a query -/

namespace Order

/-- The first order that tells two rows apart decides. -/
def compareAll (scores : List Score) : List Order → Binding → Binding → Ordering
  | [] => fun _ _ => .eq
  | order :: rest => compareLex (fun a b => order.compareBy scores a b) (compareAll scores rest)

variable {scores : List Score}

instance (order : Order) : Std.TransCmp fun a b : Binding => order.compareBy scores a b := by
  unfold compareBy
  have keyed : Std.TransCmp fun a b : Binding => (order.key scores a).order (order.key scores b) :=
    transCmp_comap fun binding => order.key scores binding
  cases order.descending with
  | false => exact keyed
  | true => exact transCmp_swap

instance (orders : List Order) : Std.TransCmp (compareAll scores orders) := by
  induction orders with
  | nil => exact { eq_swap := rfl, isLE_trans := fun _ _ => rfl }
  | cons order rest induction =>
      unfold compareAll
      infer_instance

theorem rowsInOrder_eq (orders : List Order) (a b : Binding) :
    rowsInOrder scores orders a b = (compareAll scores orders a b).isLE := by
  induction orders with
  | nil => rfl
  | cons order rest induction =>
      rw [rowsInOrder, compareAll, compareLex]
      cases order.compareBy scores a b with
      | lt => rfl
      | eq => exact induction
      | gt => rfl

theorem compareAll_append (orders others : List Order) :
    compareAll scores (orders ++ others) =
      compareLex (compareAll scores orders) (compareAll scores others) := by
  induction orders with
  | nil => rfl
  | cons order rest induction =>
      rw [List.cons_append, compareAll, compareAll, induction]
      funext a b
      simp only [compareLex, Ordering.then_assoc]

end Order

end PageTree
