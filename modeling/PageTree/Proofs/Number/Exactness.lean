import Mathlib.Algebra.Ring.Nat
import PageTree.Number.Binary64

/-!
Whole numbers as binary floating-point numbers. Below 2 ^ 53 they are written without a loss. Main
statement: as long as a sum of whole numbers stays below that, adding them up loses nothing.
-/

namespace PageTree.Number.Binary64

/-! ### Ratios -/

theorem log2_mul_two_pow {n : Nat} (positive : n ≠ 0) (places : Nat) :
    (n * 2 ^ places).log2 = n.log2 + places := by
  have bounds := (Nat.log2_eq_iff positive).1 rfl
  rw [Nat.log2_eq_iff (Nat.mul_ne_zero positive (Nat.ne_of_gt (Nat.two_pow_pos _)))]
  constructor
  · rw [Nat.pow_add]
    exact Nat.mul_le_mul_right _ bounds.1
  · rw [Nat.add_right_comm, Nat.pow_add]
    exact Nat.mul_lt_mul_of_pos_right bounds.2 (Nat.two_pow_pos _)

theorem roundHalfEven_mul (num den : Nat) {factor : Nat} (positive : 0 < factor) :
    roundHalfEven (num * factor) (den * factor) = roundHalfEven num den := by
  have twice : 2 * (num * factor % (den * factor)) = 2 * (num % den) * factor := by
    rw [Nat.mul_mod_mul_right, Nat.mul_assoc]
  have less : den * factor < 2 * (num % den) * factor ↔ den < 2 * (num % den) :=
    Nat.mul_lt_mul_right positive
  have same : 2 * (num % den) * factor = den * factor ↔ 2 * (num % den) = den :=
    Nat.mul_left_inj (Nat.ne_of_gt positive)
  simp only [roundHalfEven, twice, less, same, Nat.mul_div_mul_right _ _ positive]

theorem inUnits_mul (num den factor : Nat) (e : Int) :
    inUnits (num * factor) (den * factor) e =
      ((inUnits num den e).1 * factor, (inUnits num den e).2 * factor) := by
  unfold inUnits
  split
  · rw [Nat.mul_right_comm]
  · rw [Nat.mul_right_comm]

/-- Only the ratio counts. -/
theorem ofRatio_mul_two_pow (negative : Bool) (num places : Nat) :
    ofRatio negative (num * 2 ^ places) (2 ^ places) = ofRatio negative num 1 := by
  have positive : 0 < 2 ^ places := Nat.two_pow_pos _
  by_cases zero : num = 0
  · rw [zero, Nat.zero_mul, ofRatio, ofRatio, if_pos rfl, if_pos rfl]
  · have units (e : Int) : inUnits (num * 2 ^ places) (2 ^ places) e =
        ((inUnits num 1 e).1 * 2 ^ places, (inUnits num 1 e).2 * 2 ^ places) := by
      rw [← inUnits_mul, Nat.one_mul]
    have low : ((num * 2 ^ places).log2 : Int) - ((2 ^ places).log2 : Int) - 53 =
        (num.log2 : Int) - ((1 : Nat).log2 : Int) - 53 := by
      rw [log2_mul_two_pow zero, Nat.log2_two_pow, show (1 : Nat).log2 = 0 by decide]
      omega
    unfold ofRatio
    rw [if_neg zero, if_neg (Nat.mul_ne_zero zero (Nat.ne_of_gt positive))]
    simp only [low, units, Nat.mul_div_mul_right _ _ positive, roundHalfEven_mul _ _ positive]

/-- A whole number of 53 bits is written in full. -/
theorem ofRatio_of_lt {n : Nat} (positive : n ≠ 0) (small : n < 2 ^ 53) :
    ofRatio false n 1 =
      .finite false (n * 2 ^ (52 - n.log2)) (-((52 - n.log2 : Nat) : Int)) := by
  have width : n.log2 ≤ 52 := Nat.le_of_lt_succ ((Nat.log2_lt positive).2 small)
  obtain ⟨least, most⟩ := (Nat.log2_eq_iff positive).1 rfl
  have shifted {places : Nat} : inUnits n 1 (-(places : Int)) = (n * 2 ^ places, 1) := by
    unfold inUnits
    split
    · obtain rfl : places = 0 := by omega
      simp
    · simp
  have low : (n.log2 : Int) - ((1 : Nat).log2 : Int) - 53 = -((53 - n.log2 : Nat) : Int) := by
    rw [show (1 : Nat).log2 = 0 by decide]
    omega
  have wide : 2 ^ 53 ≤ n * 2 ^ (53 - n.log2) := by
    calc 2 ^ 53 = 2 ^ n.log2 * 2 ^ (53 - n.log2) := by
          rw [← Nat.pow_add, Nat.add_sub_cancel' (Nat.le_succ_of_le width)]
      _ ≤ n * 2 ^ (53 - n.log2) := Nat.mul_le_mul_right _ least
  have narrow : n * 2 ^ (52 - n.log2) < 2 ^ 53 := by
    calc n * 2 ^ (52 - n.log2) < 2 ^ (n.log2 + 1) * 2 ^ (52 - n.log2) :=
          Nat.mul_lt_mul_of_pos_right most (Nat.two_pow_pos _)
      _ = 2 ^ 53 := by rw [← Nat.pow_add]; congr 1; omega
  have tight : -((53 - n.log2 : Nat) : Int) + 1 = -((52 - n.log2 : Nat) : Int) := by omega
  have deep : max (-((52 - n.log2 : Nat) : Int)) leastExponent = -((52 - n.log2 : Nat) : Int) := by
    unfold leastExponent
    omega
  have exact : roundHalfEven (n * 2 ^ (52 - n.log2)) 1 = n * 2 ^ (52 - n.log2) := by
    rw [roundHalfEven, Nat.div_one, Nat.mod_one, if_neg (by omega)]
  have shallow : ¬greatestExponent < -((52 - n.log2 : Nat) : Int) := by
    unfold greatestExponent
    omega
  unfold ofRatio
  rw [if_neg positive]
  simp only [low, shifted, Nat.pow_eq, Nat.div_one, if_pos wide, tight, deep, exact,
    if_neg (Nat.ne_of_lt narrow), if_neg shallow]

/-! ### Whole numbers -/

/-- The number is a whole one, written in some unit that divides one. -/
def IsWhole (x : Binary64) (n : Nat) : Prop :=
  ∃ places : Nat, x = .finite false (n * 2 ^ places) (-(places : Int))

theorem isWhole_zero : IsWhole zero 0 :=
  ⟨(-leastExponent).toNat, by rw [Nat.zero_mul]; rfl⟩

theorem isWhole_ofInt {n : Nat} (small : n < 2 ^ 53) : IsWhole (ofInt n) n := by
  have natural : ofInt n = ofRatio false n 1 := by
    rw [ofInt, Int.natAbs_natCast, decide_eq_false (by omega)]
  rw [natural]
  by_cases empty : n = 0
  · rw [empty]
    exact isWhole_zero
  · exact ⟨52 - n.log2, ofRatio_of_lt empty small⟩

theorem IsWhole.truncate_eq {x : Binary64} {n : Nat} (whole : x.IsWhole n) (small : n < 2 ^ 53) :
    x.truncate = n := by
  obtain ⟨places, rfl⟩ := whole
  have quotient : (magnitude (n * 2 ^ places) (-(places : Int))).1 /
      (magnitude (n * 2 ^ places) (-(places : Int))).2 = n := by
    unfold magnitude
    split
    · obtain rfl : places = 0 := by omega
      simp
    · rw [Int.neg_neg, Int.toNat_natCast, Nat.pow_eq]
      exact Nat.mul_div_cancel n (Nat.two_pow_pos places)
  rw [truncate, quotient, if_neg Bool.false_ne_true, saturateInt64, minInt64, maxInt64]
  omega

theorem IsWhole.isFinite {x : Binary64} {n : Nat} (whole : x.IsWhole n) : x.isFinite = true := by
  obtain ⟨places, rfl⟩ := whole
  rfl

theorem signedUnits_eq (n : Nat) {places others : Nat} (within : places ≤ others) :
    signedUnits false (n * 2 ^ places) (-(places : Int)) (-(others : Int)) = (n * 2 ^ others : Nat) := by
  have gap : (-(places : Int) - -(others : Int)).toNat = others - places := by omega
  rw [signedUnits, gap, if_neg Bool.false_ne_true, Nat.pow_eq, Nat.mul_assoc, ← Nat.pow_add,
    Nat.add_sub_cancel' within]

/-- A sum is rounded as the whole number that it is. -/
theorem IsWhole.add_eq {x y : Binary64} {m n : Nat} (whole : x.IsWhole m) (wholeToo : y.IsWhole n) :
    x + y = ofInt ((m + n : Nat) : Int) := by
  obtain ⟨places, rfl⟩ := whole
  obtain ⟨others, rfl⟩ := wholeToo
  let most := max places others
  have unit : min (-(places : Int)) (-(others : Int)) = -(most : Int) := by omega
  have sum : signedUnits false (m * 2 ^ places) (-(places : Int)) (-(most : Int)) +
      signedUnits false (n * 2 ^ others) (-(others : Int)) (-(most : Int)) =
        ((m + n) * 2 ^ most : Nat) := by
    rw [signedUnits_eq m (Nat.le_max_left ..), signedUnits_eq n (Nat.le_max_right ..), Nat.add_mul]
    rfl
  have natural (n : Nat) : ofInt n = ofRatio false n 1 := by
    rw [ofInt, Int.natAbs_natCast, decide_eq_false (by omega)]
  rw [natural]
  change add _ _ = _
  rw [add]
  simp only [unit, sum]
  by_cases empty : m + n = 0
  · rw [empty, Nat.zero_mul]
    rfl
  · have filled : ((m + n) * 2 ^ most : Nat) ≠ 0 :=
      Nat.mul_ne_zero empty (Nat.ne_of_gt (Nat.two_pow_pos _))
    have positive : ¬((((m + n) * 2 ^ most : Nat) : Int) < 0) := by omega
    rw [if_neg (by exact_mod_cast filled), decide_eq_false positive, Int.natAbs_natCast]
    split
    · have none : most = 0 := by omega
      simp [none]
    · rw [Int.neg_neg, Int.toNat_natCast, Nat.pow_eq]
      exact ofRatio_mul_two_pow false (m + n) most

theorem isWhole_foldl_add (numbers : List Nat) {x : Binary64} {n : Nat} (whole : x.IsWhole n)
    (small : n + numbers.sum < 2 ^ 53) :
    (numbers.foldl (fun total (number : Nat) => total + ofInt number) x).IsWhole (n + numbers.sum) := by
  induction numbers generalizing x n with
  | nil => exact whole
  | cons number numbers induction =>
      rw [List.sum_cons] at small
      rw [List.foldl_cons, List.sum_cons, ← Nat.add_assoc]
      refine induction ?_ (by omega)
      rw [whole.add_eq (isWhole_ofInt (by omega))]
      exact isWhole_ofInt (by omega)

end PageTree.Number.Binary64
