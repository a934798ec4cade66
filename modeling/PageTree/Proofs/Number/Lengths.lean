import Mathlib.Algebra.Order.Ring.Nat
import Mathlib.Data.Nat.Digits.Defs
import PageTree.Number.Extended

/-!
Lengths of the texts of numbers. Fifteen digits are scaled out of a number in a bounded number of
steps, so neither the digits nor the power of ten they end in grow beyond measure. Main statement:
the text of a number that was read from a decimal is short.
-/

namespace PageTree.Number

/-! ### Ceilings -/

theorem Binary64.roundHalfEven_le (num den : Nat) : roundHalfEven num den ≤ num / den + 1 := by
  unfold roundHalfEven
  dsimp only
  split <;> omega

/-- A whole number that is not below the number. -/
def Extended.ceiling (x : Extended) : Nat :=
  x.mantissa * 2 ^ x.exponent.toNat

namespace Extended

theorem floor_le_ceiling (x : Extended) : x.floor ≤ x.ceiling := by
  have rounds : x.floor ≤ (Binary64.magnitude x.mantissa x.exponent).1 := Nat.div_le_self ..
  refine rounds.trans ?_
  unfold Binary64.magnitude
  split
  · exact Nat.le_refl _
  · exact Nat.le_mul_of_pos_right _ (Nat.two_pow_pos _)

/-- Rounding to the precision at most doubles a number. -/
theorem ceiling_round_le (n : Nat) (e : Int) :
    (round n e).ceiling ≤ 2 * (n * 2 ^ e.toNat) := by
  let excess := n.log2 + 1 - precision
  by_cases none : n = 0
  · subst none
    have empty : (round 0 e).mantissa = 0 := rfl
    rw [ceiling, empty, Nat.zero_mul]
    exact Nat.zero_le _
  · have shifted : 2 ^ (e + excess).toNat ≤ 2 ^ excess * 2 ^ e.toNat := by
      rw [← Nat.pow_add]
      exact Nat.pow_le_pow_right (by decide) (by omega)
    have short : 2 ^ excess ≤ n :=
      calc 2 ^ excess ≤ 2 ^ n.log2 :=
            Nat.pow_le_pow_right (by decide) (by unfold excess precision; omega)
        _ ≤ n := Nat.log2_self_le none
    calc (round n e).ceiling
        ≤ (n / 2 ^ excess + 1) * (2 ^ excess * 2 ^ e.toNat) :=
          Nat.mul_le_mul (Binary64.roundHalfEven_le ..) shifted
      _ = (n / 2 ^ excess * 2 ^ excess + 2 ^ excess) * 2 ^ e.toNat := by ring
      _ ≤ (n + n) * 2 ^ e.toNat :=
          Nat.mul_le_mul_right _ (Nat.add_le_add (Nat.div_mul_le_self ..) short)
      _ = 2 * (n * 2 ^ e.toNat) := by ring

theorem ceiling_mul_le (x y : Extended) : (x * y).ceiling ≤ 2 * (x.ceiling * y.ceiling) := by
  have exponents : 2 ^ (x.exponent + y.exponent).toNat ≤
      2 ^ x.exponent.toNat * 2 ^ y.exponent.toNat := by
    rw [← Nat.pow_add]
    exact Nat.pow_le_pow_right (by decide) (by omega)
  calc (x * y).ceiling
      ≤ 2 * (x.mantissa * y.mantissa * 2 ^ (x.exponent + y.exponent).toNat) := ceiling_round_le ..
    _ ≤ 2 * (x.mantissa * y.mantissa * (2 ^ x.exponent.toNat * 2 ^ y.exponent.toNat)) :=
        Nat.mul_le_mul_left _ (Nat.mul_le_mul_left _ exponents)
    _ = 2 * (x.ceiling * y.ceiling) := by
        unfold ceiling
        ring

/-- Every step of scaling is by less than this power of two. -/
theorem ceiling_mul_powerOfTen_le {x : Extended} {bits : Nat} (small : x.ceiling ≤ 2 ^ bits)
    {step : Int} (isStep : (powerOfTen step).ceiling ≤ 2 ^ 333) :
    (x * powerOfTen step).ceiling ≤ 2 ^ (bits + 334) :=
  calc (x * powerOfTen step).ceiling
      ≤ 2 * (x.ceiling * (powerOfTen step).ceiling) := ceiling_mul_le ..
    _ ≤ 2 * (2 ^ bits * 2 ^ 333) := Nat.mul_le_mul_left _ (Nat.mul_le_mul small isStep)
    _ = 2 ^ (bits + 334) := by rw [← Nat.pow_add, ← Nat.pow_succ']

theorem Scaled.whileTrue_bounds (more : Extended → Bool) {step : Int}
    (isStep : (powerOfTen step).ceiling ≤ 2 ^ 333) (fuel : Nat) {x : Scaled} {bits : Nat}
    (small : x.number.ceiling ≤ 2 ^ bits) :
    (x.whileTrue more step fuel).number.ceiling ≤ 2 ^ (bits + 334 * fuel) ∧
      (x.whileTrue more step fuel).power.natAbs ≤ x.power.natAbs + step.natAbs * fuel := by
  induction fuel generalizing x bits with
  | zero => exact ⟨small, Nat.le_refl _⟩
  | succ fuel induction =>
      rw [whileTrue]
      split
      · obtain ⟨number, power⟩ := induction (x := ⟨x.number * powerOfTen step, x.power - step⟩)
          (ceiling_mul_powerOfTen_le small isStep)
        rw [Nat.mul_succ, Nat.mul_succ]
        refine ⟨number.trans (Nat.pow_le_pow_right (by decide) (by omega)), power.trans ?_⟩
        dsimp only
        omega
      · exact ⟨small.trans (Nat.pow_le_pow_right (by decide) (by omega)), Nat.le_add_right ..⟩

/-- Three rounds of at most sixty-four steps each bring a number into its place. -/
theorem normalize_bounds {x : Extended} {bits : Nat} (small : x.ceiling ≤ 2 ^ bits) :
    x.normalize.number.ceiling ≤ 2 ^ (bits + 64128) ∧ x.normalize.power.natAbs ≤ 7104 := by
  have rounds (first second third : Extended → Bool) {far near one : Int}
      (isFar : (powerOfTen far).ceiling ≤ 2 ^ 333 ∧ far.natAbs = 100)
      (isNear : (powerOfTen near).ceiling ≤ 2 ^ 333 ∧ near.natAbs = 10)
      (isOne : (powerOfTen one).ceiling ≤ 2 ^ 333 ∧ one.natAbs = 1) :
      let y := (((⟨x, 0⟩ : Scaled).whileTrue first far 64).whileTrue second near 64).whileTrue
        third one 64
      y.number.ceiling ≤ 2 ^ (bits + 64128) ∧ y.power.natAbs ≤ 7104 := by
    obtain ⟨number₁, power₁⟩ :=
      Scaled.whileTrue_bounds first isFar.1 64 (x := ⟨x, 0⟩) small
    obtain ⟨number₂, power₂⟩ := Scaled.whileTrue_bounds second isNear.1 64 number₁
    obtain ⟨number, power₃⟩ := Scaled.whileTrue_bounds third isOne.1 64 number₂
    rw [isFar.2, show ((⟨x, 0⟩ : Scaled).power).natAbs = 0 from rfl] at power₁
    rw [isNear.2] at power₂
    rw [isOne.2] at power₃
    exact ⟨number.trans (Nat.pow_le_pow_right (by decide) (by omega)), by omega⟩
  unfold normalize
  split
  · exact rounds _ _ _ (by decide +kernel) (by decide +kernel) (by decide +kernel)
  · exact rounds _ _ _ (by decide +kernel) (by decide +kernel) (by decide +kernel)

end Extended

/-! ### Digits -/

theorem length_toString_le_of_lt {n width : Nat} (wide : 0 < width) (small : n < 10 ^ width) :
    (toString n).length ≤ width :=
  (Nat.length_repr_le_iff wide).2 small

theorem lt_of_length_toString_le {n width : Nat} (short : (toString n).length ≤ width) :
    n < 10 ^ width :=
  (Nat.length_repr_le_iff (Nat.length_repr_pos.trans_le short)).1 short

theorem length_toString_mono {m n : Nat} (less : m ≤ n) :
    (toString m).length ≤ (toString n).length :=
  length_toString_le_of_lt Nat.length_repr_pos
    (less.trans_lt (lt_of_length_toString_le (Nat.le_refl _)))

theorem length_toString_le_of_le_two_pow {n bits : Nat} (small : n ≤ 2 ^ bits) :
    (toString n).length ≤ bits + 1 := by
  refine length_toString_le_of_lt (Nat.succ_pos _) ?_
  calc n ≤ 2 ^ bits := small
    _ ≤ 10 ^ bits := Nat.pow_le_pow_left (by decide) _
    _ < 10 ^ (bits + 1) := Nat.pow_lt_pow_succ (by decide)

theorem length_toString_le_of_inInt64 {n : Int} (inRange : InInt64 n) :
    (toString n).length ≤ 65 := by
  have small : n.natAbs ≤ 2 ^ 63 := by
    obtain ⟨low, high⟩ := inRange
    rw [minInt64] at low
    rw [maxInt64] at high
    omega
  have digits := length_toString_le_of_le_two_pow small
  cases n with
  | ofNat n => exact digits.trans (by decide)
  | negSucc n =>
      change ("-" ++ toString (n + 1)).length ≤ 65
      rw [String.length_append, show "-".length = 1 from rfl]
      change (toString (n + 1)).length ≤ 64 at digits
      omega

theorem length_toString_le_succ (n : Nat) : (toString n).length ≤ n + 1 :=
  length_toString_le_of_le_two_pow (Nat.lt_two_pow_self (n := n)).le

namespace Decimal

theorem length_digits_take_le (d : Decimal) (count : Nat) :
    (toString (d.take count).digits).length ≤ count + 1 := by
  let excess := (toString d.digits).length - count
  unfold take
  dsimp only
  split
  · next fits => omega
  · next long =>
    have whole : d.digits < 10 ^ (excess - 1) * 10 ^ (count + 1) := by
      rw [← Nat.pow_add]
      exact lt_of_length_toString_le (by omega)
    have first : d.digits / 10 ^ (excess - 1) < 10 ^ (count + 1) :=
      Nat.div_lt_of_lt_mul whole
    have room : 10 ≤ 10 ^ (count + 1) := Nat.le_self_pow (Nat.succ_ne_zero _) 10
    refine length_toString_le_of_lt (Nat.succ_pos _) ?_
    change (d.digits / 10 ^ (excess - 1) + 5) / 10 < 10 ^ (count + 1)
    omega

theorem natAbs_exponent_take_le (d : Decimal) (count : Nat) :
    (d.take count).exponent.natAbs ≤ d.exponent.natAbs + (toString d.digits).length := by
  unfold take
  dsimp only
  split
  · exact Nat.le_add_right ..
  · dsimp only
    omega

theorem length_positional_le (d : Decimal) (fraction : String) :
    (d.positional fraction).length ≤
      (toString d.digits).length + d.exponent.natAbs + fraction.length + 2 := by
  unfold positional zeros
  dsimp only
  rw [← String.length_toList (s := toString d.digits)]
  split
  · rw [String.length_append, String.length_ofList, List.length_append, List.length_replicate]
    omega
  · split
    · rw [String.length_ofList, List.length_append, List.length_cons, List.length_take,
        List.length_drop]
      omega
    · rw [String.length_append, show "0.".length = 2 from rfl, String.length_ofList,
        List.length_append, List.length_replicate]
      omega

theorem length_scientific_le (d : Decimal) (lone : String) (power : Int → String) :
    (d.scientific lone power).length ≤ (toString d.digits).length + lone.length + 1 +
      (power ((toString d.digits).length - 1 + d.exponent)).length := by
  unfold scientific
  dsimp only
  rw [String.length_append, String.length_toList]
  refine Nat.add_le_add_right ?_ _
  rw [← String.length_toList (s := toString d.digits)]
  split
  · exact Nat.zero_le _
  · rw [String.length_append, String.length_singleton]
    omega
  · next spelled =>
    rw [spelled, String.length_ofList, List.length_cons, List.length_cons, List.length_cons]
    omega

end Decimal

/-! ### Texts -/

namespace Binary64

theorem length_sign_le (negative : Bool) : (sign negative).length ≤ 1 := by
  cases negative <;> decide

theorem scaledDigits_bounds {m : Nat} {e : Int} {bits : Nat}
    (small : (⟨m, e⟩ : Extended).ceiling ≤ 2 ^ bits) :
    (toString (scaledDigits m e 15).digits).length ≤ 16 ∧
      (scaledDigits m e 15).exponent.natAbs ≤ bits + 71233 := by
  rw [scaledDigits]
  split
  · exact ⟨by decide, by simp⟩
  · obtain ⟨number, power⟩ := Extended.normalize_bounds small
    refine ⟨Decimal.length_digits_take_le .., (Decimal.natAbs_exponent_take_le ..).trans ?_⟩
    have digits := length_toString_le_of_le_two_pow ((Extended.floor_le_ceiling _).trans number)
    change Int.natAbs (Extended.normalize _).power + (toString (Extended.floor _)).length ≤ _
    omega

theorem length_fifteenDigits_le (negative : Bool) {m : Nat} {e : Int} {bits : Nat}
    (small : (⟨m, e⟩ : Extended).ceiling ≤ 2 ^ bits) :
    (fifteenDigits (.finite negative m e)).length ≤ bits + 71400 := by
  obtain ⟨digits, exponent⟩ := scaledDigits_bounds small
  have fewer := length_toString_mono (Decimal.digits_stripZeros_le (scaledDigits m e 15))
  have near := Decimal.natAbs_exponent_stripZeros_le (scaledDigits m e 15)
  have signed := length_sign_le (negative && m != 0)
  unfold fifteenDigits
  dsimp only
  rw [String.length_append]
  split
  · have text := Decimal.length_positional_le (scaledDigits m e 15).stripZeros ".0"
    rw [show ".0".length = 2 from rfl] at text
    omega
  · refine (Nat.add_le_add_left (Decimal.length_scientific_le ..) _).trans ?_
    refine (Nat.add_le_add_left (Nat.add_le_add_left (length_paddedPower_le _) _) _).trans ?_
    have power := length_toString_le_succ
      (((toString (scaledDigits m e 15).stripZeros.digits).length : Int) - 1 +
        (scaledDigits m e 15).stripZeros.exponent).natAbs
    rw [show ".0".length = 2 from rfl]
    omega

/-! ### Numbers that were read -/

theorem inUnits_div_le {num den bits : Nat} (small : num ≤ den * 2 ^ bits) {e : Int}
    (least : leastExponent ≤ e) :
    (inUnits num den e).1 / (inUnits num den e).2 ≤ 2 ^ (bits + 1074) := by
  rw [leastExponent] at least
  unfold inUnits
  split
  · refine Nat.div_le_of_le_mul ?_
    calc num ≤ den * 2 ^ bits := small
      _ ≤ den * 2 ^ (e.toNat + (bits + 1074)) :=
          Nat.mul_le_mul_left _ (Nat.pow_le_pow_right (by decide) (by omega))
      _ = den * 2 ^ e.toNat * 2 ^ (bits + 1074) := by rw [Nat.pow_add, Nat.mul_assoc]
  · refine Nat.div_le_of_le_mul ?_
    calc num * 2 ^ (-e).toNat
        ≤ den * 2 ^ bits * 2 ^ 1074 :=
          Nat.mul_le_mul small (Nat.pow_le_pow_right (by decide) (by omega))
      _ = den * 2 ^ (bits + 1074) := by rw [Nat.mul_assoc, Nat.pow_add]

/-- The mantissa of a finite number is rounded at some exponent, and halved when it is full. -/
theorem exists_of_ofRatio_eq_finite {negative sign : Bool} {num den m : Nat} {e : Int}
    (positive : num ≠ 0) (made : ofRatio negative num den = .finite sign m e) :
    e ≤ greatestExponent ∧ ∃ unit, leastExponent ≤ unit ∧
      m ≤ roundHalfEven (inUnits num den unit).1 (inUnits num den unit).2 := by
  obtain ⟨unit, rounded, least, isRounded, same⟩ : ∃ unit rounded, leastExponent ≤ unit ∧
      rounded = roundHalfEven (inUnits num den unit).1 (inUnits num den unit).2 ∧
      ofRatio negative num den =
        (let carried := if rounded = Nat.pow 2 53 then (Nat.pow 2 52, unit + 1) else (rounded, unit)
        if greatestExponent < carried.2 then .infinite negative
        else .finite negative carried.1 carried.2) :=
    ⟨_, _, le_max_right _ leastExponent, rfl, if_neg positive⟩
  let carried := if rounded = Nat.pow 2 53 then (Nat.pow 2 52, unit + 1) else (rounded, unit)
  have halved : carried.1 ≤ rounded := by
    unfold carried
    split
    · next full =>
      rw [full]
      exact Nat.pow_le_pow_right (by decide) (Nat.le_succ 52)
    · exact Nat.le_refl _
  change _ = ite (greatestExponent < carried.2) _ _ at same
  rw [same] at made
  by_cases high : greatestExponent < carried.2
  · rw [if_pos high] at made
    cases made
  · rw [if_neg high] at made
    obtain ⟨-, rfl, rfl⟩ := Binary64.finite.inj made
    exact ⟨not_lt.1 high, unit, least, isRounded ▸ halved⟩

theorem ceiling_ofRatio_le {negative sign : Bool} {num den bits m : Nat} {e : Int}
    (small : num ≤ den * 2 ^ bits) (made : ofRatio negative num den = .finite sign m e) :
    (⟨m, e⟩ : Extended).ceiling ≤ 2 ^ (bits + 2046) := by
  by_cases zero : num = 0
  · rw [ofRatio, if_pos zero] at made
    cases made
    exact Nat.zero_le _
  · obtain ⟨low, unit, least, rounded⟩ := exists_of_ofRatio_eq_finite zero made
    rw [greatestExponent] at low
    calc m * 2 ^ e.toNat
        ≤ (2 ^ (bits + 1074) + 1) * 2 ^ e.toNat :=
          Nat.mul_le_mul_right _ (rounded.trans ((roundHalfEven_le ..).trans
            (Nat.succ_le_succ (inUnits_div_le small least))))
      _ ≤ 2 ^ (bits + 1075) * 2 ^ e.toNat := by
          refine Nat.mul_le_mul_right _ ?_
          rw [Nat.pow_succ 2 (bits + 1074), Nat.mul_two]
          exact Nat.add_le_add_left Nat.one_le_two_pow _
      _ = 2 ^ (bits + 1075 + e.toNat) := (Nat.pow_add ..).symm
      _ ≤ 2 ^ (bits + 2046) := Nat.pow_le_pow_right (by decide) (by omega)

/-- A number not above the greatest one is below the next power of two. -/
theorem magnitude_le_of_not_less {x : Extended} (small : ¬greatest.less x = true) :
    (magnitude x.mantissa x.exponent).1 ≤ (magnitude x.mantissa x.exponent).2 * 2 ^ 1024 := by
  let unit := min greatestExponent x.exponent
  have least : unit ≤ 971 ∧ unit ≤ x.exponent ∧ (unit = 971 ∨ unit = x.exponent) := by
    unfold unit greatestExponent
    omega
  have bounded : x.mantissa * 2 ^ (x.exponent - unit).toNat ≤ 2 ^ (53 + (971 - unit).toNat) := by
    rw [Nat.pow_add]
    exact (not_lt.1 (of_decide_eq_false (Bool.eq_false_iff.2 small))).trans
      (Nat.mul_le_mul_right _ (by decide))
  unfold magnitude
  split
  · next whole =>
    calc x.mantissa * 2 ^ x.exponent.toNat
        = x.mantissa * 2 ^ (x.exponent - unit).toNat * 2 ^ unit.toNat := by
          rw [Nat.mul_assoc, ← Nat.pow_add]
          congr 2
          omega
      _ ≤ 2 ^ (53 + (971 - unit).toNat) * 2 ^ unit.toNat := Nat.mul_le_mul_right _ bounded
      _ = 1 * 2 ^ 1024 := by
          rw [← Nat.pow_add, Nat.one_mul]
          congr 1
          omega
  · next part =>
    have same : unit = x.exponent := by omega
    calc x.mantissa = x.mantissa * 2 ^ (x.exponent - unit).toNat := by
          rw [same, Int.sub_self, Int.toNat_zero, Nat.pow_zero, Nat.mul_one]
      _ ≤ 2 ^ (53 + (971 - unit).toNat) := bounded
      _ = 2 ^ (-x.exponent).toNat * 2 ^ 1024 := by
          rw [← Nat.pow_add]
          congr 1
          omega

theorem length_fifteenDigits_ofScaledText_le (negative : Bool) (text : DecimalText) :
    (ofScaledText negative text).fifteenDigits.length ≤ 100000 := by
  cases made : ofScaledText negative text with
  | nan => decide
  | infinite negative => cases negative <;> decide
  | finite sign m e =>
      suffices small : (⟨m, e⟩ : Extended).ceiling ≤ 2 ^ (1024 + 2046) from
        (length_fifteenDigits_le sign small).trans (by decide)
      unfold ofScaledText at made
      dsimp only at made
      split at made
      · cases made
        exact Nat.zero_le _
      · split at made
        · cases made
        · next small =>
          exact ceiling_ofRatio_le (magnitude_le_of_not_less small) made

end Binary64

end PageTree.Number
