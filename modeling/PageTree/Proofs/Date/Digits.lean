import Mathlib.Data.Nat.Digits.Defs
import PageTree.Date.Reading
import PageTree.Proofs.Text.Pieces

/-!
Numbers with at least so many digits. They are read as the numbers that they were written for, and
with equally many digits they are ordered as the numbers are.
-/

namespace PageTree.Date

open Number Text

variable {width m n : Nat}

theorem digitsValue_append (cs ds : List Char) :
    digitsValue (cs ++ ds) = 10 ^ ds.length * digitsValue cs + digitsValue ds := by
  change Nat.ofDigitChars 10 (cs ++ ds) 0 = _
  rw [Nat.ofDigitChars_append, Nat.ofDigitChars_eq_ofDigitChars_zero]
  rfl

theorem digitsValue_cons (c : Char) (cs : List Char) :
    digitsValue (c :: cs) = 10 ^ cs.length * digitValue c + digitsValue cs := by
  rw [← List.singleton_append, digitsValue_append, digitsValue, List.foldl_cons, List.foldl_nil,
    Nat.mul_zero, Nat.zero_add]

theorem isDigit_of_mem_padded {c : Char} (member : c ∈ padded width n) : c.isDigit = true := by
  rcases List.mem_append.1 member with zero | digit
  · rw [List.eq_of_mem_replicate zero]
    decide
  · exact Nat.isDigit_of_mem_toDigits (by decide) (by decide) digit

theorem digitsValue_padded (width n : Nat) : digitsValue (padded width n) = n := by
  have zeros (count : Nat) : digitsValue (List.replicate count '0') = 0 := by
    change Nat.ofDigitChars 10 _ 0 = 0
    rw [Nat.ofDigitChars_replicate_zero, Nat.mul_zero]
  rw [padded, digitsValue_append, zeros, Nat.mul_zero, Nat.zero_add]
  exact Nat.ofDigitChars_ten_toDigits

theorem le_length_padded (width n : Nat) : width ≤ (padded width n).length := by
  rw [padded, List.length_append, List.length_replicate]
  omega

theorem length_padded (some : 0 < width) (small : n < 10 ^ width) :
    (padded width n).length = width := by
  have digits := Nat.toDigits_length 10 n width some small
  rw [padded, List.length_append, List.length_replicate]
  omega

theorem exists_padded_eq_cons (some : 0 < width) (n : Nat) :
    ∃ c cs, padded width n = c :: cs ∧ c.isDigit = true := by
  have least := le_length_padded width n
  cases digits : padded width n with
  | nil => simp [digits] at least; omega
  | cons c cs => exact ⟨c, cs, rfl, isDigit_of_mem_padded (digits ▸ List.mem_cons_self ..)⟩

theorem exists_padded_eq_append (some : 0 < width) (n : Nat) :
    ∃ cs c, padded width n = cs ++ [c] ∧ c.isDigit = true := by
  obtain ⟨d, ds, digits, -⟩ := exists_padded_eq_cons some n
  rcases List.eq_nil_or_concat' (padded width n) with empty | ⟨cs, c, split⟩
  · cases digits.symm.trans empty
  · exact ⟨cs, c, split, isDigit_of_mem_padded (by rw [split]; simp)⟩

theorem isEmpty_padded (some : 0 < width) (n : Nat) : (padded width n).isEmpty = false := by
  have least := le_length_padded width n
  rw [List.isEmpty_eq_false_iff, ← List.length_pos_iff]
  omega

theorem isDigits_padded (some : 0 < width) (n : Nat) : isDigits (padded width n) = true := by
  have all : (padded width n).all Char.isDigit = true :=
    List.all_eq_true.2 fun c member => isDigit_of_mem_padded member
  rw [isDigits, isEmpty_padded some, all]
  rfl

theorem take_padded_append (some : 0 < width) (small : n < 10 ^ width) (rest : List Char) :
    (padded width n ++ rest).take width = padded width n :=
  List.take_left' (length_padded some small)

theorem takeWhile_padded_append {rest : List Char}
    (ends : ∀ c ∈ rest.head?, c.isDigit = false) :
    (padded width n ++ rest).takeWhile Char.isDigit = padded width n := by
  rw [List.takeWhile_append_of_pos fun c member => isDigit_of_mem_padded member]
  cases rest with
  | nil => exact List.append_nil _
  | cons c cs => rw [List.takeWhile_cons_of_neg (by simp [ends c rfl]), List.append_nil]

/-! ### Reading -/

theorem readNumber?_padded (some : 0 < width) (small : n < 10 ^ width) (rest : List Char) :
    readNumber? width (padded width n ++ rest) = .some (n, rest) := by
  have digits := @takeWhile_padded_append width n [] (by simp)
  rw [List.append_nil] at digits
  rw [readNumber?, take_padded_append some small, digits, isEmpty_padded some,
    if_neg Bool.false_ne_true, digitsValue_padded, List.drop_left]

/-- Behind a sign a number has as many digits as there are. -/
theorem readNumber?_length_padded (some : 0 < width) {rest : List Char}
    (ends : ∀ c ∈ rest.head?, c.isDigit = false) :
    readNumber? (padded width n ++ rest).length (padded width n ++ rest) = .some (n, rest) := by
  rw [readNumber?, List.take_length, takeWhile_padded_append ends, isEmpty_padded some,
    if_neg Bool.false_ne_true, digitsValue_padded, List.drop_left]

theorem readDigits?_padded (some : 0 < width) (small : n < 10 ^ width) (rest : List Char) :
    readDigits? width (padded width n ++ rest) = .some (n, rest) := by
  have length := length_padded some small
  have dropped : (padded width n ++ rest).drop width = rest := List.drop_left' length
  rw [readDigits?, take_padded_append some small, dropped, if_pos ⟨length, isDigits_padded some n⟩,
    digitsValue_padded]

theorem digit_bounds {c : Char} (digit : c.isDigit = true) : 48 ≤ c.toNat ∧ c.toNat ≤ 57 := by
  simp only [Char.isDigit, Bool.and_eq_true, decide_eq_true_eq] at digit
  exact ⟨UInt32.le_iff_toNat_le.1 digit.1, UInt32.le_iff_toNat_le.1 digit.2⟩

theorem isBlank_of_isDigit {c : Char} (digit : c.isDigit = true) : isBlank c = false := by
  have bounds := digit_bounds digit
  simp only [isBlank, Bool.or_eq_false_iff, Bool.and_eq_false_iff, decide_eq_false_iff_not,
    beq_eq_false_iff_ne]
  omega

theorem readPart?_padded (small : n < 100) (rest : List Char) :
    readPart? (padded 2 n ++ rest) = some (n, rest) := by
  obtain ⟨c, cs, spelled, digit⟩ := exists_padded_eq_cons Nat.two_pos n
  have start : trimStart (padded 2 n ++ rest) = padded 2 n ++ rest :=
    trimStart_eq ⟨c, by rw [spelled]; rfl, isBlank_of_isDigit digit⟩
  rw [readPart?, start, readNumber?_padded Nat.two_pos small]

/-! ### Order -/

theorem append_lt_append_iff {as bs cs ds : List Char} (same : as.length = bs.length) :
    as ++ cs < bs ++ ds ↔ as < bs ∨ as = bs ∧ cs < ds := by
  induction as generalizing bs with
  | nil =>
      rw [List.eq_nil_of_length_eq_zero same.symm]
      simp
  | cons a as induction =>
      cases bs with
      | nil => cases same
      | cons b bs =>
          rw [List.cons_append, List.cons_append, List.cons_lt_cons_iff, List.cons_lt_cons_iff,
            induction (Nat.succ.inj same), List.cons.injEq]
          tauto

theorem digitsValue_lt {cs : List Char} (digits : ∀ c ∈ cs, c.isDigit = true) :
    digitsValue cs < 10 ^ cs.length := by
  induction cs with
  | nil => decide
  | cons c cs induction =>
      obtain ⟨first, rest⟩ := List.forall_mem_cons.1 digits
      have bounds := digit_bounds first
      have value : digitValue c ≤ 9 := by unfold digitValue; omega
      have product := Nat.mul_le_mul_left (10 ^ cs.length) value
      have less := induction rest
      rw [digitsValue_cons, List.length_cons, Nat.pow_succ]
      omega

theorem lt_iff_digitsValue_lt {cs ds : List Char} (isNumber : ∀ c ∈ cs, c.isDigit = true)
    (isOther : ∀ c ∈ ds, c.isDigit = true) (same : cs.length = ds.length) :
    cs < ds ↔ digitsValue cs < digitsValue ds := by
  induction cs generalizing ds with
  | nil => simp [List.eq_nil_of_length_eq_zero same.symm]
  | cons c cs induction =>
      cases ds with
      | nil => cases same
      | cons d ds =>
          obtain ⟨isFirst, isNumber⟩ := List.forall_mem_cons.1 isNumber
          obtain ⟨isOtherFirst, isOther⟩ := List.forall_mem_cons.1 isOther
          have same := Nat.succ.inj same
          have first := digit_bounds isFirst
          have otherFirst := digit_bounds isOtherFirst
          have less := digitsValue_lt isNumber
          have otherLess := digitsValue_lt isOther
          have order : c < d ↔ digitValue c < digitValue d := by
            unfold digitValue
            change c.toNat < d.toNat ↔ _
            omega
          have equal : c = d ↔ digitValue c = digitValue d := by
            unfold digitValue
            rw [← Char.toNat_inj]
            omega
          rw [List.cons_lt_cons_iff, induction isNumber isOther same, digitsValue_cons,
            digitsValue_cons, same, order, equal]
          rw [same] at less
          rcases Nat.lt_trichotomy (digitValue c) (digitValue d) with smaller | alike | greater
          · have product := Nat.mul_le_mul_left (10 ^ ds.length) smaller
            rw [Nat.succ_eq_add_one, Nat.mul_add] at product
            omega
          · rw [alike]
            omega
          · have product := Nat.mul_le_mul_left (10 ^ ds.length) greater
            rw [Nat.succ_eq_add_one, Nat.mul_add] at product
            omega

theorem padded_lt_iff (some : 0 < width) (isFirst : m < 10 ^ width) (isSecond : n < 10 ^ width) :
    padded width m < padded width n ↔ m < n := by
  rw [lt_iff_digitsValue_lt (fun c member => isDigit_of_mem_padded member)
    (fun c member => isDigit_of_mem_padded member)
    ((length_padded some isFirst).trans (length_padded some isSecond).symm), digitsValue_padded,
    digitsValue_padded]

theorem padded_inj : padded width m = padded width n ↔ m = n := by
  refine ⟨fun same => ?_, congrArg _⟩
  rw [← digitsValue_padded width m, same, digitsValue_padded]

/-- Numbers of one width in front of the same mark decide, and what follows them when they are
alike. -/
theorem padded_append_lt_iff (some : 0 < width) (isFirst : m < 10 ^ width)
    (isSecond : n < 10 ^ width) (mark : Char) {cs ds : List Char} :
    padded width m ++ mark :: cs < padded width n ++ mark :: ds ↔ m < n ∨ m = n ∧ cs < ds := by
  rw [append_lt_append_iff ((length_padded some isFirst).trans (length_padded some isSecond).symm),
    padded_lt_iff some isFirst isSecond, padded_inj, List.cons_lt_cons_iff]
  simp only [Char.lt_irrefl, false_or, true_and]

end PageTree.Date
