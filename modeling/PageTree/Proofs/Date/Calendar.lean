import Mathlib.Algebra.Order.Group.Int
import Mathlib.Order.SuccPred.IntervalSucc
import Mathlib.Tactic.IntervalCases
import PageTree.Date.Calendar

/-!
Dates and numbers of days. Main statements: every number of days is the number of a date that the
calendar has (`toDays_ofDays`, `isDay_ofDays`), and dates follow each other as their years, months
and days do (`toDays_lt_iff`).
-/

namespace PageTree.Date

/-- Days from 1 March of the year 0 to 1 March of a year. -/
def daysToMarch (year : Int) : Int :=
  365 * year + year / 4 - year / 100 + year / 400

theorem daysToMarch_succ (year : Int) :
    daysToMarch (year + 1) = daysToMarch year + if isLeapYear (year + 1) then 366 else 365 := by
  unfold daysToMarch isLeapYear
  simp only [Bool.and_eq_true, Bool.or_eq_true, decide_eq_true_eq, ne_eq]
  split <;> omega

theorem daysInMonth_bounds (year : Int) {month : Nat} (first : 1 ≤ month) (last : month ≤ 12) :
    28 ≤ daysInMonth year month ∧ daysInMonth year month ≤ 31 := by
  interval_cases month <;> simp only [daysInMonth] <;> first | decide | split <;> decide

namespace CivilDate

theorem toDays_eq (year : Int) (month day : Nat) :
    toDays ⟨year, month, day⟩ =
      (if 2 < month then daysToMarch year + (153 * ((month : Int) - 3) + 2) / 5
      else daysToMarch (year - 1) + (153 * (month + 9) + 2) / 5) + day - 719469 := by
  unfold toDays daysToMarch
  dsimp only
  split <;> split <;> omega

theorem toDays_add_days (year : Int) (month day more : Nat) :
    toDays ⟨year, month, day + more⟩ = toDays ⟨year, month, day⟩ + more := by
  rw [toDays_eq, toDays_eq]
  omega

/-! ### Months -/

theorem toDays_nextMonth (year : Int) {month : Nat} (first : 1 ≤ month) (last : month ≤ 11) :
    toDays ⟨year, month + 1, 1⟩ = toDays ⟨year, month, 1⟩ + daysInMonth year month := by
  have leap := daysToMarch_succ (year - 1)
  rw [Int.sub_add_cancel] at leap
  rw [toDays_eq, toDays_eq]
  interval_cases month
  case «2» =>
    -- Only February asks whether the year is a leap year.
    simp only [daysInMonth]
    split at leap <;> simp [*] <;> omega
  all_goals simp [daysInMonth]; try omega

theorem toDays_nextYear (year : Int) :
    toDays ⟨year + 1, 1, 1⟩ = toDays ⟨year, 12, 1⟩ + daysInMonth year 12 := by
  rw [toDays_eq, toDays_eq, daysInMonth, Int.add_sub_cancel]
  simp
  omega

/-- The first day of a month, with months counted from January of the year 0. -/
def firstDay (months : Int) : Int :=
  toDays ⟨months / 12, (months % 12).toNat + 1, 1⟩

theorem firstDay_succ (months : Int) : firstDay (months + 1) =
    firstDay months + daysInMonth (months / 12) ((months % 12).toNat + 1) := by
  obtain ⟨month, isMonth⟩ :=
    Int.eq_ofNat_of_zero_le (Int.emod_nonneg months (by decide : (12 : Int) ≠ 0))
  rw [firstDay, firstDay, isMonth, Int.toNat_natCast]
  by_cases last : month = 11
  · have next : (months + 1) / 12 = months / 12 + 1 ∧ (months + 1) % 12 = 0 := by omega
    rw [next.1, next.2, last]
    exact toDays_nextYear _
  · have next : (months + 1) / 12 = months / 12 ∧ (months + 1) % 12 = (month + 1 : Nat) := by omega
    rw [next.1, next.2, Int.toNat_natCast]
    exact toDays_nextMonth _ (by omega) (by omega)

theorem firstDay_le {months other : Int} (notAfter : months ≤ other) :
    firstDay months ≤ firstDay other := by
  refine monotone_int_of_le_succ (fun months => ?_) notAfter
  rw [firstDay_succ]
  omega

/-! ### Dates of the calendar -/

/-- Is there such a day in that month of the year? -/
structure IsDay (date : CivilDate) : Prop where
  month : 1 ≤ date.month ∧ date.month ≤ 12
  day : 1 ≤ date.day ∧ date.day ≤ daysInMonth date.year date.month

theorem isDay_of_valid {date : CivilDate} (valid : date.Valid) : date.IsDay := by
  obtain ⟨-, -, first, last⟩ := valid
  refine ⟨?_, first, last⟩
  have some : daysInMonth date.year date.month ≠ 0 := by omega
  unfold daysInMonth at some
  split at some <;> simp_all

theorem valid_iff {date : CivilDate} :
    date.Valid ↔ firstYear ≤ date.year ∧ date.year ≤ lastYear ∧ date.IsDay :=
  ⟨fun valid => ⟨valid.1, valid.2.1, isDay_of_valid valid⟩,
    fun ⟨first, last, isDay⟩ => ⟨first, last, isDay.day⟩⟩

/-- Months from January of the year 0 to the month of the date. -/
def months (date : CivilDate) : Int :=
  date.year * 12 + ((date.month : Int) - 1)

namespace IsDay

variable {date other : CivilDate} (isDay : date.IsDay) (isOther : other.IsDay)

include isDay

theorem months_div : date.months / 12 = date.year := by
  have month := isDay.month
  unfold months
  omega

theorem months_mod : (date.months % 12).toNat + 1 = date.month := by
  have month := isDay.month
  unfold months
  omega

theorem toDays_eq_firstDay : date.toDays = firstDay date.months + (date.day - 1 : Nat) := by
  have day := isDay.day
  have sum : 1 + (date.day - 1) = date.day := by omega
  rw [firstDay, isDay.months_div, isDay.months_mod, ← toDays_add_days, sum]

theorem toDays_lt : date.toDays < firstDay (date.months + 1) := by
  have day := isDay.day
  rw [firstDay_succ, isDay.toDays_eq_firstDay, isDay.months_div, isDay.months_mod]
  omega

include isOther

theorem toDays_lt_iff : date.toDays < other.toDays ↔
    date.months < other.months ∨ date.months = other.months ∧ date.day < other.day := by
  have later {one two : CivilDate} (isOne : one.IsDay) (isTwo : two.IsDay)
      (less : one.months < two.months) : one.toDays < two.toDays := by
    have next := firstDay_le (Int.add_one_le_of_lt less)
    have first := isOne.toDays_lt
    rw [isTwo.toDays_eq_firstDay]
    omega
  rcases Int.lt_trichotomy date.months other.months with less | same | greater
  · exact iff_of_true (later isDay isOther less) (.inl less)
  · have first := isDay.day
    have second := isOther.day
    rw [isDay.toDays_eq_firstDay, isOther.toDays_eq_firstDay, same]
    omega
  · have less := later isOther isDay greater
    omega

theorem months_lt_iff : date.months < other.months ↔
    date.year < other.year ∨ date.year = other.year ∧ date.month < other.month := by
  have first := isDay.month
  have second := isOther.month
  unfold months
  omega

end IsDay

theorem valid_iff_toDays {date : CivilDate} (isDay : date.IsDay) :
    date.Valid ↔ toDays ⟨firstYear, 1, 1⟩ ≤ date.toDays ∧
      date.toDays ≤ toDays ⟨lastYear, 12, 31⟩ := by
  have isFirst : IsDay ⟨firstYear, 1, 1⟩ := isDay_of_valid (by decide)
  have isLast : IsDay ⟨lastYear, 12, 31⟩ := isDay_of_valid (by decide)
  have month := isDay.month
  have day := isDay.day
  have short := daysInMonth_bounds date.year month.1 month.2
  rw [← Int.not_lt, ← Int.not_lt, isDay.toDays_lt_iff isFirst, isLast.toDays_lt_iff isDay,
    isDay.months_lt_iff isFirst, isLast.months_lt_iff isDay, valid_iff]
  unfold months
  dsimp only
  constructor
  · rintro ⟨first, last, -⟩
    omega
  · intro inside
    exact ⟨by omega, by omega, isDay⟩

/-! ### Numbers of days -/

/-- Every day of an era lies in one of its centuries, there in one of the runs of four years, and
there in one of the years. Only the last year of a run has 366 days, and not the last of a century
other than the fourth. -/
theorem exists_yearOfEra {dayOfEra : Int} (first : 0 ≤ dayOfEra) (last : dayOfEra < 146097) :
    ∃ century run year dayOfYear : Int, (0 ≤ century ∧ century ≤ 3) ∧ (0 ≤ run ∧ run ≤ 24) ∧
      (0 ≤ year ∧ year ≤ 3) ∧
      (0 ≤ dayOfYear ∧ dayOfYear ≤ 364 ∨
        dayOfYear = 365 ∧ year = 3 ∧ (run ≤ 23 ∨ century = 3)) ∧
      dayOfEra = 36524 * century + 1461 * run + 365 * year + dayOfYear := by
  let century := min (dayOfEra / 36524) 3
  let run := (dayOfEra - 36524 * century) / 1461
  let year := min ((dayOfEra - 36524 * century - 1461 * run) / 365) 3
  refine ⟨century, run, year,
    dayOfEra - 36524 * century - 1461 * run - 365 * year, ?_⟩
  omega

theorem yearOfEra_eq {century run year dayOfYear dayOfEra : Int}
    (isCentury : 0 ≤ century ∧ century ≤ 3) (isRun : 0 ≤ run ∧ run ≤ 24)
    (isYear : 0 ≤ year ∧ year ≤ 3)
    (isDay : 0 ≤ dayOfYear ∧ dayOfYear ≤ 364 ∨
      dayOfYear = 365 ∧ year = 3 ∧ (run ≤ 23 ∨ century = 3))
    (sum : dayOfEra = 36524 * century + 1461 * run + 365 * year + dayOfYear) :
    (dayOfEra - dayOfEra / 1460 + dayOfEra / 36524 - dayOfEra / 146096) / 365 =
      100 * century + 4 * run + year := by
  have final : dayOfEra / 146096 = 0 ∧ dayOfEra < 146096 ∨
      dayOfEra / 146096 = 1 ∧ century = 3 ∧ run = 24 ∧ year = 3 ∧ dayOfYear = 365 := by omega
  have centuries : dayOfEra / 36524 = century + dayOfEra / 146096 := by omega
  have leaps : dayOfEra / 1460 = 25 * century + run ∧
        24 * century + run + 365 * year + dayOfYear < 1460 ∨
      dayOfEra / 1460 = 25 * century + run + 1 ∧
        1460 ≤ 24 * century + run + 365 * year + dayOfYear := by omega
  omega

/-- The date of a day in a year that begins in March. -/
def ofMarch (year dayOfYear : Int) : CivilDate :=
  let march := (5 * dayOfYear + 2) / 153
  let month := if march < 10 then march + 3 else march - 9
  { year := year + (if month ≤ 2 then 1 else 0)
    month := month.toNat
    day := (dayOfYear - (153 * march + 2) / 5 + 1).toNat }

theorem exists_ofDays_eq (days : Int) : ∃ year dayOfYear : Int,
    ofDays days = ofMarch year dayOfYear ∧ days + 719468 = daysToMarch year + dayOfYear ∧
      0 ≤ dayOfYear ∧ dayOfYear ≤ (if isLeapYear (year + 1) then 365 else 364) := by
  obtain ⟨era, dayOfEra, split, first, last⟩ : ∃ era dayOfEra : Int,
      days + 719468 = era * 146097 + dayOfEra ∧ 0 ≤ dayOfEra ∧ dayOfEra < 146097 :=
    ⟨(days + 719468) / 146097, (days + 719468) % 146097, by omega⟩
  obtain ⟨century, run, year, dayOfYear, isCentury, isRun, isYear, isDay, sum⟩ :=
    exists_yearOfEra first last
  have isEra : (days + 719468) / 146097 = era := by omega
  have rest : days + 719468 - era * 146097 = dayOfEra := by omega
  have isDayOfYear : dayOfEra - (365 * (100 * century + 4 * run + year) +
      (100 * century + 4 * run + year) / 4 - (100 * century + 4 * run + year) / 100) =
        dayOfYear := by
    have quarters : (100 * century + 4 * run + year) / 4 = 25 * century + run := by omega
    have centuries : (100 * century + 4 * run + year) / 100 = century := by omega
    omega
  refine ⟨100 * century + 4 * run + year + era * 400, dayOfYear, ?_, ?_, ?_, ?_⟩
  · unfold ofDays ofMarch
    dsimp only
    rw [isEra, rest, yearOfEra_eq isCentury isRun isYear isDay sum, isDayOfYear]
  · have quarters : (100 * century + 4 * run + year + era * 400) / 4 =
        25 * century + run + 100 * era := by omega
    have centuries : (100 * century + 4 * run + year + era * 400) / 100 = century + 4 * era := by
      omega
    have eras : (100 * century + 4 * run + year + era * 400) / 400 = era := by omega
    rw [daysToMarch, quarters, centuries, eras]
    omega
  · omega
  · rcases isDay with ⟨-, short⟩ | ⟨long, rfl, leap⟩
    · split <;> omega
    · rw [if_pos]
      · omega
      · unfold isLeapYear
        simp only [Bool.and_eq_true, Bool.or_eq_true, decide_eq_true_eq, ne_eq]
        refine ⟨by omega, ?_⟩
        by_cases final : run = 24
        · exact .inr (by omega)
        · exact .inl (by omega)

section

variable {year dayOfYear : Int} (first : 0 ≤ dayOfYear)
  (last : dayOfYear ≤ (if isLeapYear (year + 1) then 365 else 364))

include first last

theorem exists_march : ∃ march : Nat, march ≤ 11 ∧ (5 * dayOfYear + 2) / 153 = march := by
  have bound : dayOfYear ≤ 365 := by split at last <;> omega
  exact ⟨((5 * dayOfYear + 2) / 153).toNat, by omega⟩

theorem isDay_ofMarch : (ofMarch year dayOfYear).IsDay := by
  obtain ⟨march, bound, isMarch⟩ := exists_march first last
  have below : 153 * (march : Int) ≤ 5 * dayOfYear + 2 := by omega
  have above : 5 * dayOfYear + 2 < 153 * (march + 1) := by omega
  unfold ofMarch
  dsimp only
  rw [isMarch]
  interval_cases march
  case «11» =>
    -- February, which ends with the year.
    refine ⟨by simp, ?_⟩
    split at last
    · simp [daysInMonth, *]
      omega
    · simp [daysInMonth, *]
      omega
  all_goals exact ⟨by simp, by simp [daysInMonth]; omega⟩

theorem toDays_ofMarch :
    (ofMarch year dayOfYear).toDays + 719468 = daysToMarch year + dayOfYear := by
  obtain ⟨march, bound, isMarch⟩ := exists_march first last
  have below : 153 * (march : Int) ≤ 5 * dayOfYear + 2 := by omega
  unfold ofMarch
  dsimp only
  rw [isMarch, toDays_eq]
  interval_cases march <;> simp <;> omega

end

theorem isDay_ofDays (days : Int) : (ofDays days).IsDay := by
  obtain ⟨year, dayOfYear, isDate, -, first, last⟩ := exists_ofDays_eq days
  rw [isDate]
  exact isDay_ofMarch first last

theorem toDays_ofDays (days : Int) : (ofDays days).toDays = days := by
  obtain ⟨year, dayOfYear, isDate, sum, first, last⟩ := exists_ofDays_eq days
  have same := toDays_ofMarch first last
  rw [isDate]
  omega

end CivilDate

end PageTree.Date
