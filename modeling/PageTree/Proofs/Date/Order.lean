import PageTree.Proofs.Date.RoundTrip
import PageTree.Proofs.Text.Bytes

/-!
The order of dates and of their normal forms. Main statement: for years of up to four digits, not
both before the year 0, normal forms compare by their bytes as the moments do
(`normalize_lt_iff`). A sign comes before every digit, so beyond the year 9999 they do not.
-/

namespace PageTree.Date

open Number Text

namespace CivilDate.IsDay

variable {date other : CivilDate} (isDay : date.IsDay) (isOther : other.IsDay)

include isDay isOther

theorem toDays_lt_iff_parts : date.toDays < other.toDays ↔
    date.year < other.year ∨ date.year = other.year ∧
      (date.month < other.month ∨ date.month = other.month ∧ date.day < other.day) := by
  have first := isDay.month
  have second := isOther.month
  rw [isDay.toDays_lt_iff isOther]
  unfold months
  omega

theorem toDays_inj : date.toDays = other.toDays ↔
    date.year = other.year ∧ date.month = other.month ∧ date.day = other.day := by
  have before := isDay.toDays_lt_iff_parts isOther
  have after := isOther.toDays_lt_iff_parts isDay
  omega

end CivilDate.IsDay

namespace Moment

/-- Does an inserted second end a minute, as the ones of universal time do? -/
def IsProper (moment : Moment) : Prop :=
  moment.leap = true → moment.seconds % 60 = 59

/-- An inserted second is after the one that it is counted with. -/
def Before (moment other : Moment) : Prop :=
  moment.seconds < other.seconds ∨
    moment.seconds = other.seconds ∧ moment.leap = false ∧ other.leap = true

instance (moment other : Moment) : Decidable (moment.Before other) :=
  inferInstanceAs (Decidable (_ ∨ _))

variable {now moment other : Moment}

theorem seconds_emod (moment : Moment) : moment.seconds % 60 = moment.secondOfDay % 60 := by
  unfold secondOfDay secondsPerDay
  omega

theorem IsReading.isProper (reading : now.IsReading moment) (proper : now.IsProper) :
    moment.IsProper := by
  intro leap
  rcases reading.leap leap with final | ⟨now, same⟩
  · exact final
  · rw [seconds_emod, same, ← seconds_emod]
    exact proper now

theorem isProper_settled (moment : Moment) : moment.settled.IsProper := by
  unfold settled
  split
  · exact nofun
  · next proper => exact fun leap => by_contra fun inside => proper ⟨leap, inside⟩

theorem IsProper.settled_eq_self (proper : moment.IsProper) : moment.settled = moment :=
  if_neg fun inside => inside.2 (proper inside.1)

theorem IsProper.clock_eq (proper : moment.IsProper) : ∃ rest : Nat, rest ≤ 59 ∧
    (moment.leap = true → rest = 59) ∧
      moment.secondOfDay = 3600 * moment.hour + 60 * moment.minute + rest ∧
        moment.second = rest + if moment.leap then 1 else 0 := by
  have bounds := moment.secondOfDay_bounds
  refine ⟨moment.secondOfDay.toNat % 60, by omega, fun leap => ?_, ?_, rfl⟩
  · have ends := proper leap
    rw [seconds_emod] at ends
    omega
  · unfold hour minute
    omega

section

variable (isProper : moment.IsProper) (isOther : other.IsProper)

include isProper isOther

theorem clock_lt_iff :
    moment.secondOfDay < other.secondOfDay ∨
        moment.secondOfDay = other.secondOfDay ∧ moment.leap = false ∧ other.leap = true ↔
      moment.hour < other.hour ∨ moment.hour = other.hour ∧
        (moment.minute < other.minute ∨ moment.minute = other.minute ∧
          moment.second < other.second) := by
  have clock := moment.clock_bounds
  have otherClock := other.clock_bounds
  obtain ⟨rest, small, final, sum, second⟩ := isProper.clock_eq
  obtain ⟨otherRest, otherSmall, otherFinal, otherSum, otherSecond⟩ := isOther.clock_eq
  rw [second, otherSecond]
  cases leap : moment.leap <;> cases otherLeap : other.leap <;>
    simp [leap, otherLeap] at final otherFinal ⊢ <;> omega

theorem before_iff : moment.Before other ↔
    moment.date.toDays < other.date.toDays ∨ moment.date.toDays = other.date.toDays ∧
      (moment.hour < other.hour ∨ moment.hour = other.hour ∧
        (moment.minute < other.minute ∨ moment.minute = other.minute ∧
          moment.second < other.second)) := by
  have bounds := moment.secondOfDay_bounds
  have otherBounds := other.secondOfDay_bounds
  have sum := moment.toDays_date
  have otherSum := other.toDays_date
  unfold secondsPerDay at sum otherSum
  have less : moment.seconds < other.seconds ↔ moment.date.toDays < other.date.toDays ∨
      moment.date.toDays = other.date.toDays ∧ moment.secondOfDay < other.secondOfDay := by
    omega
  have same : moment.seconds = other.seconds ↔
      moment.date.toDays = other.date.toDays ∧ moment.secondOfDay = other.secondOfDay := by
    omega
  rw [← clock_lt_iff isProper isOther, Before, less, same]
  tauto

end

/-! ### Texts -/

/-- Every mark that stands for a sign comes before the digits. -/
theorem cons_lt_padded {mark : Char} (sign : mark.toNat < 48) {width : Nat} (some : 0 < width)
    (n : Nat) (cs ds : List Char) : mark :: cs < padded width n ++ ds := by
  obtain ⟨c, rest, digits, isDigit⟩ := exists_padded_eq_cons some n
  have bounds := digit_bounds isDigit
  rw [digits, List.cons_append, List.cons_lt_cons_iff]
  exact .inl (Nat.lt_of_lt_of_le sign bounds.1)

theorem yearText_append_lt_iff {year other : Int} (notAfter : year ≤ 9999)
    (otherNotAfter : other ≤ 9999) (oneNotBefore : 0 ≤ year ∨ 0 ≤ other) (cs ds : List Char) :
    yearText year ++ '-' :: cs < yearText other ++ '-' :: ds ↔
      year < other ∨ year = other ∧ cs < ds := by
  have plain {year : Int} (notBefore : ¬ year < 0) (notAfter : year ≤ 9999) :
      yearText year = padded 4 year.natAbs := by
    rw [yearText, if_neg notBefore, if_neg (by omega)]
  by_cases before : year < 0
  · have otherNotBefore : ¬ other < 0 := by omega
    refine iff_of_true ?_ (.inl (by omega))
    rw [plain otherNotBefore otherNotAfter, yearText, if_pos before]
    exact cons_lt_padded (by decide) (by decide) ..
  · by_cases otherBefore : other < 0
    · refine iff_of_false (List.lt_asymm ?_) (by omega)
      rw [plain before notAfter, yearText, if_pos otherBefore]
      exact cons_lt_padded (by decide) (by decide) ..
    · have less : year.natAbs < other.natAbs ↔ year < other := by omega
      have same : year.natAbs = other.natAbs ↔ year = other := by omega
      rw [plain before notAfter, plain otherBefore otherNotAfter,
        padded_append_lt_iff (by decide) (by omega) (by omega), less, same]

/-- What is written after the year and the dash. -/
def textInYear (moment : Moment) : List Char :=
  padded 2 moment.date.month ++ '-' :: (padded 2 moment.date.day ++ ' ' ::
    (padded 2 moment.hour ++ ':' :: (padded 2 moment.minute ++ ':' :: padded 2 moment.second)))

theorem toList_text_eq (moment : Moment) :
    moment.text.toList = yearText moment.date.year ++ '-' :: moment.textInYear :=
  moment.toList_text

theorem bytes_text_lt : bytes moment.text < bytes other.text ↔
    yearText moment.date.year ++ '-' :: moment.textInYear <
      yearText other.date.year ++ '-' :: other.textInYear := by
  rw [bytes_lt_iff, ← toList_text_eq, ← toList_text_eq]
  rfl

theorem textInYear_settled (moment : Moment) :
    moment.settled.textInYear = moment.textInYear := by
  have same := congrArg String.toList moment.text_settled
  rw [toList_text_eq, toList_text_eq, date_settled] at same
  exact (List.cons.inj (List.append_cancel_left same)).2

theorem textInYear_lt_iff : moment.textInYear < other.textInYear ↔
    moment.date.month < other.date.month ∨ moment.date.month = other.date.month ∧
      (moment.date.day < other.date.day ∨ moment.date.day = other.date.day ∧
        (moment.hour < other.hour ∨ moment.hour = other.hour ∧
          (moment.minute < other.minute ∨ moment.minute = other.minute ∧
            moment.second < other.second))) := by
  have date := moment.date_bounds
  have otherDate := other.date_bounds
  have clock := moment.clock_bounds
  have otherClock := other.clock_bounds
  unfold textInYear
  rw [padded_append_lt_iff Nat.two_pos date.1 otherDate.1,
    padded_append_lt_iff Nat.two_pos date.2 otherDate.2,
    padded_append_lt_iff Nat.two_pos (by omega) (by omega),
    padded_append_lt_iff Nat.two_pos (by omega) (by omega),
    padded_lt_iff Nat.two_pos (by omega) (by omega)]

theorem before_iff_textInYear (isProper : moment.IsProper) (isOther : other.IsProper) :
    moment.Before other ↔ moment.date.year < other.date.year ∨
      moment.date.year = other.date.year ∧ moment.textInYear < other.textInYear := by
  rw [before_iff isProper isOther, moment.isDay_date.toDays_lt_iff_parts other.isDay_date,
    moment.isDay_date.toDays_inj other.isDay_date, textInYear_lt_iff]
  tauto

theorem before_settled_iff : moment.settled.Before other.settled ↔
    moment.date.year < other.date.year ∨
      moment.date.year = other.date.year ∧ moment.textInYear < other.textInYear := by
  rw [before_iff_textInYear moment.isProper_settled other.isProper_settled, date_settled,
    date_settled, textInYear_settled, textInYear_settled]

theorem bytes_text_lt_iff (notAfter : moment.date.year ≤ 9999)
    (otherNotAfter : other.date.year ≤ 9999)
    (oneNotBefore : 0 ≤ moment.date.year ∨ 0 ≤ other.date.year) :
    bytes moment.text < bytes other.text ↔ moment.settled.Before other.settled := by
  rw [bytes_text_lt, before_settled_iff,
    yearText_append_lt_iff notAfter otherNotAfter oneNotBefore]

theorem bytes_text_lt_of_signed (after : 9999 < other.date.year)
    (notAfter : moment.date.year ≤ 9999) :
    moment.settled.Before other.settled ∧ bytes other.text < bytes moment.text := by
  refine ⟨before_settled_iff.2 (.inl (by omega)), ?_⟩
  rw [bytes_text_lt]
  unfold yearText
  rw [if_neg (by omega), if_pos after]
  split
  · rw [List.cons_append, List.cons_append, List.cons_lt_cons_iff]
    exact .inl (by decide)
  · rw [if_neg (by omega), List.cons_append]
    exact cons_lt_padded (by decide) (by decide) ..

theorem bytes_text_lt_of_bothBefore (later : moment.date.year < other.date.year)
    (before : other.date.year < 0) (notBefore : -9999 ≤ moment.date.year) :
    moment.settled.Before other.settled ∧ bytes other.text < bytes moment.text := by
  refine ⟨before_settled_iff.2 (.inl later), ?_⟩
  rw [bytes_text_lt, yearText, yearText, if_pos before, if_pos (by omega), List.cons_append,
    List.cons_append, List.cons_lt_cons_iff, padded_append_lt_iff (by decide) (by omega) (by omega)]
  exact .inr ⟨rfl, .inl (by omega)⟩

end Moment

/-- Normal forms of dates compare by their bytes as their moments do, for years of up to four digits
of which at most one is before the year 0. Two different years before it compare the other way, and
the years after 9999 come before all others. An inserted second that ends no minute counts as the
next second, as which it is written. -/
theorem normalize_lt_iff {now : Moment} (inside : now.InCalendar)
    {value other text otherText : String} (read : normalize now value = .ok (some text))
    (readOther : normalize now other = .ok (some otherText)) :
    ∃ first second : Moment,
      (readMoment now (trim value.toList) = .ok (some first) ∧ text = first.text) ∧
      (readMoment now (trim other.toList) = .ok (some second) ∧ otherText = second.text) ∧
      (now.IsProper → first.settled = first ∧ second.settled = second) ∧
      (first.date.year ≤ 9999 → second.date.year ≤ 9999 →
        0 ≤ first.date.year ∨ 0 ≤ second.date.year →
          (bytes text < bytes otherText ↔ first.settled.Before second.settled)) ∧
      (first.date.year < second.date.year → second.date.year < 0 → -9999 ≤ first.date.year →
        first.settled.Before second.settled ∧ bytes otherText < bytes text) ∧
      (9999 < second.date.year → first.date.year ≤ 9999 →
        first.settled.Before second.settled ∧ bytes otherText < bytes text) := by
  obtain ⟨first, isFirst, rfl, firstReading⟩ := exists_of_normalize inside read
  obtain ⟨second, isSecond, rfl, secondReading⟩ := exists_of_normalize inside readOther
  exact ⟨first, second, ⟨isFirst, rfl⟩, ⟨isSecond, rfl⟩,
    fun proper => ⟨(firstReading.isProper proper).settled_eq_self,
      (secondReading.isProper proper).settled_eq_self⟩,
    Moment.bytes_text_lt_iff, Moment.bytes_text_lt_of_bothBefore, Moment.bytes_text_lt_of_signed⟩

theorem normalize_lt_iff_new_year :
    bytes "2016-12-31 23:59:60" < bytes "2017-01-01 00:00:00" := by
  obtain ⟨first, second, ⟨isFirst, -⟩, ⟨isSecond, -⟩, same, order, -⟩ :=
    @normalize_lt_iff (.ofSeconds 0) (by decide) "2016-12-31T23:59:60Z" "1 January 2017"
      "2016-12-31 23:59:60" "2017-01-01 00:00:00" (by decide) (by decide)
  obtain ⟨sameFirst, sameSecond⟩ := same nofun
  rw [sameFirst, sameSecond] at order
  obtain rfl : (⟨1483228799, true⟩ : Moment) = first :=
    Option.some.inj (Except.ok.inj ((by decide : _ = _).trans isFirst))
  obtain rfl : (⟨1483228800, false⟩ : Moment) = second :=
    Option.some.inj (Except.ok.inj ((by decide : _ = _).trans isSecond))
  exact (order (by decide) (by decide) (by decide)).2 (by decide)

end PageTree.Date
