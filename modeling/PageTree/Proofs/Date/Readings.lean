import PageTree.Date.Reading
import PageTree.Proofs.Date.Calendar

/-!
The moments that dates are read as. Main statement: every reading lies in the calendar, and an
inserted second comes from one that is written or from now (`isReading_of_readMoment`).
-/

namespace PageTree.Date

open Number Text

namespace Moment

section

variable (moment : Moment)

theorem secondOfDay_bounds : 0 ≤ moment.secondOfDay ∧ moment.secondOfDay < 86400 := by
  unfold secondOfDay secondsPerDay
  omega

theorem isDay_date : moment.date.IsDay :=
  CivilDate.isDay_ofDays _

theorem toDays_date : moment.date.toDays * secondsPerDay + moment.secondOfDay = moment.seconds := by
  rw [date, CivilDate.toDays_ofDays, secondOfDay]
  exact Int.ediv_mul_add_emod ..

end

/-- A time of day on a date is in the calendar when the date is. -/
theorem inCalendar_iff_valid {moment : Moment} {date : CivilDate} {clock : Int}
    (isDay : date.IsDay) (bounds : 0 ≤ clock ∧ clock < 86400)
    (sum : moment.seconds = date.toDays * secondsPerDay + clock) :
    moment.InCalendar ↔ date.Valid := by
  rw [CivilDate.valid_iff_toDays isDay, InCalendar, firstSecond, lastSecond, sum]
  unfold secondsPerDay
  omega

theorem valid_date_iff (moment : Moment) : moment.date.Valid ↔ moment.InCalendar :=
  (inCalendar_iff_valid moment.isDay_date moment.secondOfDay_bounds moment.toDays_date.symm).symm

theorem check_eq_some_iff {moment other : Moment} :
    moment.check = some other ↔ moment = other ∧ moment.InCalendar := by
  unfold check
  split <;> simp [*]

/-- What a date is read as: a moment of the calendar, where an inserted second ends a minute, as it
is written there, or is the one of now. -/
structure IsReading (now moment : Moment) : Prop where
  inCalendar : moment.InCalendar
  leap : moment.leap = true →
    moment.seconds % 60 = 59 ∨ now.leap = true ∧ moment.secondOfDay = now.secondOfDay

variable {now moment : Moment}

namespace IsReading

theorem of_plain (inside : moment.InCalendar) (plain : moment.leap = false) :
    now.IsReading moment where
  inCalendar := inside
  leap := by simp [plain]

theorem refl (inside : now.InCalendar) : now.IsReading now where
  inCalendar := inside
  leap := fun leap => .inr ⟨leap, rfl⟩

end IsReading

theorem plusSeconds_eq (seconds : Int) :
    now.plusSeconds seconds = now ∨ (now.plusSeconds seconds).leap = false := by
  unfold plusSeconds
  split
  · exact .inl rfl
  · split <;> exact .inr rfl

theorem isReading_addSeconds? {seconds : Int} (added : now.addSeconds? seconds = some moment) :
    now.IsReading moment := by
  obtain ⟨rfl, inside⟩ := check_eq_some_iff.1 added
  rcases now.plusSeconds_eq seconds with same | plain
  · rw [same] at inside ⊢
    exact .refl inside
  · exact .of_plain inside plain

theorem isReading_addMonths? {months : Int} (added : now.addMonths? months = some moment) :
    now.IsReading moment := by
  unfold addMonths? at added
  dsimp only at added
  split at added
  · next valid =>
    obtain rfl := Option.some.inj added
    have bounds := now.secondOfDay_bounds
    refine ⟨(inCalendar_iff_valid (CivilDate.isDay_of_valid valid) bounds rfl).2 valid,
      fun leap => .inr ⟨leap, ?_⟩⟩
    rw [secondOfDay, Int.mul_add_emod_self_right]
    exact Int.emod_eq_of_lt bounds.1 bounds.2
  · cases added

theorem isReading_shift? {amount : Int} {unit : TimeUnit}
    (shifted : now.shift? amount unit = some moment) : now.IsReading moment := by
  cases unit with
  | seconds count =>
      obtain ⟨seconds, -, added⟩ := Option.bind_eq_some_iff.1 shifted
      split at added
      · exact isReading_addSeconds? added
      · cases added
  | months count =>
      obtain ⟨months, -, added⟩ := Option.bind_eq_some_iff.1 shifted
      split at added
      · exact isReading_addMonths? added
      · cases added

theorem isReading_startOfDay (inside : moment.InCalendar) : now.IsReading moment.startOfDay := by
  refine .of_plain ?_ rfl
  have whole : firstSecond % 86400 = 0 := by decide
  obtain ⟨notBefore, notAfter⟩ := inside
  unfold InCalendar startOfDay ofSeconds secondOfDay secondsPerDay
  dsimp only
  omega

theorem isReading_otherDay {seconds : Int} (read : now.otherDay seconds = .ok moment) :
    now.IsReading moment := by
  unfold otherDay at read
  split at read
  · next other added =>
    obtain rfl := Except.ok.inj read
    exact isReading_startOfDay (isReading_addSeconds? added).inCalendar
  · cases read

/-- An offset is a number of minutes, so an inserted second still ends a minute. -/
theorem isReading_moment? {parts : Parts} {offset : Int} (minutes : offset % 60 = 0)
    (read : parts.moment? offset = some moment) : now.IsReading moment := by
  unfold Parts.moment? at read
  split at read
  · obtain ⟨rfl, inside⟩ := check_eq_some_iff.1 read
    refine ⟨inside, fun leap => .inl ?_⟩
    have inserted : parts.second = 60 := of_decide_eq_true leap
    dsimp only
    unfold secondsPerDay
    omega
  · cases read

end Moment

section

variable {now moment : Moment} {cs : List Char}

theorem isReading_readForms? (read : readForms? cs = some moment) : now.IsReading moment := by
  obtain ⟨form, -, read⟩ := List.exists_of_findSome?_eq_some read
  obtain ⟨parts, -, read⟩ := Option.bind_eq_some_iff.1 read
  exact Moment.isReading_moment? (Int.zero_emod 60) read

theorem readOffset?_emod {offset : Int} {rest : List Char}
    (read : readOffset? cs = some (offset, rest)) : offset % 60 = 0 := by
  unfold readOffset? at read
  split at read
  · cases read
  · split at read
    · cases read
      rfl
    · split at read
      · simp only [Option.bind_eq_bind, Option.bind_eq_some_iff] at read
        obtain ⟨⟨hours, afterHours⟩, -, afterMark, -, ⟨minutes, afterMinutes⟩, -, read⟩ := read
        split at read
        · cases read
        · cases read
          split <;> omega
      · cases read

theorem isReading_readTimestamp? (read : readTimestamp? cs = some moment) :
    now.IsReading moment := by
  simp only [readTimestamp?, Option.bind_eq_bind, Option.bind_eq_some_iff, Prod.exists] at read
  obtain ⟨year, _, -, _, -, month, _, -, _, -, day, _, -, _, -, hour, _, -, _, -, minute, _, -, _,
    -, second, _, -, _, -, offset, rest, isOffset, read⟩ := read
  split at read
  · exact Moment.isReading_moment? (readOffset?_emod isOffset) read
  · cases read

theorem readTimestamp?_eq_none {c : Char} (noDigit : c.isDigit = false) :
    readTimestamp? (c :: cs) = none := by
  have noYear : readDigits? 4 (c :: cs) = none := by simp [readDigits?, isDigits, noDigit]
  rw [readTimestamp?, noYear]
  rfl

variable (inside : now.InCalendar)

include inside

theorem isReading_readKeyword? (read : readKeyword? now cs = some (.ok moment)) :
    now.IsReading moment := by
  unfold readKeyword? at read
  split at read
  · cases read
    exact .refl inside
  · cases read
    exact Moment.isReading_startOfDay inside
  · exact Moment.isReading_otherDay (Option.some.inj read)
  · exact Moment.isReading_otherDay (Option.some.inj read)
  · cases read

theorem isReading_of_readMoment (read : readMoment now cs = .ok (some moment)) :
    now.IsReading moment := by
  unfold readMoment at read
  split at read
  · have read := Except.ok.inj read
    obtain ⟨seconds, -, read⟩ := Option.bind_eq_some_iff.1 read
    obtain ⟨rfl, inCalendar⟩ := Moment.check_eq_some_iff.1 read
    exact .of_plain inCalendar rfl
  · split at read
    · next written => cases read; exact isReading_readTimestamp? written
    · split at read
      · next written => cases read; exact isReading_readForms? written
      · split at read
        · next keyword isKeyword =>
          cases keyword with
          | ok other =>
              cases read
              exact isReading_readKeyword? inside isKeyword
          | error overflow => cases read
        · split at read
          · next span isSpan =>
            cases signed : span.signedAmount with
            | ok amount =>
                rw [signed] at read
                exact Moment.isReading_shift? (Except.ok.inj read)
            | error overflow =>
                rw [signed] at read
                cases read
          · cases read

theorem exists_of_normalize {value text : String} (read : normalize now value = .ok (some text)) :
    ∃ moment, readMoment now (trim value.toList) = .ok (some moment) ∧ text = moment.text ∧
      now.IsReading moment := by
  unfold normalize at read
  cases found : readMoment now (trim value.toList) with
  | error overflow =>
      rw [found] at read
      cases read
  | ok moment =>
      rw [found] at read
      cases moment with
      | none => cases read
      | some moment =>
          have text := (Option.some.inj (Except.ok.inj read)).symm
          exact ⟨moment, rfl, text, isReading_of_readMoment inside found⟩

end

end PageTree.Date
