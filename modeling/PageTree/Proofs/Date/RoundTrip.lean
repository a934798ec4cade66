import PageTree.Proofs.Date.Digits
import PageTree.Proofs.Date.Readings

/-!
Reading the normal form of a date. Main statement: a normal form is read as the moment that it was
written for, whatever the time is now, so it is its own normal form.
-/

namespace PageTree.Date

open Number Text

namespace Moment

variable (moment : Moment)

/-! ### The time of day -/

def hour : Nat :=
  moment.secondOfDay.toNat / 3600

def minute : Nat :=
  moment.secondOfDay.toNat / 60 % 60

/-- The second that is written, the sixtieth for an inserted one at the end of a minute. -/
def second : Nat :=
  moment.secondOfDay.toNat % 60 + (if moment.leap then 1 else 0)

theorem clock_bounds : moment.hour ≤ 23 ∧ moment.minute ≤ 59 ∧ moment.second ≤ 60 := by
  have bounds := moment.secondOfDay_bounds
  unfold hour minute second
  split <;> omega

theorem toList_text : moment.text.toList =
    yearText moment.date.year ++ '-' :: (padded 2 moment.date.month ++ '-' ::
      (padded 2 moment.date.day ++ ' ' :: (padded 2 moment.hour ++ ':' ::
        (padded 2 moment.minute ++ ':' :: padded 2 moment.second)))) := by
  simp [text, hour, minute, second]

end Moment

/-! ### Reading the parts -/

theorem trimStart_of_isDigit {c : Char} (digit : c.isDigit = true) (cs : List Char) :
    trimStart (c :: cs) = c :: cs :=
  trimStart_eq ⟨c, rfl, isBlank_of_isDigit digit⟩

theorem readYear?_yearText (year : Int) (rest : List Char) :
    readYear? (yearText year ++ '-' :: rest) = some (year, '-' :: rest) := by
  have ends : ∀ c ∈ ('-' :: rest).head?, c.isDigit = false := by simp
  unfold yearText
  split
  · next negative =>
    have read := @readNumber?_length_padded 4 year.natAbs (by decide) _ ends
    rw [List.cons_append, readYear?, trimStart_eq ⟨'-', rfl, by decide⟩]
    simp only [read, Option.map_some]
    congr
    omega
  · split
    · next large =>
      have read := @readNumber?_length_padded 4 year.natAbs (by decide) _ ends
      rw [List.cons_append, readYear?, trimStart_eq ⟨'+', rfl, by decide⟩]
      simp only [read, Option.map_some]
      congr
      omega
    · have small : year.natAbs < 10 ^ 4 := by omega
      have read := readNumber?_padded (by decide : 0 < 4) small ('-' :: rest)
      obtain ⟨c, cs, spelled, digit⟩ := exists_padded_eq_cons (by decide : 0 < 4) year.natAbs
      rw [spelled, List.cons_append] at read ⊢
      rw [readYear?, trimStart_of_isDigit digit]
      split
      · next same => cases same; cases digit
      · next same => cases same; cases digit
      · rw [read, Option.map_some]
        congr
        omega

section

variable {parts : Parts} {pieces : List Piece} {rest : List Char} {n : Nat}

theorem readForm?_year (year : Int) :
    readForm? parts (.year :: pieces) (yearText year ++ '-' :: rest) =
      readForm? { parts with year } pieces ('-' :: rest) := by
  rw [readForm?, readPiece?, readYear?_yearText]
  rfl

theorem readForm?_mark (c : Char) :
    readForm? parts (.mark c :: pieces) (c :: rest) = readForm? parts pieces rest := by
  simp [readForm?, readPiece?]

theorem readForm?_blanks :
    readForm? parts (.blanks :: pieces) (' ' :: (padded 2 n ++ rest)) =
      readForm? parts pieces (padded 2 n ++ rest) := by
  obtain ⟨c, cs, spelled, digit⟩ := exists_padded_eq_cons Nat.two_pos n
  have blank : trimStart (' ' :: (c :: cs ++ rest)) = trimStart (c :: cs ++ rest) :=
    List.dropWhile_cons_of_pos (by decide)
  rw [readForm?, readPiece?, spelled, blank, List.cons_append, trimStart_of_isDigit digit]

/-- The parts with one of two digits filled in. -/
def Parts.fill (parts : Parts) (n : Nat) : Piece → Parts
  | .month => { parts with month := n }
  | .day => { parts with day := n }
  | .hour => { parts with hour := n }
  | .minute => { parts with minute := n }
  | .second => { parts with second := n }
  | _ => parts

theorem readForm?_number (piece : Piece)
    (isNumber : piece ∈ [Piece.month, .day, .hour, .minute, .second]) (small : n < 100) :
    readForm? parts (piece :: pieces) (padded 2 n ++ rest) =
      readForm? (parts.fill n piece) pieces rest := by
  have read : readPiece? parts (padded 2 n ++ rest) piece =
      (readPart? (padded 2 n ++ rest)).map fun r => (parts.fill r.1 piece, r.2) := by
    simp only [List.mem_cons, List.not_mem_nil, or_false] at isNumber
    rcases isNumber with rfl | rfl | rfl | rfl | rfl <;> rfl
  rw [readForm?, read, readPart?_padded small]
  rfl

end

namespace Moment

variable (moment : Moment)

def parts : Parts :=
  { year := moment.date.year, month := moment.date.month, day := moment.date.day
    hour := moment.hour, minute := moment.minute, second := moment.second }

theorem date_bounds : moment.date.month < 100 ∧ moment.date.day < 100 := by
  have month := moment.isDay_date.month
  have day := moment.isDay_date.day
  have short := daysInMonth_bounds moment.date.year month.1 month.2
  omega

theorem readForm?_text :
    readForm? {} (dashedDate ++ .blanks :: fullTime) moment.text.toList = some moment.parts := by
  have date := moment.date_bounds
  have clock := moment.clock_bounds
  have last := @readForm?_number moment.parts [] [] moment.second .second (by decide) (by omega)
  rw [List.append_nil] at last
  calc readForm? {} (dashedDate ++ .blanks :: fullTime) moment.text.toList
      = readForm? { year := moment.date.year } (.month :: .mark '-' :: .day :: .blanks :: fullTime)
          (padded 2 moment.date.month ++ '-' :: (padded 2 moment.date.day ++ ' ' ::
            (padded 2 moment.hour ++ ':' :: (padded 2 moment.minute ++ ':' ::
              padded 2 moment.second)))) := by
        rw [toList_text]
        exact (readForm?_year _).trans (readForm?_mark '-')
    _ = readForm? { year := moment.date.year, month := moment.date.month, day := moment.date.day }
          fullTime (padded 2 moment.hour ++ ':' :: (padded 2 moment.minute ++ ':' ::
            padded 2 moment.second)) := by
        rw [readForm?_number .month (by decide) date.1, readForm?_mark,
          readForm?_number .day (by decide) date.2, readForm?_blanks]
        rfl
    _ = readForm? moment.parts [.second] (padded 2 moment.second) := by
        rw [fullTime, shortTime, List.cons_append, List.cons_append, List.cons_append,
          readForm?_number .hour (by decide) (by omega), readForm?_mark,
          readForm?_number .minute (by decide) (by omega), List.nil_append, readForm?_mark]
        rfl
    _ = some moment.parts := last

/-- The moment that the text shows: an inserted second inside a minute shows as the next one. -/
def settled : Moment :=
  if moment.leap ∧ moment.seconds % 60 ≠ 59 then .ofSeconds (moment.seconds + 1) else moment

theorem date_settled : moment.settled.date = moment.date := by
  unfold settled
  split
  · change CivilDate.ofDays ((moment.seconds + 1) / 86400) = .ofDays (moment.seconds / 86400)
    congr 1
    omega
  · rfl

theorem text_settled : moment.settled.text = moment.text := by
  have sameDate := moment.date_settled
  unfold settled at sameDate ⊢
  split
  · next inside =>
    obtain ⟨leap, within⟩ := inside
    rw [if_pos ⟨leap, within⟩] at sameDate
    have next : (ofSeconds (moment.seconds + 1)).secondOfDay = moment.secondOfDay + 1 := by
      change (moment.seconds + 1) % 86400 = moment.seconds % 86400 + 1
      omega
    have sameMinute : (moment.secondOfDay + 1).toNat / 60 = moment.secondOfDay.toNat / 60 ∧
        (moment.secondOfDay + 1).toNat % 60 = moment.secondOfDay.toNat % 60 + 1 := by
      unfold secondOfDay secondsPerDay
      omega
    have sameHour : (moment.secondOfDay + 1).toNat / 3600 = moment.secondOfDay.toNat / 3600 := by
      omega
    have plain : (ofSeconds (moment.seconds + 1)).leap = false := rfl
    rw [text, text, sameDate, next, sameHour, sameMinute.1, sameMinute.2, leap, plain]
    rfl
  · rfl

theorem settled_eq : moment.settled =
    { seconds := moment.date.toDays * secondsPerDay +
        (moment.hour * 3600 + moment.minute * 60 + min moment.second 59 : Nat)
      leap := moment.second = 60 } := by
  have bounds := moment.secondOfDay_bounds
  have days := moment.toDays_date
  have sameSecond : moment.seconds % 60 = moment.secondOfDay % 60 := by
    unfold secondOfDay secondsPerDay
    omega
  rw [settled, Moment.mk.injEq]
  unfold hour minute second
  cases leap : moment.leap with
  | false =>
      simp [leap]
      omega
  | true =>
      by_cases final : moment.seconds % 60 = 59
      · simp [leap, final]
        omega
      · simp [final, ofSeconds]
        omega

variable {moment}

theorem inCalendar_settled (inside : moment.InCalendar) : moment.settled.InCalendar := by
  have last : lastSecond % 60 = 59 := by decide
  obtain ⟨notBefore, notAfter⟩ := inside
  unfold settled
  split
  · constructor
    · exact Int.le_add_one notBefore
    · change moment.seconds + 1 ≤ lastSecond
      omega
  · exact ⟨notBefore, notAfter⟩

theorem moment?_parts (inside : moment.InCalendar) :
    moment.parts.moment? 0 = some moment.settled := by
  have valid : moment.parts.date.Valid := moment.valid_date_iff.2 inside
  rw [Parts.moment?, if_pos ⟨valid, moment.clock_bounds⟩]
  change Moment.check
    { seconds := moment.date.toDays * secondsPerDay +
        (moment.hour * 3600 + moment.minute * 60 + min moment.second 59 : Nat) - 0
      leap := moment.second = 60 } = _
  rw [Int.sub_zero]
  rw [← settled_eq, check, if_pos (inCalendar_settled inside)]

/-! ### No earlier reading -/

variable (moment)

/-- The text begins with the sign of a year, or with the four digits of one and a dash. -/
theorem text_cases :
    (∃ c rest, moment.text.toList = c :: rest ∧ c.isDigit = false ∧ isBlank c = false) ∨
      moment.date.year.natAbs < 10 ^ 4 ∧ moment.text.toList =
        padded 4 moment.date.year.natAbs ++ '-' :: (padded 2 moment.date.month ++ '-' ::
          (padded 2 moment.date.day ++ ' ' :: (padded 2 moment.hour ++ ':' ::
            (padded 2 moment.minute ++ ':' :: padded 2 moment.second)))) := by
  rw [toList_text]
  unfold yearText
  split
  · exact .inl ⟨'-', _, rfl, by decide, by decide⟩
  · split
    · exact .inl ⟨'+', _, rfl, by decide, by decide⟩
    · exact .inr ⟨by omega, rfl⟩

theorem isDigits_text : isDigits moment.text.toList = false := by
  have dash : '-' ∈ moment.text.toList := by
    rw [toList_text]
    simp
  rw [isDigits, List.all_eq_false.2 ⟨'-', dash, by decide⟩, Bool.and_false]

theorem readTimestamp?_text : readTimestamp? moment.text.toList = none := by
  rcases moment.text_cases with ⟨c, rest, spelled, sign, -⟩ | ⟨small, spelled⟩
  · rw [spelled]
    exact readTimestamp?_eq_none sign
  · have date := moment.date_bounds
    have clock := moment.clock_bounds
    have read {width n : Nat} (some : 0 < width) (small : n < 10 ^ width) (rest : List Char)
        (next : Nat × List Char → Option Moment) :
        (readDigits? width (padded width n ++ rest) >>= next) = next (n, rest) := by
      rw [readDigits?_padded some small]
      rfl
    have skip {accepted : List Char} {c : Char} (isMark : accepted.contains c = true)
        (rest : List Char) (next : List Char → Option Moment) :
        (skipChar? accepted (c :: rest) >>= next) = next rest := by
      rw [skipChar?, if_pos isMark]
      rfl
    have last := read Nat.two_pos (show moment.second < 10 ^ 2 by omega) []
    rw [List.append_nil] at last
    rw [spelled, readTimestamp?]
    apply (read (by decide) small _ _).trans
    apply (skip (by decide) _ _).trans
    apply (read Nat.two_pos date.1 _ _).trans
    apply (skip (by decide) _ _).trans
    apply (read Nat.two_pos date.2 _ _).trans
    apply (skip (by decide) _ _).trans
    apply (read Nat.two_pos (by omega) _ _).trans
    apply (skip (by decide) _ _).trans
    apply (read Nat.two_pos (by omega) _ _).trans
    apply (skip (by decide) _ _).trans
    exact last _

theorem isTight_text : IsTight moment.text.toList := by
  have starts : ∃ c ∈ moment.text.toList.head?, isBlank c = false := by
    rcases moment.text_cases with ⟨c, rest, spelled, -, inked⟩ | ⟨-, spelled⟩
    · exact ⟨c, by rw [spelled]; rfl, inked⟩
    · obtain ⟨c, cs, year, digit⟩ :=
        exists_padded_eq_cons (by decide : 0 < 4) moment.date.year.natAbs
      exact ⟨c, by rw [spelled, year]; rfl, isBlank_of_isDigit digit⟩
  have ends : ∃ c ∈ moment.text.toList.getLast?, isBlank c = false := by
    obtain ⟨front, c, digits, digit⟩ := exists_padded_eq_append Nat.two_pos moment.second
    refine ⟨c, ?_, isBlank_of_isDigit digit⟩
    rw [toList_text, digits]
    simp only [← List.cons_append, ← List.append_assoc, List.getLast?_concat]
    rfl
  exact ⟨starts, ends⟩

variable {moment}

theorem readForms?_text (inside : moment.InCalendar) :
    readForms? moment.text.toList = some moment.settled := by
  have first : ((readForm? {} (dashedDate ++ .blanks :: fullTime) moment.text.toList).bind
      fun parts => parts.moment? 0) = some moment.settled := by
    rw [readForm?_text, Option.bind_some, moment?_parts inside]
  rw [readForms?, forms, List.findSome?_cons, first]

/-- The time now has no part in it. -/
theorem readMoment_text (inside : moment.InCalendar) (now : Moment) :
    readMoment now moment.text.toList = .ok (some moment.settled) := by
  rw [readMoment, if_neg (by simp [isDigits_text]), readTimestamp?_text]
  dsimp only
  rw [readForms?_text inside]

theorem normalize_text (inside : moment.InCalendar) (now : Moment) :
    normalize now moment.text = .ok (some moment.text) := by
  rw [normalize, trim_eq moment.isTight_text, readMoment_text inside]
  exact congrArg (fun text => Except.ok (some text)) moment.text_settled

end Moment

/-- A normal form is its own normal form, at whatever time it is read. -/
theorem normalize_idempotent {now : Moment} (inside : now.InCalendar) {value text : String}
    (read : normalize now value = .ok (some text)) (later : Moment) :
    normalize later text = .ok (some text) := by
  obtain ⟨moment, -, rfl, reading⟩ := exists_of_normalize inside read
  exact Moment.normalize_text reading.inCalendar later

theorem normalize_inserted_second_of_year_12345 :
    normalize (.ofSeconds 86399) "+12345-06-07 08:09:60" = .ok (some "+12345-06-07 08:09:60") :=
  @normalize_idempotent (.ofSeconds 0) (by decide) " +12345-6-7T8:9:60" _ (by decide) _

end PageTree.Date
