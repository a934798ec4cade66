import PageTree.Text.Blank

/-!
The proleptic Gregorian calendar: dates, numbers of days, and moments in seconds. The calendar ends
in the years `-262143` and `262142`; nothing outside it is a moment.
-/

namespace PageTree.Date

structure CivilDate where
  year : Int
  month : Nat
  day : Nat
  deriving DecidableEq, Repr

def isLeapYear (year : Int) : Bool :=
  year % 4 = 0 && (year % 100 ≠ 0 || year % 400 = 0)

def daysInMonth (year : Int) : Nat → Nat
  | 1 => 31
  | 2 => if isLeapYear year then 29 else 28
  | 3 => 31
  | 4 => 30
  | 5 => 31
  | 6 => 30
  | 7 => 31
  | 8 => 31
  | 9 => 30
  | 10 => 31
  | 11 => 30
  | 12 => 31
  | _ => 0

def firstYear : Int :=
  -262143

def lastYear : Int :=
  262142

namespace CivilDate

def Valid (date : CivilDate) : Prop :=
  firstYear ≤ date.year ∧ date.year ≤ lastYear ∧
    1 ≤ date.day ∧ date.day ≤ daysInMonth date.year date.month

instance (date : CivilDate) : Decidable date.Valid :=
  inferInstanceAs (Decidable (_ ∧ _ ∧ _ ∧ _))

/-- Days since 1 January 1970. Years are counted from March, in eras of 400 years. -/
def toDays (date : CivilDate) : Int :=
  let year := if date.month ≤ 2 then date.year - 1 else date.year
  let era := year / 400
  let yearOfEra := year - era * 400
  let month : Int := if 2 < date.month then date.month - 3 else date.month + 9
  let dayOfYear := (153 * month + 2) / 5 + date.day - 1
  let dayOfEra := yearOfEra * 365 + yearOfEra / 4 - yearOfEra / 100 + dayOfYear
  era * 146097 + dayOfEra - 719468

def ofDays (days : Int) : CivilDate :=
  let shifted := days + 719468
  let era := shifted / 146097
  let dayOfEra := shifted - era * 146097
  let yearOfEra := (dayOfEra - dayOfEra / 1460 + dayOfEra / 36524 - dayOfEra / 146096) / 365
  let dayOfYear := dayOfEra - (365 * yearOfEra + yearOfEra / 4 - yearOfEra / 100)
  let march := (5 * dayOfYear + 2) / 153
  let month := if march < 10 then march + 3 else march - 9
  { year := yearOfEra + era * 400 + (if month ≤ 2 then 1 else 0)
    month := month.toNat
    day := (dayOfYear - (153 * march + 2) / 5 + 1).toNat }

end CivilDate

def secondsPerDay : Int :=
  86400

/-- A second of universal time, counted from 1 January 1970 without inserted seconds; `leap` is the
second inserted after it. -/
structure Moment where
  seconds : Int
  leap : Bool
  deriving DecidableEq, Repr

namespace Moment

def firstSecond : Int :=
  CivilDate.toDays ⟨firstYear, 1, 1⟩ * secondsPerDay

def lastSecond : Int :=
  CivilDate.toDays ⟨lastYear, 12, 31⟩ * secondsPerDay + (secondsPerDay - 1)

def InCalendar (moment : Moment) : Prop :=
  firstSecond ≤ moment.seconds ∧ moment.seconds ≤ lastSecond

instance (moment : Moment) : Decidable moment.InCalendar :=
  inferInstanceAs (Decidable (_ ∧ _))

def ofSeconds (seconds : Int) : Moment :=
  { seconds, leap := false }

/-- The moment itself when the calendar reaches it. -/
def check (moment : Moment) : Option Moment :=
  if moment.InCalendar then some moment else none

def date (moment : Moment) : CivilDate :=
  .ofDays (moment.seconds / secondsPerDay)

def secondOfDay (moment : Moment) : Int :=
  moment.seconds % secondsPerDay

def startOfDay (moment : Moment) : Moment :=
  .ofSeconds (moment.seconds - moment.secondOfDay)

/-- The moment that many seconds later. Every other second is as far from an inserted one as from
the one before it on the way forward, and as from the one after it on the way back. -/
def plusSeconds (moment : Moment) (seconds : Int) : Moment :=
  if seconds = 0 then moment
  else if moment.leap ∧ seconds < 0 then .ofSeconds (moment.seconds + 1 + seconds)
  else .ofSeconds (moment.seconds + seconds)

def addSeconds? (moment : Moment) (seconds : Int) : Option Moment :=
  (moment.plusSeconds seconds).check

/-- The same day of a month and time of day; a day the month does not have becomes its last. -/
def addMonths? (moment : Moment) (months : Int) : Option Moment :=
  let date := moment.date
  let count := date.year * 12 + ((date.month : Int) - 1) + months
  let year := count / 12
  let month := (count % 12).toNat + 1
  let target : CivilDate := ⟨year, month, min date.day (daysInMonth year month)⟩
  if target.Valid then
    some { moment with seconds := target.toDays * secondsPerDay + moment.secondOfDay }
  else
    none

end Moment

/-- At least `width` digits. -/
def padded (width n : Nat) : List Char :=
  let digits := Nat.toDigits 10 n
  List.replicate (width - digits.length) '0' ++ digits

/-- Four digits for the years 0 to 9999, a sign before at least four digits for all others. -/
def yearText (year : Int) : List Char :=
  if year < 0 then '-' :: padded 4 year.natAbs
  else if 9999 < year then '+' :: padded 4 year.natAbs
  else padded 4 year.natAbs

def Moment.text (moment : Moment) : String :=
  let date := moment.date
  let second := moment.secondOfDay.toNat
  String.ofList <|
    yearText date.year ++ '-' :: padded 2 date.month ++ '-' :: padded 2 date.day ++ ' ' ::
      padded 2 (second / 3600) ++ ':' :: padded 2 (second / 60 % 60) ++ ':' ::
      padded 2 (second % 60 + (if moment.leap then 1 else 0))

end PageTree.Date
