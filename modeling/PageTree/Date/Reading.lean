import PageTree.Date.Calendar
import PageTree.Number.Int64

/-!
Readings of a date as people write it: a number of seconds, an internet timestamp with an offset,
a date in one of several orders with or without a time of day, a keyword, or a span from now. The
first reading that fits decides.
-/

namespace PageTree.Date

open Number Text

inductive Piece where
  | year
  | month
  | monthName
  | day
  | hour
  | minute
  | second
  | mark (c : Char)
  | blanks
  deriving DecidableEq, Repr

/-- What a written form tells; a part it leaves out counts from the start of the day. -/
structure Parts where
  year : Int := 0
  month : Nat := 0
  day : Nat := 0
  hour : Nat := 0
  minute : Nat := 0
  second : Nat := 0
  deriving DecidableEq, Repr

namespace Parts

def date (parts : Parts) : CivilDate :=
  ⟨parts.year, parts.month, parts.day⟩

/-- The moment at these parts of a clock `offset` seconds ahead of universal time. The sixtieth
second of a minute is an inserted one. -/
def moment? (parts : Parts) (offset : Int) : Option Moment :=
  if parts.date.Valid ∧ parts.hour ≤ 23 ∧ parts.minute ≤ 59 ∧ parts.second ≤ 60 then
    let second := min parts.second 59
    let clock : Int := (parts.hour * 3600 + parts.minute * 60 + second : Nat)
    Moment.check
      { seconds := parts.date.toDays * secondsPerDay + clock - offset
        leap := parts.second = 60 }
  else
    none

end Parts

/-- At most `width` digits and at least one. -/
def readNumber? (width : Nat) (cs : List Char) : Option (Nat × List Char) :=
  let digits := (cs.take width).takeWhile Char.isDigit
  if digits.isEmpty then none else some (digitsValue digits, cs.drop digits.length)

def readPart? (cs : List Char) : Option (Nat × List Char) :=
  readNumber? 2 (trimStart cs)

/-- Four digits at most, or any number of them after a sign. -/
def readYear? (cs : List Char) : Option (Int × List Char) :=
  match trimStart cs with
  | '-' :: rest => (readNumber? rest.length rest).map fun r => (-(r.1 : Int), r.2)
  | '+' :: rest => (readNumber? rest.length rest).map fun r => ((r.1 : Int), r.2)
  | rest => (readNumber? 4 rest).map fun r => ((r.1 : Int), r.2)

def monthNames : List (List Char) :=
  ["january", "february", "march", "april", "may", "june", "july", "august", "september",
    "october", "november", "december"].map String.toList

/-- A month by the first three letters of its name, in either case; the rest of the name is read
when it is there in full. -/
def readMonthName? (cs : List Char) : Option (Nat × List Char) :=
  let lower := cs.map Char.toLower
  (monthNames.zipIdx 1).findSome? fun (name, month) =>
    if name.isPrefixOf lower then some (month, cs.drop name.length)
    else if (name.take 3).isPrefixOf lower then some (month, cs.drop 3)
    else none

def readPiece? (parts : Parts) (cs : List Char) : Piece → Option (Parts × List Char)
  | .year => (readYear? cs).map fun r => ({ parts with year := r.1 }, r.2)
  | .month => (readPart? cs).map fun r => ({ parts with month := r.1 }, r.2)
  | .monthName => (readMonthName? cs).map fun r => ({ parts with month := r.1 }, r.2)
  | .day => (readPart? cs).map fun r => ({ parts with day := r.1 }, r.2)
  | .hour => (readPart? cs).map fun r => ({ parts with hour := r.1 }, r.2)
  | .minute => (readPart? cs).map fun r => ({ parts with minute := r.1 }, r.2)
  | .second => (readPart? cs).map fun r => ({ parts with second := r.1 }, r.2)
  | .mark c => if cs.head? = some c then some (parts, cs.tail) else none
  | .blanks => some (parts, trimStart cs)

/-- Reads the pieces in turn, to the end of the text. -/
def readForm? (parts : Parts) : List Piece → List Char → Option Parts
  | [], [] => some parts
  | [], _ :: _ => none
  | piece :: pieces, cs =>
    match readPiece? parts cs piece with
    | some (parts, rest) => readForm? parts pieces rest
    | none => none

def dashedDate : List Piece :=
  [.year, .mark '-', .month, .mark '-', .day]

def slashedDate : List Piece :=
  [.year, .mark '/', .month, .mark '/', .day]

def shortTime : List Piece :=
  [.hour, .mark ':', .minute]

def fullTime : List Piece :=
  shortTime ++ [.mark ':', .second]

/-- The written forms, in the order in which they are tried. -/
def forms : List (List Piece) :=
  [dashedDate ++ .blanks :: fullTime,
    dashedDate ++ .blanks :: shortTime,
    dashedDate ++ .mark 'T' :: fullTime,
    dashedDate ++ .mark 'T' :: shortTime,
    slashedDate ++ .blanks :: fullTime,
    slashedDate ++ .blanks :: shortTime,
    dashedDate,
    slashedDate,
    [.month, .mark '/', .day, .mark '/', .year],
    [.day, .blanks, .monthName, .blanks, .year],
    [.monthName, .blanks, .day, .mark ',', .blanks, .year],
    [.monthName, .blanks, .day, .blanks, .year]]

def readForms? (cs : List Char) : Option Moment :=
  forms.findSome? fun form => (readForm? {} form cs).bind fun parts => parts.moment? 0

/-- Exactly `width` digits. -/
def readDigits? (width : Nat) (cs : List Char) : Option (Nat × List Char) :=
  let digits := cs.take width
  if digits.length = width ∧ isDigits digits then some (digitsValue digits, cs.drop width)
  else none

def skipChar? (accepted : List Char) : List Char → Option (List Char)
  | c :: cs => if accepted.contains c then some cs else none
  | [] => none

/-- A point and digits of any number, or nothing. -/
def skipFraction? (cs : List Char) : Option (List Char) :=
  match cs with
  | '.' :: rest =>
    if (rest.takeWhile Char.isDigit).isEmpty then none else some (rest.dropWhile Char.isDigit)
  | rest => some rest

/-- Seconds ahead of universal time: `Z`, or a sign, hours and minutes below one day. -/
def readOffset? (cs : List Char) : Option (Int × List Char) :=
  match cs with
  | [] => none
  | c :: rest =>
    if c = 'Z' ∨ c = 'z' then
      some (0, rest)
    else if c = '+' ∨ c = '-' ∨ c = '\u2212' then do
      let (hours, rest) ← readDigits? 2 rest
      let rest ← skipChar? [':'] rest
      let (minutes, rest) ← readDigits? 2 rest
      if 23 < hours ∨ 59 < minutes then
        none
      else
        let seconds : Int := (hours * 3600 + minutes * 60 : Nat)
        some (if c = '+' then seconds else -seconds, rest)
    else
      none

/-- Reads an internet timestamp, every part of fixed width and with an offset at the end. -/
def readTimestamp? (cs : List Char) : Option Moment := do
  let (year, rest) ← readDigits? 4 cs
  let rest ← skipChar? ['-'] rest
  let (month, rest) ← readDigits? 2 rest
  let rest ← skipChar? ['-'] rest
  let (day, rest) ← readDigits? 2 rest
  let rest ← skipChar? ['T', 't', ' '] rest
  let (hour, rest) ← readDigits? 2 rest
  let rest ← skipChar? [':'] rest
  let (minute, rest) ← readDigits? 2 rest
  let rest ← skipChar? [':'] rest
  let (second, rest) ← readDigits? 2 rest
  let rest ← skipFraction? rest
  let (offset, rest) ← readOffset? rest
  if rest.isEmpty then
    Parts.moment? { year := year, month, day, hour, minute, second } offset
  else
    none

inductive TimeUnit where
  | seconds (count : Int)
  | months (count : Int)
  deriving DecidableEq, Repr

/-- Lower case of a letter in a unit's name; the sign of the kelvin is a letter `k`. -/
def foldLetter (c : Char) : Char :=
  if c = '\u212a' then 'k' else c.toLower

def TimeUnit.ofName? (cs : List Char) : Option TimeUnit :=
  match String.ofList (cs.map foldLetter) with
  | "sec" => some (.seconds 1)
  | "second" => some (.seconds 1)
  | "min" => some (.seconds 60)
  | "minute" => some (.seconds 60)
  | "hour" => some (.seconds 3600)
  | "day" => some (.seconds 86400)
  | "week" => some (.seconds 604800)
  | "month" => some (.months 1)
  | "year" => some (.months 12)
  | _ => none

/-- The letters that end a plural, among them the long s. -/
def isPluralMark (c : Char) : Bool :=
  c = 's' || c = 'S' || c = '\u017f'

/-- The unit of a word in the singular or plural. -/
def readUnit? (word : List Char) : Option TimeUnit :=
  match TimeUnit.ofName? word with
  | some unit => some unit
  | none => if word.getLast?.any isPluralMark then TimeUnit.ofName? word.dropLast else none

/-- Is the text after a unit empty, or blanks and the word `ago`? The answer is whether the span
lies in the past. -/
def readAgo? (cs : List Char) : Option Bool :=
  if cs.isEmpty then some false
  else if (trimStart cs).map Char.toLower = ['a', 'g', 'o'] then some true
  else none

/-- A span as it is written; a past one is counted back from now. -/
structure Span where
  amount : Int
  unit : TimeUnit
  past : Bool
  deriving DecidableEq, Repr

/-- Reads a signed amount of 64 bits and a unit. -/
def readSpan? (cs : List Char) : Option Span := do
  let body := match cs with
    | '-' :: rest => rest
    | '+' :: rest => rest
    | rest => rest
  let digits := body.takeWhile Char.isDigit
  let amount ← readInt64? (cs.take (cs.length - body.length) ++ digits)
  let rest := trimStart (body.dropWhile Char.isDigit)
  let unit ← readUnit? (rest.takeWhile fun c => !isBlank c)
  let past ← readAgo? (rest.dropWhile fun c => !isBlank c)
  some { amount, unit, past }

/-- What stops a reading midway, as the step is taken without a check: the opposite of the least
amount, or a day that lies beyond the calendar. -/
inductive Overflow where
  | amount
  | calendar
  deriving DecidableEq, Repr

/-- The amount that is added to now. -/
def Span.signedAmount (span : Span) : Except Overflow Int :=
  if span.past then
    if InInt64 (-span.amount) then .ok (-span.amount) else .error .amount
  else
    .ok span.amount

/-- The greatest number of seconds that a span can have. -/
def maxSpan : Int :=
  9223372036854775

/-- The greatest number of months that can be counted. -/
def maxMonths : Nat :=
  4294967295

namespace Moment

/-- Every product and sum on the way is checked. -/
def shift? (now : Moment) (amount : Int) : TimeUnit → Option Moment
  | .seconds count => do
    let seconds ← checkInt64 (amount * count)
    if -maxSpan ≤ seconds ∧ seconds ≤ maxSpan then now.addSeconds? seconds else none
  | .months count => do
    let months ← checkInt64 (amount * count)
    if months.natAbs ≤ maxMonths then now.addMonths? months else none

/-- The start of a day before or after this one, which has to be in the calendar. -/
def otherDay (now : Moment) (seconds : Int) : Except Overflow Moment :=
  match now.addSeconds? seconds with
  | some moment => .ok moment.startOfDay
  | none => .error .calendar

end Moment

/-- The moments with names of their own. -/
def readKeyword? (now : Moment) (cs : List Char) : Option (Except Overflow Moment) :=
  match String.ofList (cs.map Char.toLower) with
  | "now" => some (.ok now)
  | "today" => some (.ok now.startOfDay)
  | "yesterday" => some (now.otherDay (-secondsPerDay))
  | "tomorrow" => some (now.otherDay secondsPerDay)
  | _ => none

/-- The moment that a text without blanks at its ends denotes, or none when it is no date. -/
def readMoment (now : Moment) (cs : List Char) : Except Overflow (Option Moment) :=
  if isDigits cs then
    .ok ((readInt64? cs).bind fun seconds => (Moment.ofSeconds seconds).check)
  else
    match readTimestamp? cs with
    | some moment => .ok (some moment)
    | none =>
      match readForms? cs with
      | some moment => .ok (some moment)
      | none =>
        match readKeyword? now cs with
        | some moment => moment.map some
        | none =>
          match readSpan? cs with
          | some span => span.signedAmount.map fun amount => now.shift? amount span.unit
          | none => .ok none

/-- The normal form of a date, or none for a text that is no date. -/
def normalize (now : Moment) (value : String) : Except Overflow (Option String) :=
  (readMoment now (trim value.toList)).map fun found => found.map Moment.text

/-- The normal form, where a reading that is stopped midway is no date either. -/
def normalize? (now : Moment) (value : String) : Option String :=
  match normalize now value with
  | .ok text => text
  | .error _ => none

end PageTree.Date
