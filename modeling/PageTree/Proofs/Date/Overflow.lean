import PageTree.Proofs.Date.Digits
import PageTree.Proofs.Date.Readings

/-!
Readings that are stopped midway. Main statement: these are `yesterday` and `tomorrow` next to the
ends of the calendar and a span of the least amount of 64 bits counted back from now, and no other
text overflows (`normalize_eq_error_iff`).
-/

namespace PageTree.Date

open Number Text

/-- The texts that are stopped midway, with what stops them. -/
inductive Overflows (now : Moment) (cs : List Char) : Overflow → Prop where
  | yesterday (named : cs.map Char.toLower = "yesterday".toList)
      (beyond : ¬ (now.plusSeconds (-secondsPerDay)).InCalendar) : Overflows now cs .calendar
  | tomorrow (named : cs.map Char.toLower = "tomorrow".toList)
      (beyond : ¬ (now.plusSeconds secondsPerDay).InCalendar) : Overflows now cs .calendar
  | ago (unit : TimeUnit) (read : readSpan? cs = some ⟨minInt64, unit, true⟩) :
      Overflows now cs .amount

/-! ### Texts that are no written date -/

section

variable {parts : Parts} {piece : Piece} {pieces : List Piece} {cs : List Char}

theorem readForm?_eq_none (first : readPiece? parts cs piece = none) :
    readForm? parts (piece :: pieces) cs = none := by
  rw [readForm?, first]

theorem readForm?_year_eq_none {c : Char}
    (unmarked : ∀ year rest, readYear? cs = some (year, rest) → rest.head? ≠ some c) :
    readForm? parts (.year :: .mark c :: pieces) cs = none := by
  rw [readForm?, readPiece?]
  cases read : readYear? cs with
  | none => rfl
  | some found =>
      obtain ⟨year, rest⟩ := found
      exact readForm?_eq_none (if_neg (unmarked year rest read))

/-- Every form begins with a year and one of two marks, with a number, or with the name of a
month. -/
theorem readForms?_eq_none (number : readPart? cs = none) (month : readMonthName? cs = none)
    (year : ∀ year rest, readYear? cs = some (year, rest) →
      rest.head? ≠ some '-' ∧ rest.head? ≠ some '/') : readForms? cs = none := by
  have dashed := fun year' rest read => (year year' rest read).1
  have slashed := fun year' rest read => (year year' rest read).2
  have isMonth : readPiece? {} cs .month = none := by rw [readPiece?, number]; rfl
  have isDay : readPiece? {} cs .day = none := by rw [readPiece?, number]; rfl
  have isName : readPiece? {} cs .monthName = none := by rw [readPiece?, month]; rfl
  rw [readForms?, List.findSome?_eq_none_iff]
  intro form isForm
  have unread : readForm? {} form cs = none := by
    simp only [forms, dashedDate, slashedDate, List.cons_append, List.nil_append, List.mem_cons,
      List.not_mem_nil, or_false] at isForm
    rcases isForm with rfl | rfl | rfl | rfl | rfl | rfl | rfl | rfl | rfl | rfl | rfl | rfl
    all_goals
      first
        | exact readForm?_year_eq_none dashed
        | exact readForm?_year_eq_none slashed
        | exact readForm?_eq_none isMonth
        | exact readForm?_eq_none isDay
        | exact readForm?_eq_none isName
  rw [unread, Option.bind_none]

theorem readNumber?_eq_none {c : Char} (noDigit : c.isDigit = false) (width : Nat) :
    readNumber? width (c :: cs) = none := by
  cases width <;> simp [readNumber?, noDigit]

theorem readMonthName?_eq_none {c : Char} (noInitial : c.toLower ∉ "jfmasond".toList) :
    readMonthName? (c :: cs) = none := by
  have other {d : Char} (initial : d ∈ "jfmasond".toList) : (d == c.toLower) = false :=
    beq_eq_false_iff_ne.2 fun same => noInitial (same ▸ initial)
  rw [readMonthName?, List.findSome?_eq_none_iff]
  rintro ⟨name, month⟩ isMonth
  obtain ⟨d, ds, rfl, initial⟩ : ∃ d ds, name = d :: ds ∧ d ∈ "jfmasond".toList := by
    have named : name ∈ monthNames := List.fst_mem_of_mem_zipIdx isMonth
    have initials : ∀ name ∈ monthNames, name.head?.any ("jfmasond".toList.contains ·) = true := by
      decide
    have initial := initials name named
    cases name with
    | nil => cases initial
    | cons d ds => exact ⟨d, ds, rfl, by simpa using initial⟩
  simp [List.isPrefixOf, other initial]

theorem readYear?_eq_none {c : Char} (noDigit : c.isDigit = false) (inked : isBlank c = false)
    (noMinus : c ≠ '-') (noPlus : c ≠ '+') : readYear? (c :: cs) = none := by
  rw [readYear?, trimStart_eq ⟨c, rfl, inked⟩]
  split
  · next same => exact absurd (List.cons.inj same).1 noMinus
  · next same => exact absurd (List.cons.inj same).1 noPlus
  · rw [readNumber?_eq_none noDigit, Option.map_none]

theorem readYear?_minus {year : Int} {rest : List Char}
    (read : readYear? ('-' :: cs) = some (year, rest)) : rest = cs.dropWhile Char.isDigit := by
  have read :
      (readNumber? cs.length cs).map (fun r => (-(r.1 : Int), r.2)) = some (year, rest) := by
    rw [readYear?, trimStart_eq ⟨'-', rfl, by decide⟩] at read
    exact read
  unfold readNumber? at read
  rw [List.take_length] at read
  dsimp only at read
  split at read
  · cases read
  · cases read
    calc cs.drop (cs.takeWhile Char.isDigit).length
        = (cs.takeWhile Char.isDigit ++ cs.dropWhile Char.isDigit).drop
            (cs.takeWhile Char.isDigit).length := by
          rw [List.takeWhile_append_dropWhile]
      _ = cs.dropWhile Char.isDigit := List.drop_left

/-- The text is no number, no timestamp and in none of the written forms. -/
structure IsUnwritten (cs : List Char) : Prop where
  number : isDigits cs = false
  timestamp : readTimestamp? cs = none
  form : readForms? cs = none

theorem isUnwritten_cons {c : Char} (noDigit : c.isDigit = false) (inked : isBlank c = false)
    (noInitial : c.toLower ∉ "jfmasond".toList)
    (year : ∀ year rest, readYear? (c :: cs) = some (year, rest) →
      rest.head? ≠ some '-' ∧ rest.head? ≠ some '/') : IsUnwritten (c :: cs) := by
  have number : readPart? (c :: cs) = none := by
    rw [readPart?, trimStart_eq ⟨c, rfl, inked⟩, readNumber?_eq_none noDigit]
  exact
    { number := by simp [isDigits, noDigit]
      timestamp := readTimestamp?_eq_none noDigit
      form := readForms?_eq_none number (readMonthName?_eq_none noInitial) year }

namespace IsUnwritten

variable (unwritten : IsUnwritten cs) {now : Moment}

include unwritten

theorem readMoment_of_keyword {moment : Except Overflow Moment}
    (keyword : readKeyword? now cs = some moment) : readMoment now cs = moment.map some := by
  rw [readMoment, if_neg (by simp [unwritten.number]), unwritten.timestamp, unwritten.form]
  dsimp only
  rw [keyword]

theorem readMoment_of_span (noKeyword : readKeyword? now cs = none) {span : Span}
    (read : readSpan? cs = some span) :
    readMoment now cs = span.signedAmount.map fun amount => now.shift? amount span.unit := by
  rw [readMoment, if_neg (by simp [unwritten.number]), unwritten.timestamp, unwritten.form]
  dsimp only
  rw [noKeyword, read]

end IsUnwritten

end

/-! ### Keywords -/

theorem isLetter_of_toLower {c : Char} (lower : 97 ≤ c.toLower.toNat ∧ c.toLower.toNat ≤ 122) :
    65 ≤ c.toNat ∧ c.toNat ≤ 90 ∨ 97 ≤ c.toNat ∧ c.toNat ≤ 122 := by
  unfold Char.toLower at lower
  split at lower
  · next upper => exact .inl ⟨UInt32.le_iff_toNat_le.1 upper.1, UInt32.le_iff_toNat_le.1 upper.2⟩
  · exact .inr lower

theorem readMoment_of_readKeyword? {now : Moment} {cs : List Char} {d : Char} {ds : List Char}
    (named : cs.map Char.toLower = d :: ds) (letter : 97 ≤ d.toNat ∧ d.toNat ≤ 122)
    (noInitial : d ∉ "jfmasond".toList) {moment : Except Overflow Moment}
    (read : readKeyword? now cs = some moment) : readMoment now cs = moment.map some := by
  cases cs with
  | nil => cases named
  | cons c cs =>
      obtain ⟨rfl, -⟩ := List.cons.inj named
      have letter := isLetter_of_toLower letter
      have noDigit : c.isDigit = false := by
        by_contra digit
        have bounds := digit_bounds (Bool.of_not_eq_false digit)
        omega
      have inked : isBlank c = false := by
        simp only [isBlank, Bool.or_eq_false_iff, Bool.and_eq_false_iff, decide_eq_false_iff_not,
          beq_eq_false_iff_ne]
        omega
      have noMinus : c ≠ '-' := by
        rintro rfl
        exact absurd letter (by decide)
      have noPlus : c ≠ '+' := by
        rintro rfl
        exact absurd letter (by decide)
      refine (isUnwritten_cons noDigit inked noInitial ?_).readMoment_of_keyword read
      intro year rest isYear
      cases (readYear?_eq_none noDigit inked noMinus noPlus).symm.trans isYear

/-! ### Spans -/

theorem ofName?_eq_none {c : Char} {word : List Char}
    (noInitial : foldLetter c ∉ "smhdwy".toList) : TimeUnit.ofName? (c :: word) = none := by
  have other {name : String} (initial : name.toList.head?.any ("smhdwy".toList.contains ·) = true) :
      String.ofList ((c :: word).map foldLetter) ≠ name := by
    rintro rfl
    exact noInitial (by simpa using initial)
  unfold TimeUnit.ofName?
  split <;> first | rfl | exact absurd ‹_› (other (by decide))

theorem readUnit?_eq_none {c : Char} {word : List Char}
    (noInitial : foldLetter c ∉ "smhdwy".toList) : readUnit? (c :: word) = none := by
  rw [readUnit?, ofName?_eq_none noInitial]
  dsimp only
  split
  · cases word with
    | nil => rfl
    | cons d ds => exact ofName?_eq_none noInitial
  · rfl

theorem readInt64?_nonneg {cs : List Char} {n : Int} (unsigned : cs.head? ≠ some '-')
    (read : readInt64? cs = some n) : 0 ≤ n := by
  unfold readInt64? at read
  split at read
  · exact absurd rfl unsigned
  · split at read
    · obtain ⟨-, rfl⟩ := checkInt64_eq_some_iff.1 read
      exact Int.natCast_nonneg _
    · cases read
  · split at read
    · obtain ⟨-, rfl⟩ := checkInt64_eq_some_iff.1 read
      exact Int.natCast_nonneg _
    · cases read

/-- A negative amount begins with its sign, and no mark of a date stands between it and its
unit. -/
theorem exists_of_readSpan? {cs : List Char} {span : Span} (read : readSpan? cs = some span)
    (negative : span.amount < 0) :
    ∃ rest, cs = '-' :: rest ∧ (rest.dropWhile Char.isDigit).head? ≠ some '-' ∧
      (rest.dropWhile Char.isDigit).head? ≠ some '/' := by
  have stands {n : Int} (unsigned : 0 ≤ n) {unit : TimeUnit} {past : Bool}
      (same : some (⟨n, unit, past⟩ : Span) = some span) : False := by
    cases same
    exact Int.not_lt.2 unsigned negative
  unfold readSpan? at read
  split at read
  · next rest =>
    simp only [Option.bind_eq_bind, Option.bind_eq_some_iff] at read
    obtain ⟨amount, -, unit, isUnit, -⟩ := read
    have unmarked {c : Char} (inked : isBlank c = false)
        (noInitial : foldLetter c ∉ "smhdwy".toList) :
        (rest.dropWhile Char.isDigit).head? ≠ some c := by
      intro starts
      obtain ⟨word, spelled⟩ := List.head?_eq_some_iff.1 starts
      rw [spelled, trimStart_eq ⟨c, rfl, inked⟩, List.takeWhile_cons_of_pos (by simp [inked]),
        readUnit?_eq_none noInitial] at isUnit
      cases isUnit
    exact ⟨rest, rfl, unmarked (by decide) (by decide), unmarked (by decide) (by decide)⟩
  · next rest =>
    simp only [Option.bind_eq_bind, Option.bind_eq_some_iff] at read
    obtain ⟨amount, isAmount, unit, -, past, -, same⟩ := read
    have one : ('+' :: rest).length - rest.length = 1 := by
      rw [List.length_cons, Nat.add_sub_cancel_left]
    rw [one] at isAmount
    exact absurd same (stands (readInt64?_nonneg (by simp) isAmount))
  · next noMinus noPlus =>
    simp only [Option.bind_eq_bind, Option.bind_eq_some_iff] at read
    obtain ⟨amount, isAmount, unit, -, past, -, same⟩ := read
    have digits : (cs.takeWhile Char.isDigit).head? ≠ some '-' := fun minus =>
      absurd (List.mem_takeWhile_imp (List.mem_of_head? minus)) (by decide)
    rw [Nat.sub_self, List.take_zero, List.nil_append] at isAmount
    exact absurd same (stands (readInt64?_nonneg digits isAmount))

theorem signedAmount_eq_error_iff {cs : List Char} {span : Span} (read : readSpan? cs = some span)
    {overflow : Overflow} : span.signedAmount = .error overflow ↔
      overflow = .amount ∧ span.amount = minInt64 ∧ span.past = true := by
  have inRange : InInt64 span.amount := by
    unfold readSpan? at read
    simp only [Option.bind_eq_bind, Option.bind_eq_some_iff] at read
    obtain ⟨amount, isAmount, unit, -, past, -, same⟩ := read
    cases same
    exact inInt64_of_readInt64? isAmount
  have opposite : InInt64 (-span.amount) ↔ span.amount ≠ minInt64 := by
    unfold InInt64 minInt64 maxInt64 at *
    omega
  simp only [Span.signedAmount, opposite]
  cases span.past with
  | false => simp
  | true => by_cases least : span.amount = minInt64 <;> simp [least, eq_comm]

/-- A span of a negative amount is not read as anything else. -/
theorem readMoment_of_negative {now : Moment} {cs : List Char} {span : Span}
    (read : readSpan? cs = some span) (negative : span.amount < 0) :
    readMoment now cs = span.signedAmount.map fun amount => now.shift? amount span.unit := by
  obtain ⟨rest, rfl, noDash, noSlash⟩ := exists_of_readSpan? read negative
  have noKeyword : readKeyword? now ('-' :: rest) = none := by
    have other {name : String} (initial : name.toList.head? ≠ some '-') :
        String.ofList (('-' :: rest).map Char.toLower) ≠ name := by
      rintro rfl
      exact initial (by simp)
    unfold readKeyword?
    split <;> first | rfl | exact absurd ‹_› (other (by decide))
  refine (isUnwritten_cons (by decide) (by decide) (by decide) ?_).readMoment_of_span noKeyword read
  intro year after isYear
  rw [readYear?_minus isYear]
  exact ⟨noDash, noSlash⟩

/-! ### Overflows -/

theorem otherDay_eq_error_iff {now : Moment} {seconds : Int} {overflow : Overflow} :
    now.otherDay seconds = .error overflow ↔
      overflow = .calendar ∧ ¬ (now.plusSeconds seconds).InCalendar := by
  unfold Moment.otherDay Moment.addSeconds? Moment.check
  by_cases inside : (now.plusSeconds seconds).InCalendar
  · simp [inside]
  · simp [inside, eq_comm]

theorem readKeyword?_eq_error_iff {now : Moment} {cs : List Char} {overflow : Overflow} :
    readKeyword? now cs = some (.error overflow) ↔ overflow = .calendar ∧
      (cs.map Char.toLower = "yesterday".toList ∧
          ¬ (now.plusSeconds (-secondsPerDay)).InCalendar ∨
        cs.map Char.toLower = "tomorrow".toList ∧
          ¬ (now.plusSeconds secondsPerDay).InCalendar) := by
  have named (name : String) :
      cs.map Char.toLower = name.toList ↔ String.ofList (cs.map Char.toLower) = name := by
    rw [← String.toList_inj, String.toList_ofList]
  rw [named, named]
  unfold readKeyword?
  split
  case h_1 isNow => simp [isNow]
  case h_2 isToday => simp [isToday]
  case h_3 isYesterday => simp [isYesterday, otherDay_eq_error_iff]
  case h_4 isTomorrow => simp [isTomorrow, otherDay_eq_error_iff]
  case h_5 notYesterday notTomorrow =>
    refine iff_of_false (by simp) ?_
    rintro ⟨-, ⟨isYesterday, -⟩ | ⟨isTomorrow, -⟩⟩
    · exact notYesterday isYesterday
    · exact notTomorrow isTomorrow

theorem map_eq_error_iff {α β : Type} {f : α → β} {found : Except Overflow α}
    {overflow : Overflow} : found.map f = .error overflow ↔ found = .error overflow := by
  cases found <;> simp [Except.map]

theorem readMoment_eq_error_iff {now : Moment} {cs : List Char} {overflow : Overflow} :
    readMoment now cs = .error overflow ↔ Overflows now cs overflow := by
  constructor
  · intro stopped
    unfold readMoment at stopped
    split at stopped
    · cases stopped
    · split at stopped
      · cases stopped
      · split at stopped
        · cases stopped
        · split at stopped
          · next moment keyword =>
            rw [map_eq_error_iff] at stopped
            rw [stopped, readKeyword?_eq_error_iff] at keyword
            obtain ⟨rfl, ⟨named, beyond⟩ | ⟨named, beyond⟩⟩ := keyword
            · exact .yesterday named beyond
            · exact .tomorrow named beyond
          · split at stopped
            · next span isSpan =>
              rw [map_eq_error_iff, signedAmount_eq_error_iff isSpan] at stopped
              obtain ⟨amount, unit, past⟩ := span
              obtain ⟨rfl, rfl, rfl⟩ := stopped
              exact .ago unit isSpan
            · cases stopped
  · rintro (⟨named, beyond⟩ | ⟨named, beyond⟩ | ⟨unit, read⟩)
    · rw [readMoment_of_readKeyword? named (by decide) (by decide)
        (readKeyword?_eq_error_iff.2 ⟨rfl, .inl ⟨named, beyond⟩⟩)]
      rfl
    · rw [readMoment_of_readKeyword? named (by decide) (by decide)
        (readKeyword?_eq_error_iff.2 ⟨rfl, .inr ⟨named, beyond⟩⟩)]
      rfl
    · rw [readMoment_of_negative read (show minInt64 < 0 by decide), map_eq_error_iff]
      exact (signedAmount_eq_error_iff read).2 ⟨rfl, rfl, rfl⟩

/-- A text that does not overflow is no date, or the date of a moment in the calendar. -/
theorem normalize_eq_error_iff {now : Moment} (inside : now.InCalendar) (value : String) :
    (∀ overflow, normalize now value = .error overflow ↔
      Overflows now (trim value.toList) overflow) ∧
    ∀ text, normalize now value = .ok (some text) →
      ∃ moment : Moment, moment.InCalendar ∧ text = moment.text := by
  refine ⟨fun overflow => ?_, fun text read => ?_⟩
  · rw [normalize, map_eq_error_iff, readMoment_eq_error_iff]
  · obtain ⟨moment, -, same, reading⟩ := exists_of_normalize inside read
    exact ⟨moment, reading.inCalendar, same⟩

theorem normalize_eq_error_iff_first_day :
    normalize (.ofSeconds Moment.firstSecond) "Yesterday" = .error .calendar ∧
      normalize (.ofSeconds 0) "-9223372036854775808 days ago" = .error .amount :=
  ⟨((normalize_eq_error_iff (by decide) "Yesterday").1 .calendar).2
      (.yesterday (by decide) (by decide)),
    ((normalize_eq_error_iff (by decide) "-9223372036854775808 days ago").1 .amount).2
      (.ago (.seconds 86400) (by decide))⟩

end PageTree.Date
