import AnnoTree.Text.Digit
import AnnoTree.Text.Quoted

/-!
# Dates and times

The dates, times of day and both together that a TOML document may hold. A date is one of the
calendar, so a day that its month does not have cannot be built.

Reading takes as much of a text as fits: a date without a time after it is a date, and a fraction
of a second is cut after six digits.
-/

namespace AnnoTree.Toml

open AnnoTree.Text

/-! ## §1 The calendar -/

/-- Whether a year has a leap day. -/
def isLeapYear (year : Nat) : Bool :=
  year % 4 == 0 && (year % 100 != 0 || year % 400 == 0)

/-- The number of days of a month; none of a month that does not exist. -/
def daysOfMonth (year month : Nat) : Nat :=
  match month with
  | 2 => if isLeapYear year then 29 else 28
  | 4 | 6 | 9 | 11 => 30
  | 1 | 3 | 5 | 7 | 8 | 10 | 12 => 31
  | _ => 0

/-- A day of the calendar, which begins with the year one. -/
structure Date where
  year : Nat
  month : Nat
  day : Nat
  year_pos : 1 ≤ year
  day_pos : 1 ≤ day
  day_le : day ≤ daysOfMonth year month
  deriving DecidableEq, Repr

/-- The date of three numbers. -/
def Date.ofNumbers? (year month day : Nat) : Option Date :=
  if h : 1 ≤ year ∧ 1 ≤ day ∧ day ≤ daysOfMonth year month then
    some ⟨year, month, day, h.1, h.2.1, h.2.2⟩
  else none

/-- A time of day. -/
structure TimeOfDay where
  hour : Nat
  minute : Nat
  second : Nat
  microsecond : Nat
  deriving DecidableEq, Repr

/-- A date, a time, or both. -/
inductive Moment where
  | date (d : Date)
  | time (t : TimeOfDay)
  /-- A date and a time, perhaps with the minutes by which its zone is ahead of universal time. -/
  | dateTime (d : Date) (t : TimeOfDay) (offset : Option Int)
  deriving DecidableEq, Repr

/-! ## §2 Texts -/

/-- A number with zeros in front up to a width. -/
def padded (width n : Nat) : String :=
  let digits := (toString n).toList
  String.ofList (List.replicate (width - digits.length) '0' ++ digits)

/-- The text of a date. -/
def Date.text (d : Date) : String :=
  padded 4 d.year ++ "-" ++ padded 2 d.month ++ "-" ++ padded 2 d.day

/-- The text of a time, without a fraction if that is zero. -/
def TimeOfDay.text (t : TimeOfDay) : String :=
  padded 2 t.hour ++ ":" ++ padded 2 t.minute ++ ":" ++ padded 2 t.second ++
    (if t.microsecond = 0 then "" else "." ++ padded 6 t.microsecond)

/-- The text of an offset in minutes. -/
def offsetText (offset : Int) : String :=
  (if offset < 0 then "-" else "+") ++ padded 2 (offset.natAbs / 60) ++ ":" ++
    padded 2 (offset.natAbs % 60)

/-- The text of a moment. -/
def Moment.text : Moment → String
  | .date d => d.text
  | .time t => t.text
  | .dateTime d t offset =>
    d.text ++ " " ++ t.text ++ (offset.map offsetText).getD ""

/-- The numbers of a time as messages list them: seconds are left out where nothing but zeros
would follow. -/
def TimeOfDay.numbers (t : TimeOfDay) : List Nat :=
  if t.microsecond ≠ 0 then [t.hour, t.minute, t.second, t.microsecond]
  else if t.second ≠ 0 then [t.hour, t.minute, t.second]
  else [t.hour, t.minute]

/-- The numbers of a date. -/
def Date.numbers (d : Date) : List Nat :=
  [d.year, d.month, d.day]

/-- A span of less than a day as messages show it: one that goes back is a day back and the rest
of it forward. -/
def shownSpan (minutes : Int) : String :=
  if minutes < 0 then
    "datetime.timedelta(days=-1, seconds=" ++ toString (86400 + 60 * minutes) ++ ")"
  else "datetime.timedelta(seconds=" ++ toString (60 * minutes) ++ ")"

/-- A zone as messages show it, by its offset in minutes. -/
def shownZone (offset : Int) : String :=
  if offset = 0 then "datetime.timezone.utc"
  else "datetime.timezone(" ++ shownSpan offset ++ ")"

/-- A constructor with numbers and perhaps a zone, as messages show it. -/
def shownMoment (name : String) (numbers : List Nat) (offset : Option Int) : String :=
  let zone := (offset.map fun o => "tzinfo=" ++ shownZone o).toList
  "datetime." ++ name ++ "(" ++ ", ".intercalate (numbers.map toString ++ zone) ++ ")"

/-- A moment as messages show it inside of an array or a table. -/
def Moment.shown : Moment → String
  | .date d => shownMoment "date" d.numbers none
  | .time t => shownMoment "time" t.numbers none
  | .dateTime d t offset => shownMoment "datetime" (d.numbers ++ t.numbers) offset

/-! ## §3 Reading -/

/-- The number that exactly so many digits at the front of a text spell. -/
def fixedNumber (count : Nat) (cs : List Char) : Option (Nat × List Char) := do
  let ds ← (cs.take count).mapM asciiDigit?
  if ds.length = count then some (ofDigits 10 ds, cs.drop count) else none

/-- The text after a mark. -/
def afterMark (mark : Char) : List Char → Option (List Char)
  | [] => none
  | c :: rest => if c = mark then some rest else none

/-- A date at the front of a text. -/
def readDate (cs : List Char) : Option (Date × List Char) := do
  let (year, cs) ← fixedNumber 4 cs
  let (month, cs) ← fixedNumber 2 (← afterMark '-' cs)
  let (day, cs) ← fixedNumber 2 (← afterMark '-' cs)
  let date ← Date.ofNumbers? year month day
  return (date, cs)

/-- An hour and a minute at the front of a text. -/
def readClock (cs : List Char) : Option ((Nat × Nat) × List Char) := do
  let (hour, cs) ← fixedNumber 2 cs
  let (minute, cs) ← fixedNumber 2 (← afterMark ':' cs)
  if hour < 24 ∧ minute < 60 then some ((hour, minute), cs) else none

/-- The digits of a fraction, if a point and a digit come next. -/
def fractionAfterPoint (cs : List Char) : List Char × List Char :=
  match cs with
  | '.' :: rest =>
    match rest.takeWhile Char.isDigit with
    | [] => ([], cs)
    | digits => (digits, rest.dropWhile Char.isDigit)
  | _ => ([], cs)

/-- The microseconds of the digits of a fraction of a second. -/
def microsecondsOf (digits : List Char) : Nat :=
  ofDigits 10 (((digits ++ List.replicate 6 '0').take 6).filterMap asciiDigit?)

/-- A time at the front of a text. -/
def readTime (cs : List Char) : Option (TimeOfDay × List Char) := do
  let ((hour, minute), cs) ← readClock cs
  let (second, cs) ← fixedNumber 2 (← afterMark ':' cs)
  let (fraction, cs) := fractionAfterPoint cs
  if second < 60 then some (⟨hour, minute, second, microsecondsOf fraction⟩, cs) else none

/-- The offset of a zone in minutes, if one comes next. -/
def readOffset (cs : List Char) : Option Int × List Char :=
  match cs with
  | [] => (none, [])
  | c :: rest =>
    if c = 'Z' ∨ c = 'z' then (some 0, rest)
    else if c = '+' ∨ c = '-' then
      match readClock rest with
      | some ((hour, minute), left) =>
        let minutes : Int := ((60 * hour + minute : Nat) : Int)
        (some (if c = '-' then -minutes else minutes), left)
      | none => (none, cs)
    else (none, cs)

/-- The time after a date, if one comes next. -/
def timeAfterDate : List Char → Option (TimeOfDay × List Char)
  | [] => none
  | c :: rest => if c = 'T' ∨ c = 't' ∨ c = ' ' then readTime rest else none

/-- A moment at the front of a text. -/
def readMoment (cs : List Char) : Option (Moment × List Char) :=
  match readDate cs with
  | none => (readTime cs).map fun (t, rest) => (.time t, rest)
  | some (d, rest) =>
    match timeAfterDate rest with
    | none => some (.date d, rest)
    | some (t, rest) =>
      let (offset, rest) := readOffset rest
      some (.dateTime d t offset, rest)

example : (readMoment "2024-02-29 07:32:00.5-01:30".toList).map (·.1.text) =
    some "2024-02-29 07:32:00.500000-01:30" := by decide

example : readMoment "2023-02-29".toList = none := by decide

end AnnoTree.Toml
