import Scoresheet.Text.Blank
import Scoresheet.Decimal.Reading
import Scoresheet.Decimal.Layout

/-!
# Points in time

A point in time is a date of the Gregorian calendar and a time of day, both in UTC, with nanoseconds
and with leap seconds. Its text is that of internet timestamps.

* `Timestamp` — a date and a time of day.
* `Timestamp.text` — the text, with as few decimal places of the second as are exact.
* `Timestamp.parse?` — the point in time that a text denotes.
-/

namespace Scoresheet

/-! ### Dates -/

/-- Whether a year has a leap day. -/
def isLeapYear (year : Int) : Bool :=
  year % 4 == 0 && (year % 100 != 0 || year % 400 == 0)

/-- The number of days of a month. -/
def daysInMonth (year : Int) (month : Nat) : Nat :=
  if month = 2 then (if isLeapYear year then 29 else 28)
  else if month = 4 ∨ month = 6 ∨ month = 9 ∨ month = 11 then 30
  else 31

/-- The years that dates range over. -/
def firstYear : Int := -262143

@[inherit_doc firstYear]
def lastYear : Int := 262142

/-- A date of the Gregorian calendar. -/
structure Date where
  year : Int
  month : Nat
  day : Nat
  year_range : firstYear ≤ year ∧ year ≤ lastYear
  month_range : 1 ≤ month ∧ month ≤ 12
  day_range : 1 ≤ day ∧ day ≤ daysInMonth year month
deriving DecidableEq

namespace Date

/-- The date of a year, a month and a day, if there is one. -/
def ofParts? (year : Int) (month day : Nat) : Option Date :=
  if hy : firstYear ≤ year ∧ year ≤ lastYear then
    if hm : 1 ≤ month ∧ month ≤ 12 then
      if hd : 1 ≤ day ∧ day ≤ daysInMonth year month then some ⟨year, month, day, hy, hm, hd⟩
      else none
    else none
  else none

/-- The day after a date. -/
def next? (d : Date) : Option Date :=
  if d.day < daysInMonth d.year d.month then ofParts? d.year d.month (d.day + 1)
  else if d.month < 12 then ofParts? d.year (d.month + 1) 1
  else ofParts? (d.year + 1) 1 1

/-- The day before a date. -/
def previous? (d : Date) : Option Date :=
  if 1 < d.day then ofParts? d.year d.month (d.day - 1)
  else if 1 < d.month then ofParts? d.year (d.month - 1) (daysInMonth d.year (d.month - 1))
  else ofParts? (d.year - 1) 12 31

/-- **The date so many days after the first of January 1970.** Years are counted from March on, so
that a leap day ends its year; 400 years have 146097 days. -/
def ofDays? (days : Int) : Option Date :=
  -- From the first of March of the year 0 it is 719468 days to 1970.
  let fromMarch := days + 719468
  let era := fromMarch.fdiv 146097
  let dayOfEra := (fromMarch.fmod 146097).toNat
  let yearOfEra := (dayOfEra - dayOfEra / 1460 + dayOfEra / 36524 - dayOfEra / 146096) / 365
  let dayOfYear := dayOfEra - (365 * yearOfEra + yearOfEra / 4 - yearOfEra / 100)
  -- Five months in a row, of 31, 30, 31, 30 and 31 days, have 153.
  let monthFromMarch := (5 * dayOfYear + 2) / 153
  let day := dayOfYear - (153 * monthFromMarch + 2) / 5 + 1
  let month := if monthFromMarch < 10 then monthFromMarch + 3 else monthFromMarch - 9
  ofParts? (yearOfEra + 400 * era + if month ≤ 2 then 1 else 0) month day

end Date

/-! ### Points in time -/

/-- A date and a time of day in UTC. The second 60 is a leap second. -/
structure Timestamp where
  date : Date
  hour : Nat
  minute : Nat
  second : Nat
  nanosecond : Nat
  hour_lt : hour < 24
  minute_lt : minute < 60
  second_le : second ≤ 60
  nanosecond_lt : nanosecond < 1000000000
deriving DecidableEq

namespace Timestamp

/-- The point in time of a date and a time of day, if the time of day exists. -/
def ofParts? (date : Date) (hour minute second nanosecond : Nat) : Option Timestamp :=
  if hh : hour < 24 then
    if hm : minute < 60 then
      if hs : second ≤ 60 then
        if hn : nanosecond < 1000000000 then
          some ⟨date, hour, minute, second, nanosecond, hh, hm, hs, hn⟩
        else none
      else none
    else none
  else none

/-- The start of the year 1970. -/
def epoch : Timestamp :=
  ⟨⟨1970, 1, 1, by decide, by decide, by decide⟩, 0, 0, 0, 0, by decide, by decide, by decide,
    by decide⟩

/-- The point in time so many nanoseconds after the start of the year 1970. -/
def ofNanoseconds? (nanoseconds : Int) : Option Timestamp := do
  let seconds := nanoseconds.fdiv 1000000000
  let date ← Date.ofDays? (seconds.fdiv 86400)
  let inDay := (seconds.fmod 86400).toNat
  ofParts? date (inDay / 3600) (inDay / 60 % 60) (inDay % 60) (nanoseconds.fmod 1000000000).toNat

/-- The point in time `minutes` earlier, for less than a day of minutes, negative for later. -/
def earlierBy? (t : Timestamp) (minutes : Int) : Option Timestamp := do
  let total : Int := t.hour * 60 + t.minute - minutes
  let date ←
    if total < 0 then t.date.previous?
    else if 1440 ≤ total then t.date.next?
    else some t.date
  let inDay := (total % 1440).toNat
  ofParts? date (inDay / 60) (inDay % 60) t.second t.nanosecond

/-! ### Text -/

/-- A number in at least so many digits. -/
def padded (width n : Nat) : List Char :=
  let ds := Decimal.digitChars n
  List.replicate (width - ds.length) '0' ++ ds

/-- A year in at least four digits; one that is negative or has five or more has a sign. -/
def yearText (year : Int) : List Char :=
  if 0 ≤ year ∧ year ≤ 9999 then padded 4 year.toNat
  else (if year < 0 then '-' else '+') :: padded 4 year.natAbs

/-- The decimal places of a second: none, three, six or nine, the fewest that are exact. -/
def fractionText (nanosecond : Nat) : List Char :=
  if nanosecond = 0 then []
  else if nanosecond % 1000000 = 0 then '.' :: padded 3 (nanosecond / 1000000)
  else if nanosecond % 1000 = 0 then '.' :: padded 6 (nanosecond / 1000)
  else '.' :: padded 9 nanosecond

/-- The text of the date. -/
def dateChars (t : Timestamp) : List Char :=
  yearText t.date.year ++ '-' :: padded 2 t.date.month ++ '-' :: padded 2 t.date.day

/-- The text of the time of day, to the second. -/
def timeChars (t : Timestamp) : List Char :=
  padded 2 t.hour ++ ':' :: padded 2 t.minute ++ ':' :: padded 2 t.second

/-- **The text of a point in time,** as `2024-03-01T10:00:00.120Z`. -/
def text (t : Timestamp) : String :=
  String.ofList (t.dateChars ++ 'T' :: t.timeChars ++ fractionText t.nanosecond ++ ['Z'])

/-! ### Reading -/

/-- A number of one digit or more at the head of a text, blanks before it skipped. Only the first
`most` digits belong to it. -/
def number? (most : Nat) (text : List Char) : Option (Nat × List Char) :=
  let text := Text.trimStart text
  let run := (text.take most).takeWhile Char.isDigit
  if run = [] then none else some (Decimal.digitsValue run, text.drop run.length)

/-- A text after a character that must be at its head, blanks before it skipped. -/
def expect? (c : Char) (text : List Char) : Option (List Char) :=
  match Text.trimStart text with
  | c' :: rest => if c' = c then some rest else none
  | [] => none

/-- The year at the head of a text. One with a sign may have any number of digits. -/
def year? (text : List Char) : Option (Int × List Char) :=
  match Text.trimStart text with
  | '-' :: rest => do
    guard (rest.head?.any Char.isDigit)
    let (n, rest) ← number? rest.length rest
    return (-(n : Int), rest)
  | '+' :: rest => do
    guard (rest.head?.any Char.isDigit)
    let (n, rest) ← number? rest.length rest
    return ((n : Int), rest)
  | rest => (number? 4 rest).map fun (n, rest) => ((n : Int), rest)

/-- The nanoseconds of a fraction of a second; digits after the ninth are dropped. -/
def fraction? : List Char → Option (Nat × List Char)
  | '.' :: rest =>
    let (run, rest) := Decimal.spanDigits rest
    if run = [] then none
    else
      let kept := run.take 9
      some (Decimal.digitsValue kept * Nat.pow 10 (9 - kept.length), rest)
  | text => some (0, text)

/-- The two digits at the head of a text. -/
def twoDigits? : List Char → Option (Nat × List Char)
  | a :: b :: rest =>
    if a.isDigit && b.isDigit then some (Decimal.digitsValue [a, b], rest) else none
  | _ => none

/-- The minutes by which local time is ahead of UTC: a letter for none, the word for none, or a
sign, hours and minutes. -/
def offset? (text : List Char) : Option (Int × List Char) :=
  match text with
  | 'Z' :: rest | 'z' :: rest => some (0, rest)
  | _ =>
    if (text.take 3).map Char.toLower = ['u', 't', 'c'] then some (0, text.drop 3)
    else do
      let (negative, rest) ← match text with
        | '+' :: rest => some (false, rest)
        -- The hyphen, and the minus sign proper.
        | '-' :: rest | '−' :: rest => some (true, rest)
        | _ => none
      let (hours, rest) ← twoDigits? rest
      let (minutes, rest) ← twoDigits? (rest.dropWhile fun c => c = ':' || Text.isBlank c)
      guard (hours < 24 ∧ minutes < 60)
      let total : Int := hours * 60 + minutes
      return (if negative then -total else total, rest)

/-- **The point in time that a text denotes:** a date, a letter or a blank, a time of day and an
offset. Single digits need no leading zero, and blanks may stand between the parts. -/
def parse? (text : String) : Option Timestamp := do
  let (year, rest) ← year? text.toList
  let rest ← expect? '-' rest
  let (month, rest) ← number? 2 rest
  let rest ← expect? '-' rest
  let (day, rest) ← number? 2 rest
  let rest ← match rest with
    | 'T' :: rest | 't' :: rest | ' ' :: rest => some rest
    | _ => none
  let (hour, rest) ← number? 2 rest
  let rest ← expect? ':' rest
  let (minute, rest) ← number? 2 rest
  let rest ← expect? ':' rest
  let (second, rest) ← number? 2 rest
  let (nanosecond, rest) ← fraction? rest
  let (offset, rest) ← offset? (Text.trimStart rest)
  guard (Text.trimStart rest = [])
  let date ← Date.ofParts? year month day
  let t ← ofParts? date hour minute second nanosecond
  t.earlierBy? offset

end Timestamp

end Scoresheet
