import DocStore.Value.Basic

/-! # Calendar text of times

A time is written as a date of the Gregorian calendar and a time of day at offset zero. Years run
from -9999 to 9999; a time outside is written as the nearer end. -/

namespace DocStore

namespace Calendar

/-- A date of the Gregorian calendar. -/
structure Date where
  /-- The year, zero being the year before the year one. -/
  year : Int
  /-- The month, from one. -/
  month : Nat
  /-- The day of the month, from one. -/
  day : Nat

/-- The date of a day counted from 1970-01-01. The year is taken to start in March, so that a leap
day ends it, and years are grouped in eras of 400 years. -/
def Date.ofDays (days : Int) : Date :=
  -- 719468 days lie between the start of March of the year zero and 1970-01-01
  let shifted := days + 719468
  let era := shifted.fdiv 146097
  let dayOfEra := (shifted - era * 146097).toNat
  -- the leap days are taken out: one every 1460 days, none at 36524, and one at 146096
  let yearOfEra := (dayOfEra - dayOfEra / 1460 + dayOfEra / 36524 - dayOfEra / 146096) / 365
  let dayOfYear := dayOfEra - (365 * yearOfEra + yearOfEra / 4 - yearOfEra / 100)
  -- months come in groups of five with 153 days
  let shiftedMonth := (5 * dayOfYear + 2) / 153
  let month := if shiftedMonth < 10 then shiftedMonth + 3 else shiftedMonth - 9
  { year := yearOfEra + era * 400 + (if month ≤ 2 then 1 else 0)
    month := month
    day := dayOfYear - (153 * shiftedMonth + 2) / 5 + 1 }

/-- `n` with at least `width` digits. -/
def padded (width n : Nat) : String :=
  let digits := Nat.toDigits 10 n
  String.ofList (List.replicate (width - digits.length) '0' ++ digits)

/-- Four digits for the year, two for month and day. -/
def Date.toText (date : Date) : String :=
  (if date.year < 0 then "-" else "") ++ padded 4 date.year.natAbs ++ "-" ++
    padded 2 date.month ++ "-" ++ padded 2 date.day

/-- A fraction of a second, given in milliseconds: no trailing zeros, but at least one digit. -/
def fractionText (millis : Nat) : String :=
  let digits := ((padded 3 millis).toList.reverse.dropWhile (· == '0')).reverse
  if digits.isEmpty then "0" else String.ofList digits

/-- Milliseconds of a day. -/
def dayMillis : Int := 86400000

/-- The first time that can be written, the start of the year -9999. -/
def firstMillis : Int := -377705116800000

/-- The last time that can be written, the end of the year 9999. -/
def lastMillis : Int := 253402300799999

/-- The text of a time within the years that can be written. -/
def textOfMillis (millis : Int) : String :=
  let day := millis.fdiv dayMillis
  let rest := (millis - day * dayMillis).toNat
  let seconds := rest / 1000
  (Date.ofDays day).toText ++ " " ++ toString (seconds / 3600) ++ ":" ++
    padded 2 (seconds / 60 % 60) ++ ":" ++ padded 2 (seconds % 60) ++ "." ++
    fractionText (rest % 1000) ++ " +00:00:00"

end Calendar

/-- The text of a time: date, time of day with the hour unpadded, and the offset zero. -/
def DateTime.toText (t : DateTime) : String :=
  let millis := t.millis.toInt
  if millis < Calendar.firstMillis then "-9999-01-01 0:00:00.0 +00:00:00"
  else if Calendar.lastMillis < millis then "9999-12-31 23:59:59.999999999 +00:00:00"
  else Calendar.textOfMillis millis

end DocStore
