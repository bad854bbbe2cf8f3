import RealityCore.Library.JavaText

/-!
# The text of an instant

An instant is written as a date and a time in universal time, in the proleptic calendar: at least
four digits for the year, with a sign outside the years 0 to 9999, and no fraction or one of three,
six or nine digits.
-/

namespace Java

/-- `String.valueOf` of a `boolean`. -/
def booleanText (value : Bool) : Text := if value then "true".toList else "false".toList

/-- `String.valueOf` of an `int` that is not negative. -/
def intText (value : ℕ) : Text := Nat.toDigits 10 value

/-- A number with leading zeros up to a width. -/
def padded (width value : ℕ) : Text :=
  List.replicate (width - (Nat.toDigits 10 value).length) '0' ++ Nat.toDigits 10 value

/-- A date of the proleptic calendar. -/
structure Date where
  year : ℤ
  month : ℕ
  day : ℕ
  deriving DecidableEq

/-- `LocalDate.ofEpochDay`: the date of a day that is counted from the start of 1970. The years are
counted from the first of March, in eras of 400 years or 146097 days. -/
def Date.ofEpochDay (epochDay : ℤ) : Date :=
  let marchDay := epochDay + 719468
  let dayOfEra := (marchDay.emod 146097).toNat
  let yearOfEra := (dayOfEra - dayOfEra / 1460 + dayOfEra / 36524 - dayOfEra / 146096) / 365
  let dayOfYear := dayOfEra - (365 * yearOfEra + yearOfEra / 4 - yearOfEra / 100)
  let month := (5 * dayOfYear + 2) / 153
  let year := yearOfEra + marchDay.ediv 146097 * 400
  { year := if month < 10 then year else year + 1
    month := if month < 10 then month + 3 else month - 9
    day := dayOfYear - (153 * month + 2) / 5 + 1 }

/-- The text of a year. -/
def yearText (year : ℤ) : Text :=
  if year < 0 then '-' :: padded 4 year.natAbs
  else if 9999 < year then '+' :: padded 4 year.natAbs
  else padded 4 year.natAbs

/-- The text of a fraction of a second. -/
def fractionText (nano : ℕ) : Text :=
  if nano = 0 then []
  else if nano % 1000000 = 0 then '.' :: padded 3 (nano / 1000000)
  else if nano % 1000 = 0 then '.' :: padded 6 (nano / 1000)
  else '.' :: padded 9 nano

/-- `Instant.toString` -/
def Instant.toText (instant : Instant) : Text :=
  let date := Date.ofEpochDay (instant.epochSecond.ediv 86400)
  let second := (instant.epochSecond.emod 86400).toNat
  yearText date.year ++ '-' :: padded 2 date.month ++ '-' :: padded 2 date.day ++
    'T' :: padded 2 (second / 3600) ++ ':' :: padded 2 (second / 60 % 60) ++
    ':' :: padded 2 (second % 60) ++ fractionText instant.nano ++ ['Z']

/-- A leap day. -/
example : Instant.toText ⟨1709210096, 500000000, by decide, by decide⟩ =
    "2024-02-29T12:34:56.500Z".toList := rfl

/-- The largest instant. -/
example : Instant.toText ⟨31556889864403199, 999999999, by decide, by decide⟩ =
    "+1000000000-12-31T23:59:59.999999999Z".toList := rfl

/-- The smallest instant. -/
example : Instant.toText ⟨-31557014167219200, 0, by decide, by decide⟩ =
    "-1000000000-01-01T00:00:00Z".toList := rfl

end Java
