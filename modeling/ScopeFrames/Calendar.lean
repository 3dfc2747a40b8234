namespace ScopeFrames

structure Timestamp where
  seconds : Int
  nanos : Nat := 0
  deriving DecidableEq

structure Date where
  year : Int
  month : Nat
  day : Nat
  deriving DecidableEq

namespace Calendar

def secondsPerDay : Int := 86400

/-- The date that is so many days after the first of January 1970, in the Gregorian calendar.
Years are counted from March on here, so that a leap day comes last. -/
def dateOfDay (day : Int) : Date :=
  let shifted := day + 719468
  let era := shifted.fdiv 146097
  let dayOfEra := (shifted - era * 146097).toNat
  let yearOfEra :=
    (dayOfEra - dayOfEra / 1460 + dayOfEra / 36524 - dayOfEra / 146096) / 365
  let dayOfYear := dayOfEra - (365 * yearOfEra + yearOfEra / 4 - yearOfEra / 100)
  let monthFromMarch := (5 * dayOfYear + 2) / 153
  let day := dayOfYear - (153 * monthFromMarch + 2) / 5 + 1
  let month := if monthFromMarch < 10 then monthFromMarch + 3 else monthFromMarch - 9
  let year := yearOfEra + era * 400 + (if month ≤ 2 then 1 else 0)
  ⟨year, month, day⟩

def padded (width n : Nat) : String :=
  let digits := toString n
  "".pushn '0' (width - digits.length) ++ digits

def yearText (y : Int) : String :=
  if y < 0 then s!"-{padded 4 y.natAbs}"
  else if 9999 < y then s!"+{padded 4 y.natAbs}"
  else padded 4 y.natAbs

def dateText (d : Date) : String := s!"{yearText d.year}-{padded 2 d.month}-{padded 2 d.day}"

def timeText (second : Nat) : String :=
  s!"{padded 2 (second / 3600)}:{padded 2 (second / 60 % 60)}:{padded 2 (second % 60)}"

def fractionText (nanos : Nat) : String :=
  if nanos = 0 then ""
  else if nanos % 1000000 = 0 then s!".{padded 3 (nanos / 1000000)}"
  else if nanos % 1000 = 0 then s!".{padded 6 (nanos / 1000)}"
  else s!".{padded 9 nanos}"

end Calendar

namespace Timestamp

open Calendar

def date (t : Timestamp) : Date := dateOfDay (t.seconds.fdiv secondsPerDay)

def secondOfDay (t : Timestamp) : Nat := (t.seconds.fmod secondsPerDay).toNat

def text (t : Timestamp) : String := s!"{dateText t.date} {timeText t.secondOfDay} UTC"

def rfc3339 (t : Timestamp) : String :=
  s!"{dateText t.date}T{timeText t.secondOfDay}{fractionText t.nanos}+00:00"

end Timestamp

end ScopeFrames
