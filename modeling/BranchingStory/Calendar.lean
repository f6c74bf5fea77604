/-!
# Moments on the calendar

A moment is counted in microseconds from the beginning of 1970. Its text has the date, the time of day
and the offset of universal time; the fraction of a second is left out if it is zero.
-/

namespace BranchingStory

structure Moment where
  microseconds : Int

structure Date where
  year : Int
  month : Nat
  day : Nat
deriving DecidableEq

namespace Date

/-- The date of a day counted from the beginning of 1970. Years are counted from March, so that the
leap day is the last day of its year, in periods of four hundred years with 146097 days each. -/
def ofDayNumber (day : Int) : Date :=
  let shifted := day + 719468
  let period := shifted.fdiv 146097
  let dayOfPeriod := (shifted.fmod 146097).toNat
  let yearOfPeriod :=
    (dayOfPeriod - dayOfPeriod / 1460 + dayOfPeriod / 36524 - dayOfPeriod / 146096) / 365
  let dayOfYear := dayOfPeriod - (365 * yearOfPeriod + yearOfPeriod / 4 - yearOfPeriod / 100)
  let monthFromMarch := (5 * dayOfYear + 2) / 153
  let month := if monthFromMarch < 10 then monthFromMarch + 3 else monthFromMarch - 9
  { year := period * 400 + yearOfPeriod + if month ≤ 2 then 1 else 0
    month
    day := dayOfYear - (153 * monthFromMarch + 2) / 5 + 1 }

end Date

/-- A number with zeros before it up to a width. -/
def padded (width n : Nat) : String :=
  let digits := toString n
  String.ofList (List.replicate (width - digits.length) '0') ++ digits

namespace Moment

variable (m : Moment)

def microsecondsPerDay : Int := 86400000000

def date : Date := .ofDayNumber (m.microseconds.fdiv microsecondsPerDay)

/-- The microseconds of the day that have gone by. -/
def sinceMidnight : Nat := (m.microseconds.fmod microsecondsPerDay).toNat

def text : String :=
  let seconds := m.sinceMidnight / 1000000
  let fraction := m.sinceMidnight % 1000000
  padded 4 m.date.year.toNat ++ "-" ++ padded 2 m.date.month ++ "-" ++ padded 2 m.date.day ++ "T" ++
    padded 2 (seconds / 3600) ++ ":" ++ padded 2 (seconds / 60 % 60) ++ ":" ++ padded 2 (seconds % 60) ++
    (if fraction = 0 then "" else "." ++ padded 6 fraction) ++ "+00:00"

end Moment
end BranchingStory
