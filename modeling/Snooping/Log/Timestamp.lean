import Snooping.Text.Decimal

/-! Dates and times of the Gregorian calendar in UTC. -/
namespace Snooping.Log

structure Date where
  year : Nat
  month : Nat
  day : Nat
deriving DecidableEq

/-- Days from the first of March of the year zero to the first of January 1970. -/
def epochDays : Nat := 719468

/-- Days of 400 years, after which the calendar repeats. -/
def eraDays : Nat := 146097

/-- The date a number of days after the epoch. Years start in March here, so that a leap day is
the last day of its year. -/
def Date.ofEpochDays (days : Nat) : Date :=
  let n := days + epochDays
  let d := n % eraDays
  let y := (d - d / 1460 + d / 36524 - d / 146096) / 365
  let d := d - (365 * y + y / 4 - y / 100)
  let m := (5 * d + 2) / 153
  let month := if m < 10 then m + 3 else m - 9
  let year := n / eraDays * 400 + y
  ⟨if month ≤ 2 then year + 1 else year, month, d - (153 * m + 2) / 5 + 1⟩

namespace Timestamp

/-- Three, six or nine digits, as few as keep every nanosecond; none at a whole second. -/
def fraction (ns : Nat) : List Char :=
  if ns = 0 then []
  else if ns % 1000000 = 0 then '.' :: Text.Decimal.padded 3 (ns / 1000000)
  else if ns % 1000 = 0 then '.' :: Text.Decimal.padded 6 (ns / 1000)
  else '.' :: Text.Decimal.padded 9 ns

/-- The text of a time in nanoseconds since the epoch. -/
def chars (ns : Nat) : List Char :=
  let seconds := ns / 1000000000
  let date := Date.ofEpochDays (seconds / 86400)
  Text.Decimal.padded 4 date.year ++ '-' :: Text.Decimal.padded 2 date.month ++
    '-' :: Text.Decimal.padded 2 date.day ++
    'T' :: Text.Decimal.padded 2 (seconds / 3600 % 24) ++
    ':' :: Text.Decimal.padded 2 (seconds / 60 % 60) ++
    ':' :: Text.Decimal.padded 2 (seconds % 60) ++ fraction (ns % 1000000000) ++
    ['+', '0', '0', ':', '0', '0']

def text (ns : Nat) : String := String.ofList (chars ns)

end Timestamp
end Snooping.Log
