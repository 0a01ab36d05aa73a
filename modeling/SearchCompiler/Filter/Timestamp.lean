/-!
# Timestamps

Seconds since 1970 as a date and time in UTC, for the years 0 to 9999 of the proleptic Gregorian
calendar.
-/

namespace SearchCompiler.Filter.Timestamp

def daySeconds : Nat := 86400

/-- The seconds from the start of the year 0 to the start of 1970. -/
def epoch : Nat := 62167219200

/-- The days before a year, counted from the year 0. -/
def daysBefore (year : Nat) : Nat :=
  365 * year + (year + 3) / 4 - (year + 99) / 100 + (year + 399) / 400

/-- The year that a day lies in. A quotient by the mean length of a year misses it by one at
most. -/
def yearOf (day : Nat) : Nat :=
  let guess := day * 400 / 146097
  if day < daysBefore guess then guess - 1
  else if daysBefore (guess + 1) ≤ day then guess + 1
  else guess

/-- Whether a year has a 29th of February. -/
def isLeap (year : Nat) : Bool :=
  year % 4 = 0 && (year % 100 ≠ 0 || year % 400 = 0)

def monthLengths (year : Nat) : List Nat :=
  [31, if isLeap year then 29 else 28, 31, 30, 31, 30, 31, 31, 30, 31, 30, 31]

/-- The month and the day of the month, both from one, of a day within the months. -/
def monthAndDay : List Nat → Nat → Nat × Nat
  | [], day => (1, day + 1)
  | length :: rest, day =>
    if day < length then (1, day + 1)
    else
      let (month, inMonth) := monthAndDay rest (day - length)
      (month + 1, inMonth)

/-- The last `width` decimal digits of a number. -/
def padded : Nat → Nat → List Char
  | 0, _ => []
  | width + 1, n => padded width (n / 10) ++ [Nat.digitChar (n % 10)]

/-- The text of a point in time, in seconds from the start of the year 0. -/
def textFrom (seconds : Nat) : List Char :=
  let day := seconds / daySeconds
  let year := yearOf day
  let (month, inMonth) := monthAndDay (monthLengths year) (day - daysBefore year)
  let time := seconds % daySeconds
  padded 4 year ++ '-' :: padded 2 month ++ '-' :: padded 2 inMonth ++ 'T' ::
    padded 2 (time / 3600) ++ ':' :: padded 2 (time / 60 % 60) ++ ':' :: padded 2 (time % 60) ++ ['Z']

/-- The text of a timestamp, such as `2021-01-01T00:00:00Z`, or nothing outside the years 0 to
9999. -/
def text? (timestamp : Int) : Option String :=
  let shifted := timestamp + epoch
  if 0 ≤ shifted ∧ shifted < daySeconds * daysBefore 10000 then
    some (String.ofList (textFrom shifted.toNat))
  else none

end SearchCompiler.Filter.Timestamp
