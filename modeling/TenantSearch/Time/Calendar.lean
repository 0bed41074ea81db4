-- The proleptic Gregorian calendar over the years 1 to 9999. A day is counted from the
-- first of January of the year 1, which is day 1; a moment is a count of microseconds
-- from its midnight.

namespace TenantSearch

namespace Calendar

def isLeap (year : Nat) : Bool := year % 4 == 0 && (year % 100 != 0 || year % 400 == 0)

def daysInMonth (year month : Nat) : Nat :=
  match month with
  | 2 => if isLeap year then 29 else 28
  | 4 | 6 | 9 | 11 => 30
  | _ => 31

/-- The days before the first of January of a year. -/
def daysBeforeYear (year : Nat) : Nat :=
  let y := year - 1
  y * 365 + y / 4 - y / 100 + y / 400

/-- The days of a year before the first of a month. -/
def daysBeforeMonth (year month : Nat) : Nat :=
  (List.range (month - 1)).foldl (fun n m => n + daysInMonth year (m + 1)) 0

/-- The number of a day. -/
def dayNumber (year month day : Nat) : Nat :=
  daysBeforeYear year + daysBeforeMonth year month + day

/-- A date that exists. -/
def isDate (year month day : Nat) : Bool :=
  1 ≤ year && year ≤ 9999 && 1 ≤ month && month ≤ 12 && 1 ≤ day && day ≤ daysInMonth year month

/-- The month and day of the `left`-th day of a year, counted from nought, from a month on. -/
def monthAndDay (year : Nat) : Nat → Nat → Nat → Nat × Nat
  | 0, month, left => (month, left + 1)
  | fuel + 1, month, left =>
    if left < daysInMonth year month then (month, left + 1)
    else monthAndDay year fuel (month + 1) (left - daysInMonth year month)

/-- The year of a day: the last one that has begun. -/
def yearOf (day : Nat) : Nat :=
  let guess := (day - 1) / 366 + 1
  let later := (List.range 31).takeWhile fun k => daysBeforeYear (guess + k + 1) < day
  guess + later.length

/-- The year, month and day of a day number. -/
def dateOf (day : Nat) : Nat × Nat × Nat :=
  let year := yearOf day
  (year, monthAndDay year 11 1 (day - daysBeforeYear year - 1))

/-- The day of the week of a day, Monday as nought. -/
def weekday (day : Nat) : Nat := (day + 6) % 7

/-- The Monday of the first week of a year, the week that holds its first Thursday. -/
def firstMonday (year : Nat) : Int :=
  let first := dayNumber year 1 1
  let monday := (first : Int) - weekday first
  if 3 < weekday first then monday + 7 else monday

/-- Whether a year has a fifty-third week: it starts on a Thursday, or on a Wednesday in a leap
year. -/
def hasLongYear (year : Nat) : Bool :=
  let first := weekday (dayNumber year 1 1)
  first == 3 || (first == 2 && isLeap year)

/-- The last day that has a number. -/
def lastDay : Nat := dayNumber 9999 12 31

/-- The day of a week date, when there is one. -/
def weekDate? (year week day : Nat) : Option Nat :=
  if 1 ≤ year ∧ year ≤ 9999 ∧ 1 ≤ week ∧ (week ≤ 52 ∨ (week = 53 ∧ hasLongYear year)) ∧
      1 ≤ day ∧ day ≤ 7 then
    let number := firstMonday year + ((week - 1) * 7 + (day - 1) : Nat)
    if 1 ≤ number ∧ number ≤ lastDay then some number.toNat else none
  else none

end Calendar

end TenantSearch
