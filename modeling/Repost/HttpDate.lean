import Repost.GoText

namespace HttpDate
open GoText
set_option autoImplicit true

def weekdays : List Bytes :=
  [lit "Sun", lit "Mon", lit "Tue", lit "Wed", lit "Thu", lit "Fri", lit "Sat"]

def months : List Bytes :=
  [lit "Jan", lit "Feb", lit "Mar", lit "Apr", lit "May", lit "Jun",
    lit "Jul", lit "Aug", lit "Sep", lit "Oct", lit "Nov", lit "Dec"]

def isLeap (year : Nat) : Bool :=
  year % 4 == 0 && (year % 100 != 0 || year % 400 == 0)

def daysIn (year month : Nat) : Nat :=
  if month = 2 then (if isLeap year then 29 else 28)
  else if month = 4 ∨ month = 6 ∨ month = 9 ∨ month = 11 then 30
  else 31

/-- Days from 1 January 1970 to the first day of a year. -/
def daysToYear (year : Nat) : Int :=
  let y : Int := (year : Int) - 1
  365 * ((year : Int) - 1970) + (y.fdiv 4 - y.fdiv 100 + y.fdiv 400) - 477

/-- Days before the first day of a month, within its year. -/
def daysBeforeMonth (year : Nat) : Nat → Nat
  | 0 => 0
  | 1 => 0
  | month + 1 => daysBeforeMonth year month + daysIn year month

/-- Days from 1 January 1970 to a date. -/
def daysToDate (year month day : Nat) : Int :=
  daysToYear year + daysBeforeMonth year month + day - 1

/-- The weekday of a day number; 1 January 1970 was a Thursday. -/
def weekday (days : Int) : Nat := ((days + 4).fmod 7).toNat

def slice (s : Bytes) (start length : Nat) : Bytes := (s.drop start).take length

def number (s : Bytes) : Option Nat := if s.all isDigit then digits 10 0 s else none

/-- Seconds since 1970 of a canonical date such as `Sun, 06 Nov 1994 08:49:37 GMT`. -/
def parse (s : Bytes) : Option Int := do
  guard (s.length = 29 ∧ slice s 3 2 = lit ", " ∧ slice s 7 1 = lit " " ∧ slice s 11 1 = lit " " ∧
    slice s 16 1 = lit " " ∧ slice s 19 1 = lit ":" ∧ slice s 22 1 = lit ":" ∧
    slice s 25 4 = lit " GMT")
  let day ← number (slice s 5 2)
  let month := months.idxOf (slice s 8 3) + 1
  let year ← number (slice s 12 4)
  let hour ← number (slice s 17 2)
  let minute ← number (slice s 20 2)
  let second ← number (slice s 23 2)
  guard (month ≤ 12 ∧ 1 ≤ day ∧ day ≤ daysIn year month ∧ hour < 24 ∧ minute < 60 ∧ second < 60)
  let days := daysToDate year month day
  guard (weekdays[weekday days]? = some (slice s 0 3))
  return days * 86400 + (hour * 3600 + minute * 60 + second : Nat)

example : parse (lit "Sun, 06 Nov 1994 08:49:37 GMT") = some 784111777 := by decide +kernel

example : parse (lit "Mon, 06 Nov 1994 08:49:37 GMT") = none := by decide +kernel

end HttpDate
