import Criteria.Text.Blank
import Criteria.Text.Digits

/-
  This file defines civil dates of the proleptic Gregorian
  calendar.

  Key definitions include:
    * `Calendar.daysInMonth`
    * `Calendar.daysBeforeYear`
    * `Calendar.daysFromEpoch`
    * `Calendar.civilOfDays`
    * `Date.chars`
    * `Date.ofChars?`
-/

------------------------------------------------------------
-- Years and Months
------------------------------------------------------------

namespace Criteria

namespace Calendar

/- Every fourth year, of the hundreds only every fourth. -/
def isLeapYear (year : Int) : Bool :=
  year % 4 = 0 ∧ (year % 100 ≠ 0 ∨ year % 400 = 0)

/- The days of a month, none outside of the year. -/
def daysInMonth
    (year : Int)
    (month : Nat) : Nat :=
  match month with
  | 1 | 3 | 5 | 7 | 8 | 10 | 12 => 31
  | 4 | 6 | 9 | 11 => 30
  | 2 => if isLeapYear year then 29 else 28
  | _ => 0

/- The days of the months before a month. -/
def daysBeforeMonth
    (year : Int) : (month : Nat) → Nat
  | 0 => 0
  | month + 1 =>
      daysBeforeMonth year month + daysInMonth year month

/- The days from the first of the year one to a year. -/
def daysBeforeYear (year : Int) : Int :=
  365 * (year - 1) + (year - 1) / 4 - (year - 1) / 100 +
    (year - 1) / 400

/- The first day of 1970, counted from that of the year one. -/
def epoch : Int := 719162

/- The days from the first day of 1970 to a date. -/
def daysFromEpoch
    (year : Int)
    (month day : Nat) : Int :=
  daysBeforeYear year + daysBeforeMonth year month +
    day - 1 - epoch

------------------------------------------------------------
-- Dates of Day Numbers
------------------------------------------------------------

/- Find the month of a day of the year, from a month on. -/
def monthOfDay
    (year : Int)
    (dayOfYear : Nat)
    (month : Nat) : (left : Nat) → Nat × Nat
  | 0 => (month, dayOfYear + 1)
  | left + 1 =>
      let days := daysInMonth year month
      if dayOfYear < days then (month, dayOfYear + 1)
      else
        monthOfDay year (dayOfYear - days) (month + 1) left

/-
  The year, month and day of a number of days after the
  first day of 1970. Four hundred years have 146097 days;
  in them the last day of the last century and the last day
  of the last year of four belong to the year before.
-/
def civilOfDays (days : Int) : Int × Nat × Nat :=
  let since := days + epoch
  let cycle := since / 146097
  let inCycle := since % 146097
  let century := min 3 (inCycle / 36524)
  let inCentury := inCycle - century * 36524
  let quad := inCentury / 1461
  let inQuad := inCentury % 1461
  let single := min 3 (inQuad / 365)
  let year := 400 * cycle + 100 * century + 4 * quad +
    single + 1
  (year,
    monthOfDay year (inQuad - single * 365).toNat 1 11)

end Calendar

------------------------------------------------------------
-- Dates
------------------------------------------------------------

namespace Date

def leastYear : Int := -262143

def mostYear : Int := 262142

/- A day that exists, of a year in range. -/
def IsValid
    (year : Int)
    (month day : Nat) : Prop :=
  leastYear ≤ year ∧ year ≤ mostYear ∧
    1 ≤ day ∧ day ≤ Calendar.daysInMonth year month

instance
    (year : Int)
    (month day : Nat) :
    Decidable (IsValid year month day) :=
  inferInstanceAs (Decidable (_ ∧ _ ∧ _ ∧ _))

end Date

structure Date where
  year : Int
  month : Nat
  day : Nat
  valid : Date.IsValid year month day
deriving DecidableEq, Repr

namespace Date

/- The date of some parts, if there is that day. -/
def ofParts?
    (year : Int)
    (month day : Nat) : Option Date :=
  if h : IsValid year month day then
    some ⟨year, month, day, h⟩
  else none

def daysFromEpoch (d : Date) : Int :=
  Calendar.daysFromEpoch d.year d.month d.day

------------------------------------------------------------
-- Writing
------------------------------------------------------------

/- Years outside of four digits carry a sign. -/
def yearChars (year : Int) : List Char :=
  let digits := Digits.padded 4 year.natAbs
  if year < 0 then '-' :: digits
  else if 9999 < year then '+' :: digits
  else digits

/- A year, a month and a day joined by hyphens. -/
def civilChars
    (year : Int)
    (month day : Nat) : List Char :=
  yearChars year ++ '-' :: Digits.padded 2 month ++
    '-' :: Digits.padded 2 day

def chars (d : Date) : List Char :=
  civilChars d.year d.month d.day

------------------------------------------------------------
-- Reading
------------------------------------------------------------

/-
  A year with a sign has any number of digits, and one
  without a sign at most four.
-/
def takeYear?
    (text : List Char) : Option (Int × List Char) :=
  match text with
  | '-' :: rest =>
      (Digits.takeAll? rest).map fun r => (-(r.1 : Int), r.2)
  | '+' :: rest =>
      (Digits.takeAll? rest).map fun r => ((r.1 : Int), r.2)
  | _ =>
      (Digits.take? 1 4 text).map fun r => ((r.1 : Int), r.2)

/- The text after a hyphen with blanks around it. -/
def skipHyphen? (text : List Char) : Option (List Char) :=
  match Text.skipBlanks text with
  | '-' :: rest => some (Text.skipBlanks rest)
  | _ => none

/- The date that a text writes, with blanks around its parts. -/
def ofChars? (text : List Char) : Option Date := do
  let (year, rest) ← takeYear? (Text.skipBlanks text)
  let (month, rest) ← Digits.take? 1 2 (← skipHyphen? rest)
  let (day, rest) ← Digits.take? 1 2 (← skipHyphen? rest)
  if Text.skipBlanks rest = [] then ofParts? year month day
  else none

end Date

end Criteria
