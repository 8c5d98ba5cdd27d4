import Criteria.Calendar.Date
import Criteria.Calendar.TimeOfDay

/-
  This file defines instants, counted from the beginning of
  1970 in universal time, and reads them from civil times
  with an offset.

  Key definitions include:
    * `Instant.ofCivil`
    * `Instant.chars`
    * `Instant.ofChars?`
-/

------------------------------------------------------------
-- Instants
------------------------------------------------------------

namespace Criteria

structure Instant where
  second : Int
  nanosecond : Nat
deriving DecidableEq, Repr

namespace Instant

/- The instant of a civil time at an offset in seconds. -/
def ofCivil
    (date : Date)
    (time : TimeOfDay)
    (offset : Int) : Instant :=
  { second :=
      date.daysFromEpoch * TimeOfDay.secondsPerDay +
        time.second - offset
    nanosecond := time.nanosecond }

------------------------------------------------------------
-- Writing
------------------------------------------------------------

/- The civil time at offset zero, to the microsecond. -/
def chars (t : Instant) : List Char :=
  let civil :=
    Calendar.civilOfDays
      (t.second / TimeOfDay.secondsPerDay)
  let ofDay := (t.second % TimeOfDay.secondsPerDay).toNat
  Date.civilChars civil.1 civil.2.1 civil.2.2 ++
    ' ' :: TimeOfDay.clockChars ofDay t.nanosecond ++
    " +00:00".toList

------------------------------------------------------------
-- Reading
------------------------------------------------------------

/- Exactly so many digits. -/
def takeDigits?
    (count : Nat)
    (text : List Char) : Option (Nat × List Char) :=
  Digits.take? count count text

/- The text after a character that must come next. -/
def skip?
    (c : Char)
    (text : List Char) : Option (List Char) :=
  match text with
  | d :: rest => if d = c then some rest else none
  | [] => none

/- A date and a time are joined by a letter or a space. -/
def skipSeparator? (text : List Char) : Option (List Char) :=
  match text with
  | 'T' :: rest => some rest
  | 't' :: rest => some rest
  | ' ' :: rest => some rest
  | _ => none

def takeDate?
    (text : List Char) : Option (Date × List Char) := do
  let (year, rest) ← takeDigits? 4 text
  let (month, rest) ← takeDigits? 2 (← skip? '-' rest)
  let (day, rest) ← takeDigits? 2 (← skip? '-' rest)
  let date ← Date.ofParts? year month day
  some (date, rest)

def takeTime?
    (text : List Char) : Option (TimeOfDay × List Char) := do
  let (hour, rest) ← takeDigits? 2 text
  let (minute, rest) ← takeDigits? 2 (← skip? ':' rest)
  let (second, rest) ← takeDigits? 2 (← skip? ':' rest)
  let (nanosecond, rest) ← TimeOfDay.takeFraction? rest
  let time ← TimeOfDay.ofParts? hour minute second nanosecond
  some (time, rest)

/- Hours and minutes of an offset, below one day. -/
def offsetOf? (text : List Char) : Option Int := do
  let (hour, rest) ← takeDigits? 2 text
  let (minute, rest) ← takeDigits? 2 (← skip? ':' rest)
  if rest = [] ∧ hour < 24 ∧ minute < 60 then
    some (hour * 3600 + minute * 60 : Nat)
  else none

/-
  The offset that ends an instant: universal time, or a sign
  with hours and minutes. The minus sign has two spellings.
-/
def offset? (text : List Char) : Option Int :=
  match text with
  | ['Z'] => some 0
  | ['z'] => some 0
  | '+' :: rest => offsetOf? rest
  | '-' :: rest => (offsetOf? rest).map (- ·)
  | '\u2212' :: rest => (offsetOf? rest).map (- ·)
  | _ => none

/- The instant that a text of the internet form writes. -/
def ofChars? (text : List Char) : Option Instant := do
  let (date, rest) ← takeDate? text
  let (time, rest) ← takeTime? (← skipSeparator? rest)
  let offset ← offset? rest
  some (ofCivil date time offset)

end Instant

end Criteria
