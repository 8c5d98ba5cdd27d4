import Criteria.Text.Blank
import Criteria.Text.Digits

/-
  This file defines times of day to the nanosecond.

  A leap second is the second fifty-nine with a thousand
  million nanoseconds or more.

  Key definitions include:
    * `TimeOfDay.ofParts?`
    * `TimeOfDay.clockChars`
    * `TimeOfDay.ofChars?`
-/

------------------------------------------------------------
-- Times of Day
------------------------------------------------------------

namespace Criteria

namespace TimeOfDay

def secondsPerDay : Nat := 86400

def nanosPerSecond : Nat := 1000000000

end TimeOfDay

structure TimeOfDay where
  second : Nat
  nanosecond : Nat
deriving DecidableEq, Repr

namespace TimeOfDay

/- The time on a clock, where a minute may have a leap second. -/
def ofParts?
    (hour minute second nanosecond : Nat) :
    Option TimeOfDay :=
  if 24 ≤ hour ∨ 60 ≤ minute ∨ 61 ≤ second then none
  else
    let before := hour * 3600 + minute * 60
    if second = 60 then
      some ⟨before + 59, nanosPerSecond + nanosecond⟩
    else some ⟨before + second, nanosecond⟩

------------------------------------------------------------
-- Writing
------------------------------------------------------------

/- Hours, minutes, seconds and microseconds. -/
def clockChars
    (secondOfDay nanosecond : Nat) : List Char :=
  let leap := nanosecond / nanosPerSecond
  let micros := nanosecond % nanosPerSecond / 1000
  Digits.padded 2 (secondOfDay / 3600) ++
    ':' :: Digits.padded 2 (secondOfDay / 60 % 60) ++
    ':' :: Digits.padded 2 (secondOfDay % 60 + leap) ++
    '.' :: Digits.padded 6 micros

def chars (t : TimeOfDay) : List Char :=
  clockChars t.second t.nanosecond

------------------------------------------------------------
-- Reading
------------------------------------------------------------

/- A number of at most two digits with blanks before it. -/
def takeNumber?
    (text : List Char) : Option (Nat × List Char) :=
  Digits.take? 1 2 (Text.skipBlanks text)

def skipColon? (text : List Char) : Option (List Char) :=
  match Text.skipBlanks text with
  | ':' :: rest => some rest
  | _ => none

/- A fraction of a second, if a point comes next. -/
def takeFraction?
    (text : List Char) : Option (Nat × List Char) :=
  match text with
  | '.' :: rest => Digits.nanoseconds? rest
  | _ => some (0, text)

/- The seconds and nanoseconds after the minutes, if any. -/
def takeSeconds?
    (text : List Char) :
    Option ((Nat × Nat) × List Char) :=
  match skipColon? text with
  | none => some ((0, 0), text)
  | some rest => do
      let (second, rest) ← takeNumber? rest
      let (nanosecond, rest) ← takeFraction? rest
      some ((second, nanosecond), rest)

/- The time that a text writes, with or without seconds. -/
def ofChars? (text : List Char) : Option TimeOfDay := do
  let (hour, rest) ← takeNumber? text
  let (minute, rest) ← takeNumber? (← skipColon? rest)
  let ((second, nanosecond), rest) ← takeSeconds? rest
  if Text.skipBlanks rest = [] then
    ofParts? hour minute second nanosecond
  else none

end TimeOfDay

end Criteria
