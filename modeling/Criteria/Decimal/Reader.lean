import Criteria.Decimal

/-
  This file reads decimals from plain and from scientific
  notation.

  Plain notation is read digit by digit. Before the point a
  coefficient that grows too large is refused. After it the
  first digit that does not fit any more rounds the
  coefficient, half away from zero, and the digits that
  follow have no effect. An underscore stands in for that
  digit, and rounds nothing, where the coefficient is small.

  Key definitions include:
    * `Decimal.ofPlain?`
    * `Decimal.ofScientific?`
    * `Decimal.ofChars?`
-/

------------------------------------------------------------
-- Plain Notation
------------------------------------------------------------

namespace Criteria

namespace Decimal

/- What has been read of an unsigned number. -/
structure Progress where
  coefficient : Nat
  scale : Nat
  afterPoint : Bool
  hasDigit : Bool
deriving DecidableEq, Repr

namespace Progress

def start : Progress :=
  ⟨0, 0, false, false⟩

/- The coefficient with one more digit. -/
def extended
    (p : Progress)
    (digit : Nat) : Nat :=
  10 * p.coefficient + digit

/- There is no room for a further fraction digit. -/
def isFull
    (p : Progress)
    (digit : Nat) : Bool :=
  coefficientBound ≤ p.extended digit ∨ mostScale ≤ p.scale

/-
  All fraction digits are there, and the digits before the
  last one form a number so small that any digit could have
  followed it within sixty-four bits, with a byte to spare.
-/
def isSmallAndFull (p : Progress) : Bool :=
  p.scale = mostScale ∧
    p.coefficient / 10 < (Nat.pow 2 64 - 1) / 10 - 255

def push
    (p : Progress)
    (digit : Nat) : Progress :=
  { p with
    coefficient := p.extended digit
    scale := if p.afterPoint then p.scale + 1 else p.scale
    hasDigit := true }

/-
  The coefficient rounded by the first digit left out. When
  it grows out of range it gives up one fraction digit, and
  without one the number is refused.
-/
def rounded?
    (p : Progress)
    (digit : Nat) : Option Progress :=
  if digit < 5 then some p
  else if p.coefficient + 1 < coefficientBound then
    some { p with coefficient := p.coefficient + 1 }
  else if p.scale = 0 then none
  else
    some { p with
      coefficient := (p.coefficient + 1 + 4) / 10
      scale := p.scale - 1 }

end Progress

def digitOf (c : Char) : Nat :=
  c.toNat - '0'.toNat

/- Digits that no longer have an effect. -/
def isIgnorable (text : List Char) : Bool :=
  text.all fun c => c.isDigit || c = '_'

/-
  Read an unsigned number. There is at most one point. An
  underscore is skipped once there is a digit; right after
  the last fraction digit of a small coefficient it ends the
  number instead.
-/
def scan?
    (text : List Char)
    (p : Progress) : Option Progress :=
  match text with
  | [] => if p.hasDigit then some p else none
  | c :: rest =>
      if c.isDigit then
        let digit := digitOf c
        if p.afterPoint then
          if p.isFull digit then
            if isIgnorable rest then p.rounded? digit
            else none
          else scan? rest (p.push digit)
        else if coefficientBound ≤ p.extended digit then none
        else scan? rest (p.push digit)
      else if c = '.' then
        if p.afterPoint then none
        else scan? rest { p with afterPoint := true }
      else if c = '_' then
        if p.isSmallAndFull then
          if isIgnorable rest then some p else none
        else if p.hasDigit then scan? rest p
        else none
      else none

/- A sign, if there is one, and the rest of a text. -/
def splitSign (text : List Char) : Bool × List Char :=
  match text with
  | '-' :: rest => (true, rest)
  | '+' :: rest => (false, rest)
  | _ => (false, text)

/- The decimal of a plain notation. Zero has no sign. -/
def ofPlain? (text : List Char) : Option Decimal := do
  let (negative, unsigned) := splitSign text
  let p ← scan? unsigned .start
  ofParts? (negative && p.coefficient ≠ 0)
    p.coefficient p.scale

------------------------------------------------------------
-- Scientific Notation
------------------------------------------------------------

def isExponentMark (c : Char) : Bool :=
  c = 'e' || c = 'E'

/- A number of digits only, after an optional plus sign. -/
def unsignedOf? (text : List Char) : Option Nat :=
  let digits :=
    match text with
    | '+' :: rest => rest
    | _ => text
  if digits ≠ [] ∧ digits.all Char.isDigit then
    some (Nat.ofDigitChars 10 digits 0)
  else none

/- A coefficient without its last digits, half rounded up. -/
def dropDigits
    (coefficient count : Nat) : Nat :=
  (2 * coefficient + Nat.pow 10 count) /
    (2 * Nat.pow 10 count)

/-
  Move the point `n` places to the left. Fraction digits
  that do not fit round the coefficient, and the sign stays
  even if nothing is left.
-/
def shiftLeft?
    (d : Decimal)
    (n : Nat) : Option Decimal :=
  if mostScale < n then none
  else if d.scale + n ≤ mostScale then
    ofParts? d.negative d.coefficient (d.scale + n)
  else
    ofParts? d.negative
      (dropDigits d.coefficient (d.scale + n - mostScale))
      mostScale

/-
  Move the point `n` places to the right. Past the fraction
  digits the coefficient grows.
-/
def shiftRight?
    (d : Decimal)
    (n : Nat) : Option Decimal :=
  if n ≤ d.scale then
    ofParts? d.negative d.coefficient (d.scale - n)
  else if mostScale < n then none
  else
    ofParts? d.negative
      (d.coefficient * Nat.pow 10 (n - d.scale)) 0

/- The decimal of a base and an exponent of ten. -/
def ofScientific? (text : List Char) : Option Decimal := do
  let base := text.takeWhile fun c => !isExponentMark c
  match text.dropWhile fun c => !isExponentMark c with
  | [] => none
  | _ :: '-' :: digits =>
      (← ofPlain? base).shiftLeft? (← unsignedOf? digits)
  | _ :: digits =>
      (← ofPlain? base).shiftRight? (← unsignedOf? digits)

/- The decimal that a text writes, in either notation. -/
def ofChars? (text : List Char) : Option Decimal :=
  (ofPlain? text).or (ofScientific? text)

end Decimal

end Criteria
