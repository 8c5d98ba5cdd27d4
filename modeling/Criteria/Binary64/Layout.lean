import Criteria.Binary64.Shortest

/-
  This file defines how binary numbers are written.

  There are two layouts over the same shortest digits. JSON
  text changes to an exponent for very small and very large
  numbers; SQL text and messages are always positional.

  Key definitions include:
    * `NumberLayout.json`
    * `NumberLayout.plain`
    * `Binary64.chars`
-/

------------------------------------------------------------
-- Written Numbers
------------------------------------------------------------

namespace Criteria

/-
  How a binary number is written: the powers of ten of the
  first digit that are written out in full, whether a whole
  number keeps a fraction of zero, and the tie of digits.
-/
structure NumberLayout where
  lowest : Int
  highest : Int
  wholeMark : String
  tie : Shortest.Tie
deriving Repr

namespace NumberLayout

/- JSON text writes small powers in full, as a fraction. -/
def json : NumberLayout :=
  { lowest := -5
    highest := 15
    wholeMark := ".0"
    tie := .toEven }

/- SQL text and messages never use an exponent. -/
def plain : NumberLayout :=
  { lowest := -400
    highest := 400
    wholeMark := ""
    tie := .up }

end NumberLayout

namespace Binary64

/- Digits with the point after the digit of `10 ^ 0`. -/
def positional
    (layout : NumberLayout)
    (digits : List Char)
    (leading : Int) : List Char :=
  if leading < 0 then
    "0.".toList ++
      List.replicate (leading.natAbs - 1) '0' ++ digits
  else
    let whole := leading.natAbs + 1
    if digits.length ≤ whole then
      digits ++ List.replicate (whole - digits.length) '0' ++
        layout.wholeMark.toList
    else
      digits.take whole ++ '.' :: digits.drop whole

/- One digit before the point and a signed exponent. -/
def scientific
    (digits : List Char)
    (leading : Int) : List Char :=
  let sign := if leading < 0 then '-' else '+'
  let fraction :=
    match digits.drop 1 with
    | [] => []
    | rest => '.' :: rest
  digits.take 1 ++ fraction ++
    'e' :: sign :: Nat.toDigits 10 leading.natAbs

/- A finite number without its sign. -/
def unsignedChars
    (layout : NumberLayout)
    (x : Binary64) : List Char :=
  if x.mantissa = 0 then '0' :: layout.wholeMark.toList
  else
    let d :=
      Shortest.digits layout.tie x.mantissa x.exponent
    let digits := Nat.toDigits 10 d.digits
    let leading := d.place + (digits.length - 1 : Nat)
    if layout.lowest ≤ leading ∧ leading ≤ layout.highest then
      positional layout digits leading
    else
      scientific digits leading

/- The text of a number in a layout. -/
def chars
    (layout : NumberLayout)
    (x : Binary64) : List Char :=
  if x.isNaN then "NaN".toList
  else
    let body :=
      if x.isInfinite then "inf".toList
      else x.unsignedChars layout
    if x.isNegative then '-' :: body else body

end Binary64

end Criteria
