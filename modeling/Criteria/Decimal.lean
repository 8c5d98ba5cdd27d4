/-
  This file defines decimal numbers of ninety-six bits.

  A decimal is a sign, an integer coefficient below `2 ^ 96`
  and a scale, the number of its fraction digits, of at most
  twenty-eight. Numbers that differ in scale only are
  different decimals, written differently.

  Key definitions include:
    * `Decimal`
    * `Decimal.ofParts?`
    * `Decimal.chars`
-/

------------------------------------------------------------
-- Decimals
------------------------------------------------------------

namespace Criteria

namespace Decimal

/- Coefficients are below this bound. -/
def coefficientBound : Nat := Nat.pow 2 96

def mostScale : Nat := 28

end Decimal

structure Decimal where
  negative : Bool
  coefficient : Nat
  scale : Nat
  coefficient_lt : coefficient < Decimal.coefficientBound
  scale_le : scale ≤ Decimal.mostScale
deriving DecidableEq, Repr

namespace Decimal

/- The decimal of some parts, if they are in range. -/
def ofParts?
    (negative : Bool)
    (coefficient scale : Nat) : Option Decimal :=
  if h : coefficient < coefficientBound ∧ scale ≤ mostScale
  then some ⟨negative, coefficient, scale, h.1, h.2⟩
  else none

------------------------------------------------------------
-- Written Decimals
------------------------------------------------------------

/- All fraction digits are written, and a digit before them. -/
def unsignedChars (d : Decimal) : List Char :=
  let digits := Nat.toDigits 10 d.coefficient
  let padded :=
    List.replicate (d.scale + 1 - digits.length) '0' ++
      digits
  let whole := padded.length - d.scale
  if d.scale = 0 then padded
  else padded.take whole ++ '.' :: padded.drop whole

def chars (d : Decimal) : List Char :=
  if d.negative then '-' :: d.unsignedChars
  else d.unsignedChars

end Decimal

end Criteria
