/-
  This file defines the binary floating-point numbers of
  sixty-four bits, as the words that carry them.

  A finite number is read as `mantissa * 2 ^ exponent`. The
  number nearest to a ratio is found in exact arithmetic,
  and of two nearest numbers the one with an even mantissa
  is taken.

  Key definitions include:
    * `Binary64.mantissa`
    * `Binary64.exponent`
    * `Binary64.nearestMagnitude`
    * `Binary64.ofDecimal`
    * `Binary64.ofInt`
-/

------------------------------------------------------------
-- Words and Their Parts
------------------------------------------------------------

namespace Criteria

structure Binary64 where
  bits : UInt64
deriving DecidableEq, Repr

namespace Binary64

/- The number of bits below the exponent field. -/
def fractionBits : Nat := 52

/- The exponent of the smallest positive number. -/
def leastExponent : Int := -1074

/- Exponent and fraction fields of infinity. -/
def infiniteMagnitude : Nat := 2047 * Nat.pow 2 fractionBits

/- Build a word from its sign and its other bits. -/
def ofParts
    (negative : Bool)
    (magnitude : Nat) : Binary64 :=
  ⟨UInt64.ofNat (negative.toNat * Nat.pow 2 63 + magnitude)⟩

def isNegative (x : Binary64) : Bool :=
  Nat.pow 2 63 ≤ x.bits.toNat

/- All bits but the sign. Larger magnitudes are larger numbers. -/
def magnitude (x : Binary64) : Nat :=
  x.bits.toNat % Nat.pow 2 63

def exponentField (x : Binary64) : Nat :=
  x.magnitude / Nat.pow 2 fractionBits

def fractionField (x : Binary64) : Nat :=
  x.magnitude % Nat.pow 2 fractionBits

def isInfinite (x : Binary64) : Bool :=
  x.magnitude = infiniteMagnitude

def isNaN (x : Binary64) : Bool :=
  infiniteMagnitude < x.magnitude

/- The integer mantissa, with its leading bit made explicit. -/
def mantissa (x : Binary64) : Nat :=
  if x.exponentField = 0 then x.fractionField
  else Nat.pow 2 fractionBits + x.fractionField

/- The power of two that the mantissa counts. -/
def exponent (x : Binary64) : Int :=
  if x.exponentField = 0 then leastExponent
  else leastExponent + (x.exponentField - 1 : Nat)

------------------------------------------------------------
-- Rounding to Nearest
------------------------------------------------------------

/- A ratio rounded to an integer, ties to even. -/
def roundHalfEven (num den : Nat) : Nat :=
  let quotient := num / den
  let doubled := 2 * (num % den)
  if doubled < den then quotient
  else if den < doubled then quotient + 1
  else quotient + quotient % 2

/- `num / den` divided by `2 ^ e`, as a pair of naturals. -/
def scaleByPower
    (num den : Nat)
    (e : Int) : Nat × Nat :=
  if e < 0 then (num * Nat.pow 2 e.natAbs, den)
  else (num, den * Nat.pow 2 e.natAbs)

/-
  The exponent at which `num / den` has a mantissa of
  fifty-three bits, or the least exponent if that is larger.
-/
def exponentFor (num den : Nat) : Int :=
  let estimate : Int := (num.log2 : Int) - den.log2 - 53
  let scaled := scaleByPower num den estimate
  let exact :=
    if scaled.1 / scaled.2 < Nat.pow 2 (fractionBits + 1)
    then estimate else estimate + 1
  max leastExponent exact

/-
  The magnitude nearest to `num / den`. A mantissa that
  rounds up to fifty-four bits carries into the exponent
  field, which is the number meant.
-/
def nearestMagnitude (num den : Nat) : Nat :=
  if num = 0 then 0
  else
    let e := exponentFor num den
    let scaled := scaleByPower num den e
    let m := roundHalfEven scaled.1 scaled.2
    min infiniteMagnitude
      ((e - leastExponent).toNat * Nat.pow 2 fractionBits +
        m)

def ofRatio
    (negative : Bool)
    (num den : Nat) : Binary64 :=
  ofParts negative (nearestMagnitude num den)

------------------------------------------------------------
-- Numbers from Decimal Notation
------------------------------------------------------------

/-
  Powers of ten beyond this many places are decided without
  computing them: they are infinite or zero.
-/
def decimalReach : Int := 400

/- The number nearest to `digits * 10 ^ e`. -/
def ofDecimal
    (negative : Bool)
    (digits : Nat)
    (e : Int) : Binary64 :=
  let place : Int := (Nat.toDigits 10 digits).length + e
  if digits = 0 ∨ place < -decimalReach then
    ofParts negative 0
  else if decimalReach < place then
    ofParts negative infiniteMagnitude
  else if e < 0 then
    ofRatio negative digits (Nat.pow 10 e.natAbs)
  else
    ofRatio negative (digits * Nat.pow 10 e.natAbs) 1

def ofInt (n : Int) : Binary64 :=
  ofRatio (n < 0) n.natAbs 1

end Binary64

end Criteria
