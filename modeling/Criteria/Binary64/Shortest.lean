import Criteria.Binary64

/-
  This file defines the shortest decimal notation of a
  finite binary number.

  A positive number `m * 2 ^ q` is the nearest one to every
  real of an interval around it. For one digit, two digits
  and so on, the two neighbours of the number on the grid of
  that many digits are tried against the interval. The first
  grid with a hit gives the digits; of two hits the nearer
  one is taken, and a tie is left to the caller.

  Key definitions include:
    * `Shortest.Interval.ofNumber`
    * `Shortest.Interval.hit?`
    * `Shortest.digits`
-/

------------------------------------------------------------
-- Rounding Intervals
------------------------------------------------------------

namespace Criteria

namespace Shortest

/- The choice between two decimals at equal distance. -/
inductive Tie where
  | toEven
  | up
deriving DecidableEq, Repr

/-
  The reals that round to one number, over a common
  denominator: `low`, the number itself and `high`.
-/
structure Interval where
  low : Nat
  value : Nat
  high : Nat
  denominator : Nat
  closed : Bool
deriving Repr

/-
  The interval of `m * 2 ^ q` reaches half way to both
  neighbours. Below a power of two the neighbour is only
  half as far, except at the least exponent. Both ends
  belong to the interval when the mantissa is even.
-/
def Interval.ofNumber
    (m : Nat)
    (q : Int) : Interval :=
  let isPower :=
    m = Nat.pow 2 Binary64.fractionBits ∧
      Binary64.leastExponent < q
  let below := if isPower then 1 else 2
  let unit := if q < 2 then 1 else Nat.pow 2 (q - 2).natAbs
  { low := (4 * m - below) * unit
    value := 4 * m * unit
    high := (4 * m + 2) * unit
    denominator :=
      if q < 2 then Nat.pow 2 (q - 2).natAbs else 1
    closed := m % 2 = 0 }

/- The points `n * 10 ^ place` of a grid, as ratios. -/
structure Grid where
  place : Int
deriving Repr

/- What `n` counts over the denominator of an interval. -/
def Grid.step
    (g : Grid)
    (i : Interval) : Nat :=
  if g.place < 0 then i.denominator
  else i.denominator * Nat.pow 10 g.place.natAbs

/- What the ends of an interval are multiplied with. -/
def Grid.factor (g : Grid) : Nat :=
  if g.place < 0 then Nat.pow 10 g.place.natAbs else 1

def Interval.contains
    (i : Interval)
    (g : Grid)
    (n : Nat) : Bool :=
  let point := n * g.step i
  if i.closed then
    i.low * g.factor ≤ point ∧ point ≤ i.high * g.factor
  else
    i.low * g.factor < point ∧ point < i.high * g.factor

------------------------------------------------------------
-- The First Grid with a Hit
------------------------------------------------------------

/- A decimal number `digits * 10 ^ place`. -/
structure Digits where
  digits : Nat
  place : Int
deriving DecidableEq, Repr

/- No finite number is below ten to the minus this. -/
def deepestPlace : Nat := 340

/- The power of ten of the first digit of an interval's value. -/
def Interval.leadingPlace (i : Interval) : Int :=
  let shifted :=
    i.value * Nat.pow 10 deepestPlace / i.denominator
  ((Nat.toDigits 10 shifted).length : Int) -
    (deepestPlace + 1 : Nat)

/- Choose between the grid points around the value. -/
def Interval.hit?
    (i : Interval)
    (tie : Tie)
    (g : Grid) : Option Nat :=
  let step := g.step i
  let exact := i.value * g.factor
  let below := exact / step
  let above := below + 1
  match i.contains g below, i.contains g above with
  | false, false => none
  | true, false => some below
  | false, true => some above
  | true, true =>
      if 2 * exact < (2 * below + 1) * step then some below
      else if (2 * below + 1) * step < 2 * exact then
        some above
      else
        match tie with
        | .up => some above
        | .toEven =>
            if below % 2 = 0 then some below else some above

/- Seventeen digits tell every number from its neighbours. -/
def mostDigits : Nat := 17

/- Try grids of `mostDigits - left` digits and more. -/
def Interval.search
    (i : Interval)
    (tie : Tie)
    (leading : Int) : (left : Nat) → Digits
  | 0 =>
      let g : Grid := ⟨leading - (mostDigits - 1 : Nat)⟩
      ⟨i.value * g.factor / g.step i, g.place⟩
  | left + 1 =>
      let g : Grid :=
        ⟨leading - (mostDigits - (left + 1) : Nat)⟩
      match i.hit? tie g with
      | some n => ⟨n, g.place⟩
      | none => i.search tie leading left

/- Move zeros at the end of the digits into the place. -/
def Digits.trim
    (d : Digits) : (most : Nat) → Digits
  | 0 => d
  | most + 1 =>
      if d.digits % 10 = 0 ∧ d.digits ≠ 0 then
        Digits.trim ⟨d.digits / 10, d.place + 1⟩ most
      else d

/- The shortest decimal that reads back as `m * 2 ^ q`. -/
def digits
    (tie : Tie)
    (m : Nat)
    (q : Int) : Digits :=
  let i := Interval.ofNumber m q
  (i.search tie i.leadingPlace mostDigits).trim
    (mostDigits + 1)

end Shortest

end Criteria
