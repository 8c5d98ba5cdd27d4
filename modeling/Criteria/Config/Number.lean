import Criteria.Binary64

/-
  This file reads numbers from the texts of configurations.

  Key definitions include:
    * `Numeral.unsigned?`
    * `Numeral.signed?`
    * `Numeral.float?`
-/

namespace Criteria

namespace Numeral

/- A number in a base, of one digit or more. -/
def digits?
    (base : Nat)
    (text : List Char) : Option Nat :=
  let digit? := fun (c : Char) =>
    let lower := c.toLower
    let digit :=
      if c.isDigit then some (c.toNat - '0'.toNat)
      else if 'a' ≤ lower ∧ lower ≤ 'f' then
        some (lower.toNat - 'a'.toNat + 10)
      else none
    digit.filter (· < base)
  if text = [] then none
  else
    (text.mapM digit?).map fun digits =>
      digits.foldl (fun n digit => base * n + digit) 0

/- A natural number of sixty-four bits. -/
def unsigned? (text : List Char) : Option Nat :=
  let body :=
    match text with
    | '+' :: rest => rest
    | _ => text
  (digits? 10 body).filter (· < Nat.pow 2 64)

/- An integer of sixty-four bits. -/
def signed? (text : List Char) : Option Int :=
  match text with
  | '-' :: rest =>
      (digits? 10 rest).bind fun n =>
        if n ≤ Nat.pow 2 63 then some (-(n : Int)) else none
  | _ => (unsigned? text).bind fun n =>
      if n < Nat.pow 2 63 then some (n : Int) else none

/- The exponent at the end of a number. -/
def exponent? (text : List Char) : Option Int :=
  match text with
  | [] => some 0
  | c :: rest =>
      if c.toLower = 'e' then
        match rest with
        | '-' :: digits =>
            (digits? 10 digits).map fun n => -(n : Int)
        | '+' :: digits =>
            (digits? 10 digits).map fun n => (n : Int)
        | digits =>
            (digits? 10 digits).map fun n => (n : Int)
      else none

/-
  A number with or without a point and an exponent, after an
  optional sign. There are digits on one side of the point
  at least.
-/
def float? (text : List Char) : Option Binary64 :=
  let negative := text.head? = some '-'
  let body :=
    if negative ∨ text.head? = some '+' then text.drop 1
    else text
  let whole := body.takeWhile Char.isDigit
  let afterWhole := body.dropWhile Char.isDigit
  let hasPoint := afterWhole.head? = some '.'
  let afterPoint :=
    if hasPoint then afterWhole.drop 1 else afterWhole
  let fraction :=
    if hasPoint then afterPoint.takeWhile Char.isDigit
    else []
  let ending := afterPoint.drop fraction.length
  if whole ++ fraction = [] then none
  else
    (exponent? ending).map fun e =>
      let digits := Nat.ofDigitChars 10 (whole ++ fraction) 0
      Binary64.ofDecimal negative digits (e - fraction.length)

end Numeral

end Criteria
