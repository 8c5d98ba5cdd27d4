/-
  This file reads and writes runs of decimal digits.

  Key definitions include:
    * `Digits.take?`
    * `Digits.nanoseconds?`
    * `Digits.padded`
-/

namespace Criteria

namespace Digits

/-
  The number at the start of a text: at least `least` digits,
  of which at most `most` are read.
-/
def take?
    (least most : Nat)
    (text : List Char) : Option (Nat × List Char) :=
  let digits := (text.take most).takeWhile Char.isDigit
  if digits.length < least then none
  else
    some (Nat.ofDigitChars 10 digits 0,
      text.drop digits.length)

/- The number of all digits at the start of a text. -/
def takeAll?
    (text : List Char) : Option (Nat × List Char) :=
  take? 1 text.length text

/- The digits of a fraction that are kept. -/
def fractionDigits : Nat := 9

/-
  The digits of a fraction of a second, in nanoseconds.
  Digits after the ninth are read and dropped.
-/
def nanoseconds?
    (text : List Char) : Option (Nat × List Char) :=
  let digits := text.takeWhile Char.isDigit
  let kept := digits.take fractionDigits
  if digits = [] then none
  else
    some (Nat.ofDigitChars 10 kept 0 *
        Nat.pow 10 (fractionDigits - kept.length),
      text.drop digits.length)

/- A number with zeros before it up to a width. -/
def padded
    (width n : Nat) : List Char :=
  let digits := Nat.toDigits 10 n
  List.replicate (width - digits.length) '0' ++ digits

end Digits

end Criteria
