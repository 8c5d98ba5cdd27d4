import Criteria.Config
import Criteria.Config.Number

/-
  This file gives the values of plain scalars in YAML
  documents: a word without quotes may stand for nothing, for
  a truth value or for a number, and else stands for itself.

  Key definitions include:
    * `Yaml.integer?`
    * `Yaml.wordValue`
-/

------------------------------------------------------------
-- Integers
------------------------------------------------------------

namespace Criteria

namespace Yaml

/- Digits after a zero make a text of a number. -/
def isZeroPadded (text : List Char) : Bool :=
  let body :=
    match text with
    | '-' :: rest => rest
    | '+' :: rest => rest
    | _ => text
  1 < body.length && body.head? = some '0' &&
    body.all Char.isDigit

/- An integer in one of the bases that have a mark. -/
def basedDigits? (text : List Char) : Option Nat :=
  match text with
  | '0' :: 'x' :: digits => Numeral.digits? 16 digits
  | '0' :: 'o' :: digits => Numeral.digits? 8 digits
  | '0' :: 'b' :: digits => Numeral.digits? 2 digits
  | _ => Numeral.digits? 10 text

/- An integer, after an optional sign. -/
def integer? (text : List Char) : Option Config :=
  if isZeroPadded text then none
  else
    match text with
    | '-' :: rest =>
        (basedDigits? rest).bind fun n =>
          if n ≤ Nat.pow 2 127 then some (.signed (-n)) else none
    | '+' :: rest =>
        ((basedDigits? rest).filter (· < Nat.pow 2 128)).map
          Config.unsigned
    | _ =>
        ((basedDigits? text).filter (· < Nat.pow 2 128)).map
          Config.unsigned

------------------------------------------------------------
-- Floating-Point Numbers
------------------------------------------------------------

def infinite (negative : Bool) : Binary64 :=
  Binary64.ofParts negative Binary64.infiniteMagnitude

def notANumber : Binary64 :=
  Binary64.ofParts false
    (Binary64.infiniteMagnitude + Nat.pow 2 51)

/- The words for infinity and for what is not a number. -/
def specialFloat? (word : String) : Option Binary64 :=
  let body :=
    if word.startsWith "+" || word.startsWith "-" then
      (word.drop 1).toString
    else word
  if body = ".inf" ∨ body = ".Inf" ∨ body = ".INF" then
    some (infinite (word.startsWith "-"))
  else if word = ".nan" ∨ word = ".NaN" ∨ word = ".NAN" then
    some notANumber
  else none

/- A floating-point number that is finite. -/
def finiteFloat? (text : List Char) : Option Binary64 :=
  if isZeroPadded text then none
  else
    (Numeral.float? text).filter fun x => !x.isInfinite

------------------------------------------------------------
-- Words
------------------------------------------------------------

def isNullWord (word : String) : Bool :=
  word = "" || word = "~" || word = "null" ||
    word = "Null" || word = "NULL"

def isTrueWord (word : String) : Bool :=
  word = "true" || word = "True" || word = "TRUE"

def isFalseWord (word : String) : Bool :=
  word = "false" || word = "False" || word = "FALSE"

/- The value of a plain scalar. -/
def wordValue (word : String) : Config :=
  let text := word.toList
  if isNullWord word then .empty
  else if isTrueWord word then .bool true
  else if isFalseWord word then .bool false
  else
    match integer? text with
    | some n => n
    | none =>
        match (specialFloat? word).or (finiteFloat? text) with
        | some x => .float x
        | none => .text word

end Yaml

end Criteria
