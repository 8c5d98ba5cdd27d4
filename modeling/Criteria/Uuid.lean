import Criteria.Text.Hex

/-
  This file defines universally unique identifiers, as
  thirty-two hexadecimal digits, and their spellings.

  An identifier is written in five groups joined by hyphens.
  It is read with or without the hyphens, and with them also
  inside braces or after `urn:uuid:`, all in any letter case.

  Key definitions include:
    * `Uuid.chars`
    * `Uuid.ofChars?`
-/

------------------------------------------------------------
-- Identifiers
------------------------------------------------------------

namespace Criteria

structure Uuid where
  digits : List (Fin 16)
  length_eq : digits.length = 32
deriving DecidableEq, Repr

namespace Uuid

/- The lengths of the groups between the hyphens. -/
def groups : List Nat := [8, 4, 4, 4, 12]

------------------------------------------------------------
-- Writing
------------------------------------------------------------

/- Join groups of characters with hyphens. -/
def hyphenated : List Nat → List Char → List Char
  | [], text => text
  | [_], text => text
  | n :: rest, text =>
      text.take n ++ '-' :: hyphenated rest (text.drop n)

def chars (u : Uuid) : List Char :=
  hyphenated groups (u.digits.map Hex.char)

------------------------------------------------------------
-- Reading
------------------------------------------------------------

/- The identifier of thirty-two digits without hyphens. -/
def ofDigits? (text : List Char) : Option Uuid :=
  match text.mapM Hex.value? with
  | none => none
  | some digits =>
      if h : digits.length = 32 then some ⟨digits, h⟩
      else none

/- Take the hyphens out from between the groups. -/
def unhyphenated? : List Nat → List Char → Option (List Char)
  | [], _ => none
  | [n], text => if text.length = n then some text else none
  | n :: rest, text =>
      match text.drop n with
      | '-' :: tail =>
          (unhyphenated? rest tail).map (text.take n ++ ·)
      | _ => none

def ofHyphenated? (text : List Char) : Option Uuid :=
  (unhyphenated? groups text).bind ofDigits?

def ofBraced? (text : List Char) : Option Uuid :=
  match text with
  | '\x7b' :: rest =>
      if rest.getLast? = some '\x7d' then
        ofHyphenated? rest.dropLast
      else none
  | _ => none

/-
  The name space that may stand before an identifier, in any
  letter case like the digits after it.
-/
def urnMark : List Char := "urn:uuid:".toList

def ofUrn? (text : List Char) : Option Uuid :=
  let mark := text.take urnMark.length
  if mark.map Char.toLower = urnMark then
    ofHyphenated? (text.drop urnMark.length)
  else none

/- The identifier that a text spells. -/
def ofChars? (text : List Char) : Option Uuid :=
  ((ofDigits? text).or (ofHyphenated? text)).or
    ((ofBraced? text).or (ofUrn? text))

end Uuid

end Criteria
