import Criteria.Json
import Criteria.Binary64.Layout

/-
  This file defines the compact text of JSON values: no
  spaces, members in their order, and in strings only the
  escapes that JSON asks for.

  Key definitions include:
    * `Number.chars`
    * `Json.quote`
    * `Json.compact`
-/

------------------------------------------------------------
-- Numbers and Strings
------------------------------------------------------------

namespace Criteria

namespace Number

def integerChars (n : Int) : List Char :=
  let body := Nat.toDigits 10 n.natAbs
  if n < 0 then '-' :: body else body

def chars : Number → List Char
  | .integer n => integerChars n
  | .float x => x.chars .json

end Number

namespace Json

/- A character below a space, as four hexadecimal digits. -/
def escapeCode (c : Char) : List Char :=
  let digits := Nat.toDigits 16 c.toNat
  "\\u".toList ++
    List.replicate (4 - digits.length) '0' ++ digits

/- Quotes, backslashes and control characters are escaped. -/
def escapeChar (c : Char) : List Char :=
  match c with
  | '"' => ['\\', '"']
  | '\\' => ['\\', '\\']
  | '\x08' => ['\\', 'b']
  | '\x09' => ['\\', 't']
  | '\x0a' => ['\\', 'n']
  | '\x0c' => ['\\', 'f']
  | '\x0d' => ['\\', 'r']
  | _ => if c.toNat < 32 then escapeCode c else [c]

def quote (s : String) : List Char :=
  '"' :: s.toList.flatMap escapeChar ++ ['"']

------------------------------------------------------------
-- Values
------------------------------------------------------------

def commaSeparated (texts : List (List Char)) : List Char :=
  List.intercalate [','] texts

mutual

/- The compact text of a value. -/
def chars : Json → List Char
  | .null => "null".toList
  | .bool true => "true".toList
  | .bool false => "false".toList
  | .number n => n.chars
  | .string s => quote s
  | .array items =>
      '[' :: commaSeparated (itemTexts items) ++ [']']
  | .object members =>
      '\x7b' :: commaSeparated (memberTexts members) ++
        ['\x7d']

def itemTexts : List Json → List (List Char)
  | [] => []
  | item :: rest => item.chars :: itemTexts rest

def memberTexts : List (String × Json) → List (List Char)
  | [] => []
  | (name, value) :: rest =>
      (quote name ++ ':' :: value.chars) ::
        memberTexts rest

end

def compact (value : Json) : String :=
  String.ofList value.chars

end Json

end Criteria
