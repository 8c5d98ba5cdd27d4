import Criteria.Text.Invisible

/-
  This file defines the quoted form in which messages show
  a text: quotes and backslashes escaped, and no character
  that would not be seen.
-/

namespace Criteria

namespace Text

/- A character by its code point. -/
def codeEscape (c : Char) : List Char :=
  "\\u\x7b".toList ++ Nat.toDigits 16 c.toNat ++ ['\x7d']

def quotedChar (c : Char) : List Char :=
  match c with
  | '"' => ['\\', '"']
  | '\\' => ['\\', '\\']
  | '\x00' => ['\\', '0']
  | '\x09' => ['\\', 't']
  | '\x0a' => ['\\', 'n']
  | '\x0d' => ['\\', 'r']
  | _ => if isInvisible c then codeEscape c else [c]

def quoted (s : String) : String :=
  String.ofList
    ('"' :: s.toList.flatMap quotedChar ++ ['"'])

end Text

end Criteria
