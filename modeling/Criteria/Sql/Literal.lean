import Criteria.Binary64.Layout
import Criteria.Sql

/-
  This file defines the literals of values, for statements
  with the values in place.

  Key definitions include:
    * `Value.literal`
    * `Sql.inline`
-/

------------------------------------------------------------
-- Strings
------------------------------------------------------------

namespace Criteria

namespace Sql

/- Characters that a string literal escapes. -/
def literalChar (c : Char) : List Char :=
  match c with
  | '\\' => ['\\', '\\']
  | '"' => ['\\', '"']
  | '\'' => ['\\', '\'']
  | '\x00' => ['\\', '0']
  | '\x08' => ['\\', 'b']
  | '\x09' => ['\\', 't']
  | '\x1a' => ['\\', 'z']
  | '\x0a' => ['\\', 'n']
  | '\x0d' => ['\\', 'r']
  | _ => [c]

/- A literal with escapes in it is marked by a letter. -/
def stringLiteral (s : String) : List Char :=
  let body := s.toList.flatMap literalChar
  let quoted := '\'' :: body ++ ['\'']
  if body.contains '\\' then 'E' :: quoted else quoted

def quotedLiteral (text : List Char) : List Char :=
  '\'' :: text ++ ['\'']

end Sql

------------------------------------------------------------
-- Values
------------------------------------------------------------

def Value.literalChars : Value → List Char
  | .string s => Sql.stringLiteral s
  | .integer n =>
      let digits := Nat.toDigits 10 n.toInt.natAbs
      if n.toInt < 0 then '-' :: digits else digits
  | .unsigned n => Nat.toDigits 10 n.toNat
  | .real x => x.chars .plain
  | .boolean true => "TRUE".toList
  | .boolean false => "FALSE".toList
  | .uuid u => Sql.quotedLiteral u.chars
  | .decimal d => d.chars
  | .date d => Sql.quotedLiteral d.chars
  | .time t => Sql.quotedLiteral t.chars
  | .instant t => Sql.quotedLiteral t.chars

def Value.literal (v : Value) : String :=
  String.ofList v.literalChars

/- The text with every value in its place. -/
def Sql.inline : Sql → String
  | [] => ""
  | .text s :: rest => s ++ Sql.inline rest
  | .value v :: rest => v.literal ++ Sql.inline rest

end Criteria
