/-
  This file defines the patterns of LIKE that stand for a
  literal text.

  Key definitions include:
    * `Pattern.escape`
    * `Pattern.containing`
    * `Pattern.starting`
    * `Pattern.ending`
-/

namespace Criteria

namespace Pattern

/- Stands before a character that is meant literally. -/
def escapeMark : Char := '\\'

/- Stands for any text, the empty one included. -/
def anyText : Char := '%'

/- Stands for any one character. -/
def anyChar : Char := '_'

def isSpecial (c : Char) : Bool :=
  c = anyText || c = anyChar || c = escapeMark

def escapeChar (c : Char) : List Char :=
  if isSpecial c then [escapeMark, c] else [c]

/- The pattern of exactly one text. -/
def escapeChars (text : List Char) : List Char :=
  text.flatMap escapeChar

def escape (s : String) : String :=
  String.ofList (escapeChars s.toList)

/- The pattern of the texts with `s` somewhere in them. -/
def containing (s : String) : String :=
  String.ofList
    (anyText :: escapeChars s.toList ++ [anyText])

/- The pattern of the texts that begin with `s`. -/
def starting (s : String) : String :=
  String.ofList (escapeChars s.toList ++ [anyText])

/- The pattern of the texts that end with `s`. -/
def ending (s : String) : String :=
  String.ofList (anyText :: escapeChars s.toList)

end Pattern

end Criteria
