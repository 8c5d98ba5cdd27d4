/-
  This file defines white space, by the code points that
  carry the property in the character database.
-/

namespace Criteria

namespace Text

/- Ascending ranges of code points, both ends included. -/
def blankRanges : List (Nat × Nat) :=
  [
    (0x09, 0x0d), (0x20, 0x20), (0x85, 0x85), (0xa0, 0xa0),
    (0x1680, 0x1680), (0x2000, 0x200a), (0x2028, 0x2029),
    (0x202f, 0x202f), (0x205f, 0x205f), (0x3000, 0x3000)
  ]

def isBlank (c : Char) : Bool :=
  blankRanges.any fun range =>
    range.1 ≤ c.toNat && c.toNat ≤ range.2

/- White space within the first half of a byte. -/
def isAsciiBlank (c : Char) : Bool :=
  c = ' ' || c = '\x09' || c = '\x0a' || c = '\x0c' ||
    c = '\x0d'

def skipBlanks (text : List Char) : List Char :=
  text.dropWhile isBlank

/- A text without white space at either end. -/
def trim (text : List Char) : List Char :=
  (skipBlanks (skipBlanks text).reverse).reverse

end Text

end Criteria
