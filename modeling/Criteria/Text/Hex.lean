/-
  This file defines hexadecimal digits as characters.
-/

namespace Criteria

namespace Hex

/- The value of a digit, in either letter case. -/
def value? (c : Char) : Option (Fin 16) :=
  match c with
  | '0' => some 0
  | '1' => some 1
  | '2' => some 2
  | '3' => some 3
  | '4' => some 4
  | '5' => some 5
  | '6' => some 6
  | '7' => some 7
  | '8' => some 8
  | '9' => some 9
  | 'a' | 'A' => some 10
  | 'b' | 'B' => some 11
  | 'c' | 'C' => some 12
  | 'd' | 'D' => some 13
  | 'e' | 'E' => some 14
  | 'f' | 'F' => some 15
  | _ => none

/- The digit of a value, in lower case. -/
def char (digit : Fin 16) : Char :=
  Nat.digitChar digit.val

/- Every written digit reads back. -/
theorem value?_char (digit : Fin 16) :
    value? (char digit) = some digit := by
  revert digit
  decide

end Hex

end Criteria
