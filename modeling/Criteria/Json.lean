import Criteria.Binary64

/-
  This file defines JSON values.

  The members of an object keep the order in which they were
  written. A number is an integer or a binary floating-point
  number, by the way it was written.

  Key definitions include:
    * `Json`
    * `Json.shape`
    * `Json.Shape.label`
-/

------------------------------------------------------------
-- Values
------------------------------------------------------------

namespace Criteria

inductive Number where
  | integer (n : Int)
  | float (x : Binary64)
deriving DecidableEq, Repr

inductive Json where
  | null
  | bool (b : Bool)
  | number (n : Number)
  | string (s : String)
  | array (items : List Json)
  | object (members : List (String × Json))
deriving Repr, BEq, Inhabited

namespace Json

/- The named values of an object, in the order written. -/
abbrev Members := List (String × Json)

------------------------------------------------------------
-- Shapes
------------------------------------------------------------

inductive Shape where
  | null
  | bool
  | number
  | string
  | array
  | object
deriving DecidableEq, Repr

def Shape.label : Shape → String
  | .null => "null"
  | .bool => "bool"
  | .number => "number"
  | .string => "string"
  | .array => "array"
  | .object => "object"

def shape : Json → Shape
  | .null => .null
  | .bool _ => .bool
  | .number _ => .number
  | .string _ => .string
  | .array _ => .array
  | .object _ => .object

end Json

end Criteria
