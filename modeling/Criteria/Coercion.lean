import Criteria.Decimal.Reader
import Criteria.Error
import Criteria.Value

/-
  This file turns JSON operands into typed values.

  The kind of a column decides which operands it takes and
  how they are read. An error names the operator that the
  operand was given to.

  Key definitions include:
    * `Coercion.scalar`
    * `Coercion.list`
    * `Coercion.pattern`
-/

------------------------------------------------------------
-- Single Operands
------------------------------------------------------------

namespace Criteria

namespace Coercion

/- The operand has a type that its kind does not take. -/
def mismatch
    {α : Type}
    (op : String)
    (kind : Kind)
    (operand : Json) : Except Error α :=
  .error (.invalidOperand op
    (.mismatch kind operand.shape))

/- A value read from a text, or the refusal of the text. -/
def readable
    {α : Type}
    (op : String)
    (kind : Kind)
    (text : String)
    (wrap : α → Value)
    (read : List Char → Option α) : Except Error Value :=
  match read text.toList with
  | some value => .ok (wrap value)
  | none => .error (.invalidOperand op (.unreadable text kind))

/- The integers of sixty-four bits with a sign. -/
def ofInteger?
    (n : Int) : Option Int64 :=
  if -Int.pow 2 63 ≤ n ∧ n < Int.pow 2 63 then
    some (Int64.ofInt n)
  else none

/- The floating-point number of a number. -/
def toReal : Number → Binary64
  | .integer n => Binary64.ofInt n
  | .float x => x

/-
  The value of an operand for a column of a kind. Integers
  have to be written as such; decimals are read from the
  text of numbers and from strings; the kinds that JSON does
  not have are read from strings.
-/
def scalar
    (op : String)
    (kind : Kind)
    (operand : Json) : Except Error Value :=
  match kind, operand with
  | .string, .string s => .ok (.string s)
  | .integer, .number (.integer n) =>
      match ofInteger? n with
      | some value => .ok (.integer value)
      | none => mismatch op kind operand
  | .real, .number n => .ok (.real (toReal n))
  | .decimal, .number n =>
      readable op kind (String.ofList n.chars) .decimal
        Decimal.ofChars?
  | .decimal, .string s =>
      readable op kind s .decimal Decimal.ofChars?
  | .boolean, .bool b => .ok (.boolean b)
  | .uuid, .string s =>
      readable op kind s .uuid Uuid.ofChars?
  | .instant, .string s =>
      readable op kind s .instant Instant.ofChars?
  | .date, .string s =>
      readable op kind s .date Date.ofChars?
  | .time, .string s =>
      readable op kind s .time TimeOfDay.ofChars?
  | _, _ => mismatch op kind operand

------------------------------------------------------------
-- Lists and Patterns
------------------------------------------------------------

/- The values of the elements of an operand, in order. -/
def list
    (op : String)
    (kind : Kind)
    (operand : Json) : Except Error (List Value) :=
  match operand with
  | .array items => items.mapM (scalar op kind)
  | _ =>
      .error (.invalidOperand op
        (.arrayExpected operand.shape))

/- The text of an operand that has to be a string. -/
def pattern
    (op : String)
    (operand : Json) : Except Error String :=
  match operand with
  | .string s => .ok s
  | _ =>
      .error (.invalidOperand op
        (.stringExpected operand.shape))

end Coercion

end Criteria
