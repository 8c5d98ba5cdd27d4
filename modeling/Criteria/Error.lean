import Criteria.Json.Printer
import Criteria.Keyword
import Criteria.Kind
import Criteria.Text.Quoted

/-
  This file defines the errors of reading and translating
  query descriptions, as causes, and their messages.

  Key definitions include:
    * `DescriptionFault`, a description of the wrong form
    * `ShapeFault`, a part of the wrong shape
    * `OperandFault`, an operand that its operator refuses
    * `Error`
    * `Error.message`
-/

------------------------------------------------------------
-- Descriptions of the Wrong Form
------------------------------------------------------------

namespace Criteria

/- What a place in a description has to hold. -/
inductive DescriptionPart where
  | description
  | members
  | count
deriving DecidableEq, Repr

def DescriptionPart.label : DescriptionPart → String
  | .description => "struct FindArgs"
  | .members => "a map"
  | .count => "u64"

inductive DescriptionFault where
  | unknownMember (name : String)
  | mismatch (got : Json) (expected : DescriptionPart)
  | negativeCount (n : Int)
  | orderBy
  | tooManyElements (count : Nat)
deriving Repr, BEq

namespace DescriptionFault

/- How a message names a value of the wrong type. -/
def gotText : Json → String
  | .null => "null"
  | .bool true => "boolean `true`"
  | .bool false => "boolean `false`"
  | .number (.integer n) =>
      "integer `" ++ String.ofList (Number.integerChars n) ++
        "`"
  | .number (.float x) =>
      "floating point `" ++ String.ofList (x.chars .json) ++
        "`"
  | .string s => "string " ++ Text.quoted s
  | .array _ => "sequence"
  | .object _ => "map"

def message : DescriptionFault → String
  | .unknownMember name =>
      "unknown field `" ++ name ++ "`, expected one of " ++
        "`where`, `include`, `select`, `take`, `skip`, " ++
        "`orderBy`, `cursor`"
  | .mismatch got expected =>
      "invalid type: " ++ gotText got ++ ", expected " ++
        expected.label
  | .negativeCount n =>
      "invalid value: integer `" ++
        String.ofList (Number.integerChars n) ++
        "`, expected u64"
  | .orderBy =>
      "data did not match any variant of untagged enum " ++
        "OrderByInput"
  | .tooManyElements count =>
      "invalid length " ++
        String.ofList (Nat.toDigits 10 count) ++
        ", expected fewer elements in array"

end DescriptionFault

------------------------------------------------------------
-- Parts of the Wrong Shape
------------------------------------------------------------

inductive ShapeFault where
  | description (fault : DescriptionFault)
  | filter (got : Json)
  | element (op : Connective) (got : Json)
  | branch (op : Connective) (got : Json)
  | branchContent (op : Connective)
  | fieldContent (name : String)
  | direction (field : String) (got : Json)
  | nestedSelect (name : String)
  | selectFlag (name : String) (got : Json)
  | nestedWhere (name : String)
  | emptyCursor
  | crowdedCursor (tiebreaker : String)
deriving Repr, BEq

namespace ShapeFault

def message : ShapeFault → String
  | .description fault => fault.message
  | .filter got =>
      "where must be an object, got " ++ got.compact
  | .element op got =>
      op.word ++ " elements must be objects, got " ++
        got.compact
  | .branch op got =>
      op.word ++ " expects an object or an array of " ++
        "objects, got " ++ got.compact
  | .branchContent op =>
      op.word ++ " expects an object or an array of objects"
  | .fieldContent name =>
      "field '" ++ name ++
        "' cannot hold a nested filter tree"
  | .direction field got =>
      "orderBy direction for '" ++ field ++
        "' must be \"asc\" or \"desc\", got " ++ got.compact
  | .nestedSelect name =>
      "nested select not supported ('" ++ name ++ "')"
  | .selectFlag name got =>
      "select '" ++ name ++ "' must be a boolean, got " ++
        got.compact
  | .nestedWhere name =>
      "include '" ++ name ++
        "': nested where is not supported"
  | .emptyCursor => "cursor must name a field"
  | .crowdedCursor tiebreaker =>
      "cursor accepts one field besides '" ++ tiebreaker ++
        "'"

end ShapeFault

------------------------------------------------------------
-- Refused Operands
------------------------------------------------------------

inductive OperandFault where
  | mode (got : Json)
  | mismatch (expected : Kind) (got : Json.Shape)
  | unreadable (text : String) (expected : Kind)
  | scalarExpected
  | arrayExpected (got : Json.Shape)
  | stringExpected (got : Json.Shape)
  | valueExpected
  | stringColumn (kind : Kind)
  | listColumn (name : String)
  | nestedOperators
deriving Repr, BEq

namespace OperandFault

def message : OperandFault → String
  | .mode got =>
      "expected \"default\" or \"insensitive\", got " ++
        got.compact
  | .mismatch expected got =>
      "expected " ++ expected.label ++ ", got " ++ got.label
  | .unreadable text expected =>
      "'" ++ text ++ "' is not a valid " ++ expected.label
  | .scalarExpected => "expected a scalar value"
  | .arrayExpected got =>
      "expected an array, got " ++ got.label
  | .stringExpected got =>
      "expected a string, got " ++ got.label
  | .valueExpected => "expected a value, got null"
  | .stringColumn kind =>
      "requires a String column, field is " ++ kind.label
  | .listColumn name =>
      "field '" ++ name ++ "' is not a list column"
  | .nestedOperators =>
      "operator objects are only accepted under 'not'"

end OperandFault

------------------------------------------------------------
-- Errors
------------------------------------------------------------

/-
  The one error of a translation. Reading and translating
  stop at the first error and give no partial result.
-/
inductive Error where
  | invalidField (name : String)
  | invalidOperand (op : String) (fault : OperandFault)
  | unsupportedOperator (keyword : String)
  | unsupportedShape (fault : ShapeFault)
  | nestingTooDeep (most : Nat)
deriving Repr, BEq

namespace Error

def message : Error → String
  | .invalidField name => "invalid field: " ++ name
  | .invalidOperand op fault =>
      "invalid operand for '" ++ op ++ "': " ++ fault.message
  | .unsupportedOperator keyword =>
      "unsupported operator: " ++ keyword
  | .unsupportedShape fault =>
      "unsupported shape: " ++ fault.message
  | .nestingTooDeep most =>
      "nesting exceeds the maximum depth of " ++
        String.ofList (Nat.toDigits 10 most)

end Error

end Criteria
