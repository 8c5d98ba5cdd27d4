/-
  This file defines the kinds of values that a column holds.

  For a list column the kind is that of the elements.
-/

namespace Criteria

inductive Kind where
  | string
  | integer
  | real
  | boolean
  | uuid
  | instant
  | date
  | time
  | decimal
deriving DecidableEq, Repr

namespace Kind

/- The name by which messages call a kind. -/
def label : Kind → String
  | .string => "String"
  | .integer => "I64"
  | .real => "F64"
  | .boolean => "Bool"
  | .uuid => "Uuid"
  | .instant => "DateTimeUtc"
  | .date => "Date"
  | .time => "Time"
  | .decimal => "Decimal"

def all : List Kind :=
  [.string, .integer, .real, .boolean, .uuid, .instant,
    .date, .time, .decimal]

/- The kind of a name. -/
def ofLabel? (label : String) : Option Kind :=
  all.find? fun kind => kind.label = label

end Kind

end Criteria
