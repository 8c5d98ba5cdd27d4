import Criteria.Binary64
import Criteria.Calendar.Instant
import Criteria.Decimal
import Criteria.Kind
import Criteria.Uuid

/-
  This file defines the typed values that are bound to the
  parameters of a statement.

  A value is never NULL. Besides the values of the column
  kinds there are unsigned integers, for limit and offset.
-/

namespace Criteria

inductive Value where
  | string (s : String)
  | integer (n : Int64)
  | unsigned (n : UInt64)
  | real (x : Binary64)
  | boolean (b : Bool)
  | uuid (u : Uuid)
  | decimal (d : Decimal)
  | date (d : Date)
  | time (t : TimeOfDay)
  | instant (t : Instant)
deriving DecidableEq

namespace Value

/- The kind of the columns that a value fits, if any. -/
def kind? : Value → Option Kind
  | .string _ => some .string
  | .integer _ => some .integer
  | .unsigned _ => none
  | .real _ => some .real
  | .boolean _ => some .boolean
  | .uuid _ => some .uuid
  | .decimal _ => some .decimal
  | .date _ => some .date
  | .time _ => some .time
  | .instant _ => some .instant

end Value

end Criteria
