import Criteria.Condition
import Criteria.SortKey

/-
  This file defines pages that begin after a cursor.

  The cursor has a primary key and may have a second key that
  decides between rows with equal primary keys. With the
  values `v` and `w` of a row, the rows after it are those
  with

    p past v, or p equal to v and s past w,

  where past means greater for an ascending key and less for
  a descending one.

  Key definitions include:
    * `Cursor.Key.past`
    * `Cursor.boundary?`
    * `Cursor.paginate`
-/

------------------------------------------------------------
-- Keys
------------------------------------------------------------

namespace Criteria

namespace Cursor

/- A sort key with the value after which a page begins. -/
structure Key where
  field : String
  column : Column
  direction : Direction
  value : Option Value
deriving DecidableEq

namespace Key

/- The rows that come strictly after a value. -/
def past
    (key : Key)
    (value : Value) : Predicate :=
  match key.direction with
  | .ascending => .compare key.column .greater value
  | .descending => .compare key.column .less value

def equal
    (key : Key)
    (value : Value) : Predicate :=
  .compare key.column .equal value

def term (key : Key) : SortTerm :=
  ⟨key.field, key.column, key.direction⟩

end Key

------------------------------------------------------------
-- Pages
------------------------------------------------------------

/- The rows after the cursor, if it has a primary value. -/
def boundary?
    (primary : Key)
    (secondary : Option Key) : Option Condition :=
  let tie? := secondary.bind fun key =>
    key.value.map fun value => (key, value)
  match primary.value, tie? with
  | none, _ => none
  | some v, none => some (.single (primary.past v))
  | some v, some (key, w) =>
      some (.join .any
        [.predicate (primary.past v),
          .join .all
            [.predicate (primary.equal v),
              .predicate (key.past w)]])

/- Both conditions, where they are given. -/
def both : Option Condition → Option Condition →
    Option Condition
  | some c, some d => some (.join .all [c, d])
  | some c, none => some c
  | none, d => d

structure Page where
  condition : Option Condition
  order : List SortTerm
  limit : Option UInt64

/-
  The page of a filter after a cursor. Both keys sort it,
  whether they have values or not.
-/
def paginate
    (existing : Option Condition)
    (limit : Option UInt64)
    (primary : Key)
    (secondary : Option Key) : Page :=
  { condition := both existing (boundary? primary secondary)
    order := primary.term :: (secondary.map Key.term).toList
    limit := limit }

end Cursor

end Criteria
