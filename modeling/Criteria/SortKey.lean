import Criteria.Error
import Criteria.Schema

/-
  This file defines the sort keys of a query.

  Key definitions include:
    * `SortKey.directionOf`
    * `SortKey.ofMembers`
    * `SortKey.declared?`
    * `SortKey.describe`
    * `SortTerm`
-/

------------------------------------------------------------
-- Sort Keys
------------------------------------------------------------

namespace Criteria

/- A field with the direction declared for it. -/
structure SortKey where
  field : String
  direction : Direction
deriving DecidableEq, Repr

namespace SortKey

/- The direction that a value gives to a field. -/
def directionOf
    (field : String)
    (value : Json) : Except Error Direction :=
  let direction? :=
    match value with
    | .string word => Direction.ofWord? word
    | _ => none
  match direction? with
  | some direction => .ok direction
  | none =>
      .error (.unsupportedShape (.direction field value))

def ofMember
    (member : String × Json) : Except Error SortKey := do
  return ⟨member.1, ← directionOf member.1 member.2⟩

/- One key per member, in order. -/
def ofMembers
    (members : Json.Members) :
    Except Error (List SortKey) :=
  members.mapM ofMember

/- The direction of a field by its first declaration. -/
def declared?
    (keys : List SortKey)
    (field : String) : Option Direction :=
  (keys.find? fun key => key.field = field).map direction

def text (key : SortKey) : String :=
  key.field ++ " " ++ key.direction.word

/- The keys in words. -/
def describe (keys : List SortKey) : String :=
  match keys with
  | [] => "(none)"
  | _ => ", ".intercalate (keys.map text)

end SortKey

------------------------------------------------------------
-- Sort Terms
------------------------------------------------------------

/- A sort key with the column of its field. -/
structure SortTerm where
  field : String
  column : Column
  direction : Direction
deriving DecidableEq, Repr

namespace SortTerm

def resolve
    (schema : Schema)
    (key : SortKey) : Except Error SortTerm := do
  let field ← schema.resolve key.field
  return ⟨key.field, field.column, key.direction⟩

end SortTerm

end Criteria
