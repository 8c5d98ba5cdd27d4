import Criteria.SortKey

/-
  This file defines query descriptions and reads and writes
  them as JSON.

  A description has up to seven members. It is an object of
  its members in any order, or an array of them in their
  declared order. A member that is null is absent.

  Key definitions include:
    * `Description`
    * `OrderBy.keys`
    * `Description.ofJson`
    * `Description.toJson`
-/

------------------------------------------------------------
-- Sort Orders
------------------------------------------------------------

namespace Criteria

/- Sort directions by field, in one object or in several. -/
inductive OrderBy where
  | single (members : Json.Members)
  | sequence (items : List Json.Members)
deriving Repr, BEq

namespace OrderBy

/- The members of all objects, in order. -/
def members : OrderBy → Json.Members
  | .single members => members
  | .sequence items => items.flatten

def keys (order : OrderBy) : Except Error (List SortKey) :=
  SortKey.ofMembers order.members

end OrderBy

------------------------------------------------------------
-- Descriptions
------------------------------------------------------------

/- A query as it is asked for. -/
structure Description where
  filter : Option Json.Members
  relations : Option Json.Members
  selection : Option Json.Members
  take : Option UInt64
  skip : Option UInt64
  orderBy : Option OrderBy
  cursor : Option Json.Members
deriving Repr, BEq

namespace Description

def empty : Description :=
  { filter := none
    relations := none
    selection := none
    take := none
    skip := none
    orderBy := none
    cursor := none }

/- The sort keys, none if there is no order. -/
def sortKeys
    (d : Description) : Except Error (List SortKey) :=
  match d.orderBy with
  | some order => order.keys
  | none => .ok []

------------------------------------------------------------
-- Members
------------------------------------------------------------

inductive Member where
  | filter
  | relations
  | selection
  | take
  | skip
  | orderBy
  | cursor
deriving DecidableEq, Repr

namespace Member

def name : Member → String
  | .filter => "where"
  | .relations => "include"
  | .selection => "select"
  | .take => "take"
  | .skip => "skip"
  | .orderBy => "orderBy"
  | .cursor => "cursor"

/- The members in their declared order. -/
def all : List Member :=
  [.filter, .relations, .selection, .take, .skip, .orderBy,
    .cursor]

def ofName? (name : String) : Option Member :=
  all.find? fun member => member.name = name

theorem ofName?_name (member : Member) :
    ofName? member.name = some member := by
  cases member <;> decide

/- Each member has one name. -/
theorem ofName?_eq_some_iff
    (name : String)
    (member : Member) :
    ofName? name = some member ↔ name = member.name := by
  constructor
  · intro hFound
    have hName := List.find?_some hFound
    exact (of_decide_eq_true hName).symm
  · rintro rfl
    exact ofName?_name member

end Member

------------------------------------------------------------
-- Reading
------------------------------------------------------------

def fail
    {α : Type}
    (fault : DescriptionFault) : Except Error α :=
  .error (.unsupportedShape (.description fault))

def readMembers (value : Json) : Except Error Json.Members :=
  match value with
  | .object members => .ok members
  | _ => fail (.mismatch value .members)

/- An integer of sixty-four bits without a sign. -/
def readCount (value : Json) : Except Error UInt64 :=
  match value with
  | .number (.integer n) =>
      if n < 0 then fail (.negativeCount n)
      else if n < Int.pow 2 64 then
        .ok (UInt64.ofNat n.toNat)
      else fail (.mismatch value .count)
  | _ => fail (.mismatch value .count)

/- The members of an element of a sort order. -/
def orderElement? : Json → Option Json.Members
  | .object members => some members
  | _ => none

def readOrderBy (value : Json) : Except Error OrderBy :=
  match value with
  | .object members => .ok (.single members)
  | .array items =>
      match items.mapM orderElement? with
      | some sequence => .ok (.sequence sequence)
      | none => fail .orderBy
  | _ => fail .orderBy

/- A description with one more member. -/
def setMember
    (d : Description)
    (member : Member)
    (value : Json) : Except Error Description :=
  match value with
  | .null => .ok d
  | _ =>
      match member with
      | .filter =>
          return { d with filter := ← readMembers value }
      | .relations =>
          return { d with relations := ← readMembers value }
      | .selection =>
          return { d with selection := ← readMembers value }
      | .take => return { d with take := ← readCount value }
      | .skip => return { d with skip := ← readCount value }
      | .orderBy =>
          return { d with orderBy := ← readOrderBy value }
      | .cursor =>
          return { d with cursor := ← readMembers value }

def setNamed
    (d : Description)
    (entry : String × Json) : Except Error Description :=
  match Member.ofName? entry.1 with
  | some member => d.setMember member entry.2
  | none => fail (.unknownMember entry.1)

/- Read an object of members. -/
def ofMembers
    (members : Json.Members) : Except Error Description :=
  members.foldlM setNamed empty

/- Read members by their position. -/
def ofItems
    (items : List Json) : Except Error Description := do
  let d ← (Member.all.zip items).foldlM
    (fun d entry => d.setMember entry.1 entry.2) empty
  if Member.all.length < items.length then
    fail (.tooManyElements items.length)
  else return d

/- The description that a value gives. -/
def ofJson (value : Json) : Except Error Description :=
  match value with
  | .object members => ofMembers members
  | .array items => ofItems items
  | _ => fail (.mismatch value .description)

------------------------------------------------------------
-- Writing
------------------------------------------------------------

def countJson (count : UInt64) : Json :=
  .number (.integer count.toNat)

def orderByJson : OrderBy → Json
  | .single members => .object members
  | .sequence items => .array (items.map .object)

/- The value of a member that is present. -/
def memberJson?
    (d : Description) : Member → Option Json
  | .filter => d.filter.map .object
  | .relations => d.relations.map .object
  | .selection => d.selection.map .object
  | .take => d.take.map countJson
  | .skip => d.skip.map countJson
  | .orderBy => d.orderBy.map orderByJson
  | .cursor => d.cursor.map .object

/- The present members in their declared order. -/
def toMembers (d : Description) : Json.Members :=
  Member.all.filterMap fun member =>
    (d.memberJson? member).map fun value =>
      (member.name, value)

def toJson (d : Description) : Json :=
  .object d.toMembers

end Description

end Criteria
