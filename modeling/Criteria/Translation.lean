import Criteria.Description
import Criteria.Filter.Condition
import Criteria.Query
import Criteria.Settings

/-
  This file translates query descriptions to queries.

  The members of a description are translated one after the
  other, and the first error is the result. Relations are
  descriptions in turn, each one level deeper, and levels are
  bounded as those of filters are.

  Key definitions include:
    * `Translator`
    * `Translator.selectColumns`
    * `Translator.cursorKeys`
    * `Translator.translate`
    * `Translator.translateJson`
-/

------------------------------------------------------------
-- Selections
------------------------------------------------------------

namespace Criteria

structure Translator where
  schema : Schema
  settings : Settings

namespace Translator

/- Columns are selected one by one, by true or false. -/
def selectColumn
    (member : String × Json) :
    Except Error (String × Bool) :=
  match member.2 with
  | .bool b => .ok (member.1, b)
  | .object _ =>
      .error (.unsupportedShape (.nestedSelect member.1))
  | value =>
      .error (.unsupportedShape (.selectFlag member.1 value))

/- The selection by name. Names are not looked up here. -/
def selectColumns
    (members : Json.Members) :
    Except Error (NameMap Bool) := do
  return NameMap.ofList (← members.mapM selectColumn)

------------------------------------------------------------
-- Cursors
------------------------------------------------------------

/- The value of a cursor key, none where it is null. -/
def cursorValue?
    (kind : Kind)
    (value : Json) : Except Error (Option Value) :=
  match value with
  | .null => .ok none
  | _ => return some (← Coercion.scalar "cursor" kind value)

/- A cursor key takes its direction from the sort keys. -/
def cursorKey
    (t : Translator)
    (keys : List SortKey)
    (name : String)
    (value : Json) : Except Error Cursor.Key := do
  let field ← t.schema.resolve name
  let value? ← cursorValue? field.kind value
  let direction :=
    (SortKey.declared? keys name).getD .ascending
  return ⟨name, field.column, direction, value?⟩

/- The one member of a cursor that is not the tiebreaker. -/
def primaryMember
    (tiebreaker : String)
    (members : Json.Members) :
    Except Error (String × Json) :=
  match members.filter fun m => m.1 ≠ tiebreaker with
  | [member] => .ok member
  | [] =>
      match members.find? fun m => m.1 = tiebreaker with
      | some member => .ok member
      | none => .error (.unsupportedShape .emptyCursor)
  | _ =>
      .error (.unsupportedShape (.crowdedCursor tiebreaker))

/-
  The keys of a cursor. The tiebreaker is the second key,
  with a value or without, unless it is the first.
-/
def cursorKeys
    (t : Translator)
    (keys : List SortKey)
    (members : Json.Members) :
    Except Error (Cursor.Key × Option Cursor.Key) := do
  let tiebreaker := t.settings.tiebreaker
  let member ← primaryMember tiebreaker members
  let primary ← t.cursorKey keys member.1 member.2
  if member.1 = tiebreaker then return (primary, none)
  else
    let value := (members.lookup tiebreaker).getD .null
    let secondary ← t.cursorKey keys tiebreaker value
    return (primary, some secondary)

------------------------------------------------------------
-- Descriptions
------------------------------------------------------------

/- The condition of a filter, if there is one. -/
def filterCondition?
    (t : Translator)
    (filter? : Option Json.Members) :
    Except Error (Option Condition) :=
  match filter? with
  | none => .ok none
  | some members => do
      let filter ← Filter.parse t.settings.maxDepth members
      filter.condition? t.schema .conjunctive

def sortTerms
    (t : Translator)
    (keys : List SortKey) : Except Error (List SortTerm) :=
  keys.mapM (SortTerm.resolve t.schema)

/-
  A relation. An object is a description without a filter,
  which `translate` translates; other values stay.
-/
def relation
    (translate : Description → Except Error Query)
    (member : String × Json) :
    Except Error (String × Relation) :=
  match member.2 with
  | .object members => do
      let d ← Description.ofMembers members
      if d.filter.isSome then
        .error (.unsupportedShape (.nestedWhere member.1))
      else
        return (member.1, .nested (← translate d))
  | value => .ok (member.1, .flag value)

def relations?
    (translate : Description → Except Error Query)
    (members? : Option Json.Members) :
    Except Error (Option (NameMap Relation)) :=
  match members? with
  | none => .ok none
  | some members => do
      let entries ← members.mapM (relation translate)
      return some (NameMap.ofList entries)

def columns?
    (members? : Option Json.Members) :
    Except Error (Option (NameMap Bool)) :=
  match members? with
  | none => .ok none
  | some members => return some (← selectColumns members)

/-
  A query that begins after a cursor, where there is one.
  The keys of the cursor replace the order of the query.
-/
def applyCursor
    (t : Translator)
    (keys : List SortKey)
    (cursor? : Option Json.Members)
    (q : Query) : Except Error Query :=
  match cursor? with
  | none => .ok q
  | some members => do
      let (primary, secondary) ← t.cursorKeys keys members
      let page :=
        Cursor.paginate q.condition q.limit primary secondary
      return { q with
        condition := page.condition
        order := page.order
        limit := page.limit }

/-
  Translate a description with `levels` levels left, its own
  included.
-/
def translateWithin
    (t : Translator)
    (levels : Nat)
    (d : Description) : Except Error Query :=
  match levels with
  | 0 => .error (.nestingTooDeep t.settings.maxDepth)
  | levels + 1 => do
      let condition ← t.filterCondition? d.filter
      let relations ←
        relations? (t.translateWithin levels) d.relations
      let columns ← columns? d.selection
      let keys ← d.sortKeys
      let order ← t.sortTerms keys
      t.applyCursor keys d.cursor
        { condition := condition
          relations := relations
          columns := columns
          limit := d.take
          offset := d.skip
          order := order }

def translate
    (t : Translator)
    (d : Description) : Except Error Query :=
  t.translateWithin t.settings.maxDepth d

/- Read a description and translate it. -/
def translateJson
    (t : Translator)
    (value : Json) : Except Error Query := do
  t.translate (← Description.ofJson value)

end Translator

end Criteria
