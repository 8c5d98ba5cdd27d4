import Criteria.Filter.Resolution

/-
  This file compiles filters to conditions.

  The entries of a filter are joined by its context, and the
  elements under a connective by the connective. What says
  nothing leaves no trace, and the first error in the order
  of the filter is the error of the whole.

  Key definitions include:
    * `Filter.connect`
    * `Filter.condition?`
-/

------------------------------------------------------------
-- Connectives
------------------------------------------------------------

namespace Criteria

namespace Filter

/-
  The conditions under a connective as one. Under `NOT` each
  of them is negated, and they are joined by the context.
-/
def connect
    (op : Connective)
    (context : Context)
    (conditions : List Condition) : Option Condition :=
  match op with
  | .and => Condition.combine .all conditions
  | .or => Condition.combine .any conditions
  | .not =>
      Condition.combine context.junction
        (conditions.map Condition.negate)

/- The condition of a field with a content of its own. -/
def fieldCondition?
    (schema : Schema)
    (context : Context)
    (name : String)
    (content : Content) :
    Except Error (Option Condition) := do
  let field ← schema.resolve name
  match content with
  | .null => return some (.single (.null field.column false))
  | .literal v =>
      return some (← Operator.condition .equals name field
        .sensitive .conjunctive v)
  | .operators operators =>
      operators.condition? name field context.positive
  | _ => .error (.unsupportedShape (.fieldContent name))

------------------------------------------------------------
-- Filters
------------------------------------------------------------

mutual

/- The condition of a filter, if it says anything. -/
def condition?
    (schema : Schema)
    (context : Context) :
    Filter → Except Error (Option Condition)
  | ⟨entries⟩ => do
      let conditions ←
        entryConditions schema context entries
      return Condition.wrap context.junction conditions

/- The conditions of entries that say anything, in order. -/
def entryConditions
    (schema : Schema)
    (context : Context) :
    List (Key × Content) → Except Error (List Condition)
  | [] => .ok []
  | (key, content) :: rest => do
      let condition? ←
        entryCondition? schema context key content
      let conditions ← entryConditions schema context rest
      return condition?.toList ++ conditions

/-
  The condition of one entry. The entries of an object under
  `OR` are alternatives; otherwise an object is read like an
  array of that one object.
-/
def entryCondition?
    (schema : Schema)
    (context : Context)
    (key : Key) :
    Content → Except Error (Option Condition)
  | .branches items =>
      match key with
      | .field name =>
          fieldCondition? schema context name (.branches items)
      | .connective op => do
          let conditions ← itemConditions schema items
          return connect op context conditions
  | .branch item =>
      match key with
      | .field name =>
          fieldCondition? schema context name (.branch item)
      | .connective .or => item.condition? schema .disjunctive
      | .connective op => do
          let condition? ← item.condition? schema .conjunctive
          return connect op context condition?.toList
  | content =>
      match key with
      | .field name =>
          fieldCondition? schema context name content
      | .connective op =>
          .error (.unsupportedShape (.branchContent op))

/- The conditions of elements that say anything, in order. -/
def itemConditions
    (schema : Schema) :
    List Filter → Except Error (List Condition)
  | [] => .ok []
  | item :: rest => do
      let condition? ← item.condition? schema .conjunctive
      let conditions ← itemConditions schema rest
      return condition?.toList ++ conditions

end

end Filter

end Criteria
