import Criteria.Proofs.FilterReordering

/-
  This file proves that a filter depends on what stands at a
  place in it only by what that compiles to.

  A place is where an entry stands in a filter, or an operator
  in an operator object, at any depth. Errors are compared by
  a reading of them, so that one proof serves both for entries
  that compile to the same, errors included, and for entries
  that differ in what their errors name.

  Key definitions include:
    * `Filter.OperatorPlace.fill`
    * `Filter.Place.fill`

  Main statements:
    * `Filter.OperatorPlace.mapError_condition?_fill`
    * `Filter.Place.mapError_condition?_fill`
-/

------------------------------------------------------------
-- Places of Operators
------------------------------------------------------------

namespace Criteria

namespace Filter

open Except

/- Where an operator stands in an operator object. -/
inductive OperatorPlace where
  | here
      (mode : MatchMode)
      (before after : List (Operator × Operand))
  | nested
      (mode : MatchMode)
      (before : List (Operator × Operand))
      (op : Operator)
      (inner : OperatorPlace)
      (after : List (Operator × Operand))

namespace OperatorPlace

variable {name : String}
variable {field : Field}
variable {read : Error → Error}
variable {entry other : Operator × Operand}

/- The object with an operator at the place. -/
def fill
    (entry : Operator × Operand) : OperatorPlace → Operators
  | .here mode before after => ⟨mode, before ++ entry :: after⟩
  | .nested mode before op inner after =>
      ⟨mode, before ++
        (op, .nested (inner.fill entry)) :: after⟩

/- Operators compile alike beside the same operators. -/
private theorem mapError_condition?_beside
    (hSame : ∀ mode context,
      (entry.2.condition name field mode context
          entry.1).mapError read =
        (other.2.condition name field mode context
          other.1).mapError read)
    (mode : MatchMode)
    (before after : List (Operator × Operand))
    (context : Context) :
    (Operators.condition? name field context
        ⟨mode, before ++ entry :: after⟩).mapError read =
      (Operators.condition? name field context
        ⟨mode, before ++ other :: after⟩).mapError read := by
  simp only [Operators.condition?, operatorConditions_eq_mapM,
    mapError_bind, mapError_mapM, List.mapM_append,
    List.mapM_cons, hSame]

/- So an object depends only on what the operator gives. -/
theorem mapError_condition?_fill
    (hSame : ∀ mode context,
      (entry.2.condition name field mode context
          entry.1).mapError read =
        (other.2.condition name field mode context
          other.1).mapError read)
    (place : OperatorPlace)
    (context : Context) :
    ((place.fill entry).condition? name field
        context).mapError read =
      ((place.fill other).condition? name field
        context).mapError read := by
  induction place generalizing context with
  | here mode before after =>
      exact mapError_condition?_beside hSame mode before after
        context
  | nested mode before op inner after ih =>
      apply mapError_condition?_beside
      intro mode context
      cases op with
      | not =>
          simp only [Operand.condition, mapError_bind, ih]
      | _ => rfl

end OperatorPlace

------------------------------------------------------------
-- Places of Entries
------------------------------------------------------------

/-
  Where an entry stands in a filter. The filters around it
  may be under a field, too, where they are refused.
-/
inductive Place where
  | here (before after : List (Key × Content))
  | branch
      (before : List (Key × Content))
      (key : Key)
      (inner : Place)
      (after : List (Key × Content))
  | branches
      (before : List (Key × Content))
      (key : Key)
      (earlier : List Filter)
      (inner : Place)
      (later : List Filter)
      (after : List (Key × Content))

namespace Place

variable {schema : Schema}
variable {read : Error → Error}
variable {entry other : Key × Content}

/- The filter with an entry at the place. -/
def fill (entry : Key × Content) : Place → Filter
  | .here before after => ⟨before ++ entry :: after⟩
  | .branch before key inner after =>
      ⟨before ++ (key, .branch (inner.fill entry)) :: after⟩
  | .branches before key earlier inner later after =>
      ⟨before ++
        (key, .branches
          (earlier ++ inner.fill entry :: later)) :: after⟩

private theorem mapError_condition?_amid
    (hSame : ∀ context,
      (entryCondition? schema context entry.1
          entry.2).mapError read =
        (entryCondition? schema context other.1
          other.2).mapError read)
    (before after : List (Key × Content))
    (context : Context) :
    (condition? schema context
        ⟨before ++ entry :: after⟩).mapError read =
      (condition? schema context
        ⟨before ++ other :: after⟩).mapError read := by
  simp only [condition?, entryConditions_eq_mapM,
    mapError_bind, mapError_map, mapError_mapM,
    List.mapM_append, List.mapM_cons, hSame]

/-
  A filter depends only on what the entry at a place of it
  compiles to, in the context of that place.
-/
theorem mapError_condition?_fill
    (hSame : ∀ context,
      (entryCondition? schema context entry.1
          entry.2).mapError read =
        (entryCondition? schema context other.1
          other.2).mapError read)
    (place : Place)
    (context : Context) :
    ((place.fill entry).condition? schema
        context).mapError read =
      ((place.fill other).condition? schema
        context).mapError read := by
  induction place generalizing context with
  | here before after =>
      exact mapError_condition?_amid hSame before after context
  | branch before key inner after ih =>
      apply mapError_condition?_amid
      intro context
      cases key with
      | field name => rfl
      | connective op =>
          cases op with
          | or => exact ih .disjunctive
          | and | not =>
              simp only [entryCondition?, mapError_bind, ih]
  | branches before key earlier inner later after ih =>
      apply mapError_condition?_amid
      intro context
      cases key with
      | field name => rfl
      | connective op =>
          simp only [entryCondition?, itemConditions_eq_mapM,
            mapError_bind, mapError_map, mapError_mapM,
            List.mapM_append, List.mapM_cons, ih]

end Place

end Filter

end Criteria
