import Criteria.Schema
import Criteria.Value

/-
  This file defines conditions on rows: predicates on single
  columns, joined by junctions that may be negated.

  Key definitions include:
    * `Predicate`
    * `Condition.negate`
    * `Condition.join`
    * `Condition.combine`
    * `Condition.predicates`
-/

------------------------------------------------------------
-- Predicates
------------------------------------------------------------

namespace Criteria

inductive Comparison where
  | equal
  | notEqual
  | less
  | lessOrEqual
  | greater
  | greaterOrEqual
deriving DecidableEq, Repr

/- A test of one column, or a constant. -/
inductive Predicate where
  | compare
      (column : Column)
      (comparison : Comparison)
      (value : Value)
  | null (column : Column) (negated : Bool)
  | member
      (column : Column)
      (negated : Bool)
      (values : List Value)
  | like
      (column : Column)
      (negated : Bool)
      (mode : MatchMode)
      (pattern : String)
  | element (column : Column) (value : Value)
  | constant (b : Bool)
deriving DecidableEq

namespace Predicate

/- The values that a predicate binds, as they are written. -/
def values : Predicate → List Value
  | .compare _ _ value => [value]
  | .null _ _ => []
  | .member _ _ values => values
  | .like _ _ _ pattern => [.string pattern]
  | .element _ value => [value]
  | .constant _ => []

end Predicate

------------------------------------------------------------
-- Conditions
------------------------------------------------------------

inductive Junction where
  | all
  | any
deriving DecidableEq, Repr

inductive Condition where
  | predicate (p : Predicate)
  | junction
      (negated : Bool)
      (kind : Junction)
      (parts : List Condition)
deriving BEq

namespace Condition

/- A junction of one predicate. -/
def single (p : Predicate) : Condition :=
  .junction false .all [.predicate p]

/- A negated junction is negated by taking its mark away. -/
def negate : Condition → Condition
  | .predicate p => .junction true .all [.predicate p]
  | .junction negated kind parts =>
      .junction (!negated) kind parts

def negateIf
    (negated : Bool)
    (c : Condition) : Condition :=
  if negated then c.negate else c

/- What a condition adds to a junction around it. -/
def element : Condition → Condition
  | .junction false _ [c] => c
  | c => c

/- A junction of conditions. -/
def join
    (kind : Junction)
    (parts : List Condition) : Condition :=
  .junction false kind (parts.map element)

/- The conditions as one. A single one stays as it is. -/
def combine
    (kind : Junction) : List Condition → Option Condition
  | [] => none
  | [c] => some c
  | parts => some (join kind parts)

/- The conditions in a junction, however few they are. -/
def wrap
    (kind : Junction) : List Condition → Option Condition
  | [] => none
  | parts => some (join kind parts)

------------------------------------------------------------
-- Views
------------------------------------------------------------

mutual

/- The predicates of a condition, from left to right. -/
def predicates : Condition → List Predicate
  | .predicate p => [p]
  | .junction _ _ parts => partPredicates parts

def partPredicates : List Condition → List Predicate
  | [] => []
  | c :: rest => c.predicates ++ partPredicates rest

end

/- The bound values of a condition, from left to right. -/
def values (c : Condition) : List Value :=
  c.predicates.flatMap Predicate.values

end Condition

end Criteria
