import Criteria.Coercion
import Criteria.Condition
import Criteria.Filter
import Criteria.Pattern

/-
  This file resolves the operators on one field to conditions
  on its column.

  The context of an operator says how it is joined with the
  operators beside it and whether it is negated. Negation is
  pushed into the predicates: equality, membership, patterns
  and tests for NULL have negated forms, and all else is
  negated as a whole.

  Key definitions include:
    * `Context`
    * `Operator.condition`
    * `Operators.condition?`
-/

------------------------------------------------------------
-- Contexts
------------------------------------------------------------

namespace Criteria

/- How a part of a filter is read. -/
inductive Context where
  | conjunctive
  | disjunctive
  | negated
deriving DecidableEq, Repr

namespace Context

def isNegated (context : Context) : Bool :=
  context = .negated

/- Entries are alternatives in a disjunctive context only. -/
def junction : Context → Junction
  | .disjunctive => .any
  | _ => .all

/-
  Operators of one object are alternatives also where they
  are negated, so that the object as a whole is negated.
-/
def operatorJunction : Context → Junction
  | .conjunctive => .all
  | _ => .any

/- The context without negation. -/
def positive : Context → Context
  | .disjunctive => .disjunctive
  | _ => .conjunctive

/- The context of the operators under `not`. -/
def flipped : Context → Context
  | .negated => .conjunctive
  | _ => .negated

end Context

------------------------------------------------------------
-- Checks
------------------------------------------------------------

namespace Operator

def refuse
    {α : Type}
    (op : Operator)
    (fault : OperandFault) : Except Error α :=
  .error (.invalidOperand op.keyword fault)

/- Patterns apply to columns of single strings. -/
def ensureString
    (op : Operator)
    (field : Field) : Except Error Unit :=
  if field.kind ≠ .string ∨ field.isList then
    op.refuse (.stringColumn field.kind)
  else .ok ()

def ensureList
    (op : Operator)
    (name : String)
    (field : Field) : Except Error Unit :=
  if field.isList then .ok ()
  else op.refuse (.listColumn name)

/- An operand that is neither an array nor an object. -/
def scalarValue
    (op : Operator)
    (kind : Kind)
    (operand : Json) : Except Error Value :=
  match operand with
  | .array _ => op.refuse .scalarExpected
  | .object _ => op.refuse .scalarExpected
  | _ => Coercion.scalar op.keyword kind operand

------------------------------------------------------------
-- Single Operators
------------------------------------------------------------

/-
  Equality, or its negation. NULL is equal to nothing, so it
  is tested for instead.
-/
def equality
    (op : Operator)
    (field : Field)
    (positive : Bool)
    (operand : Json) : Except Error Condition :=
  match operand with
  | .null => .ok (.single (.null field.column !positive))
  | _ => do
      let value ← op.scalarValue field.kind operand
      let comparison :=
        if positive then Comparison.equal else .notEqual
      return .single (.compare field.column comparison value)

/- Membership, or its negation. Nothing is in an empty list. -/
def membership
    (op : Operator)
    (field : Field)
    (positive : Bool)
    (operand : Json) : Except Error Condition := do
  let values ← Coercion.list op.keyword field.kind operand
  match values with
  | [] => return .single (.constant !positive)
  | _ =>
      return .single (.member field.column (!positive) values)

def ordering
    (op : Operator)
    (field : Field)
    (comparison : Comparison)
    (negated : Bool)
    (operand : Json) : Except Error Condition := do
  let value ← Coercion.scalar op.keyword field.kind operand
  let p : Predicate := .compare field.column comparison value
  return (Condition.single p).negateIf negated

def matching
    (op : Operator)
    (field : Field)
    (build : String → String)
    (mode : MatchMode)
    (negated : Bool)
    (operand : Json) : Except Error Condition := do
  let text ← Coercion.pattern op.keyword operand
  op.ensureString field
  return .single
    (.like field.column negated mode (build text))

/- One value is an element of a list column. -/
def having
    (op : Operator)
    (name : String)
    (field : Field)
    (negated : Bool)
    (operand : Json) : Except Error Condition := do
  op.ensureList name field
  match operand with
  | .null => op.refuse .valueExpected
  | _ =>
      let value ← op.scalarValue field.kind operand
      return (Condition.single
        (.element field.column value)).negateIf negated

/-
  Every value, or some value, is an element of a list column.
  Every value of no values is, and some value is not.
-/
def havingMany
    (op : Operator)
    (name : String)
    (field : Field)
    (kind : Junction)
    (negated : Bool)
    (operand : Json) : Except Error Condition := do
  op.ensureList name field
  let values ← Coercion.list op.keyword field.kind operand
  let inner :=
    match values with
    | [] => Condition.single (.constant (kind = Junction.all))
    | _ =>
        Condition.join kind
          (values.map fun value =>
            .predicate (.element field.column value))
  return inner.negateIf negated

/- The condition of an operator and a value. -/
def condition
    (op : Operator)
    (name : String)
    (field : Field)
    (mode : MatchMode)
    (context : Context)
    (operand : Json) : Except Error Condition :=
  let negated := context.isNegated
  match op with
  | .not => op.equality field negated operand
  | .equals => op.equality field (!negated) operand
  | .oneOf => op.membership field (!negated) operand
  | .noneOf => op.membership field negated operand
  | .less => op.ordering field .less negated operand
  | .lessOrEqual =>
      op.ordering field .lessOrEqual negated operand
  | .greater => op.ordering field .greater negated operand
  | .greaterOrEqual =>
      op.ordering field .greaterOrEqual negated operand
  | .contains =>
      op.matching field Pattern.containing mode negated
        operand
  | .startsWith =>
      op.matching field Pattern.starting mode negated operand
  | .endsWith =>
      op.matching field Pattern.ending mode negated operand
  | .has => op.having name field negated operand
  | .hasEvery =>
      op.havingMany name field .all negated operand
  | .hasSome =>
      op.havingMany name field .any negated operand

end Operator

------------------------------------------------------------
-- Operator Objects
------------------------------------------------------------

namespace Filter

mutual

/- The condition of an operator object, if it says anything. -/
def Operators.condition?
    (name : String)
    (field : Field)
    (context : Context) :
    Operators → Except Error (Option Condition)
  | ⟨mode, entries⟩ => do
      let conditions ←
        operatorConditions name field mode context entries
      return Condition.combine context.operatorJunction
        conditions

/- The conditions of operators, in order. -/
def operatorConditions
    (name : String)
    (field : Field)
    (mode : MatchMode)
    (context : Context) :
    List (Operator × Operand) →
      Except Error (List Condition)
  | [] => .ok []
  | (op, operand) :: rest => do
      let condition ←
        Operand.condition name field mode context op operand
      let conditions ←
        operatorConditions name field mode context rest
      return condition :: conditions

/-
  The condition of an operator and its operand. Under `not`
  an object of operators is read in the flipped context; one
  that says nothing holds in every row.
-/
def Operand.condition
    (name : String)
    (field : Field)
    (mode : MatchMode)
    (context : Context)
    (op : Operator) :
    Operand → Except Error Condition
  | .value v => op.condition name field mode context v
  | .nested operators =>
      match op with
      | .not => do
          let inner ←
            Operators.condition? name field context.flipped
              operators
          return inner.getD (.single (.constant true))
      | _ => op.refuse .nestedOperators

end

end Filter

end Criteria
