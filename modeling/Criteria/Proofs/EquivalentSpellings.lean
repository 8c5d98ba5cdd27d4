import Criteria.Proofs.FilterPlaces
import Criteria.Proofs.FilterSilence

/-
  This file proves that tests which can be written in several
  ways compile to the same condition in each of them.

  A field that holds a value is the same as one that is equal
  to it. Under `not` a value is the same as equality to it,
  and a list of values refused the same as membership in it.
  These pairs go through operators of their own, which name
  themselves in errors, so they are the same where they are
  accepted. A double negation is the same as none.

  Key definitions include:
    * `Error.unnamed`
    * `Filter.SameEntry`
    * `Filter.SameOperator`

  Main statements:
    * `Coercion.unnamed_scalar`
    * `Filter.Operand.condition_nested_singleton`
    * `Filter.sameEntry_of_eq`
    * `Filter.sameOperator_of_unnamed`
    * `Filter.spellings_agree`
-/

------------------------------------------------------------
-- Errors without Names
------------------------------------------------------------

namespace Criteria

open Except

/- The error without the name of the operator it is about. -/
def Error.unnamed : Error → Error
  | .invalidOperand _ fault => .invalidOperand "" fault
  | e => e

namespace Coercion

variable (op other : String)
variable (kind : Kind)

theorem unnamed_readable
    {α : Type}
    (text : String)
    (wrap : α → Value)
    (read : List Char → Option α) :
    (readable op kind text wrap read).mapError
        Error.unnamed =
      (readable other kind text wrap read).mapError
        Error.unnamed := by
  unfold readable
  cases read text.toList <;> rfl

/- A value is coerced alike for every operator. -/
theorem unnamed_scalar (operand : Json) :
    (scalar op kind operand).mapError Error.unnamed =
      (scalar other kind operand).mapError
        Error.unnamed := by
  unfold scalar
  split
  case h_2 n =>
    cases ofInteger? n <;> rfl
  all_goals
    first
    | rfl
    | exact unnamed_readable op other _ _ _ _

theorem unnamed_list (operand : Json) :
    (list op kind operand).mapError Error.unnamed =
      (list other kind operand).mapError Error.unnamed := by
  cases operand with
  | array items =>
      simp only [list, mapError_mapM,
        unnamed_scalar op other kind]
  | _ => rfl

end Coercion

namespace Operator

variable (op other : Operator)
variable (field : Field)
variable (positive : Bool)

theorem unnamed_equality (operand : Json) :
    (op.equality field positive operand).mapError
        Error.unnamed =
      (other.equality field positive operand).mapError
        Error.unnamed := by
  cases operand with
  | null | array items | object members => rfl
  | _ =>
      simp only [equality, scalarValue, mapError_bind,
        Coercion.unnamed_scalar op.keyword other.keyword]

theorem unnamed_membership (operand : Json) :
    (op.membership field positive operand).mapError
        Error.unnamed =
      (other.membership field positive operand).mapError
        Error.unnamed := by
  simp only [membership, mapError_bind,
    Coercion.unnamed_list op.keyword other.keyword]

end Operator

------------------------------------------------------------
-- Operators under `not`
------------------------------------------------------------

namespace Context

variable (context : Context)

theorem isNegated_flipped :
    context.flipped.isNegated = !context.isNegated := by
  cases context <;> rfl

theorem flipped_flipped :
    context.flipped.flipped =
      if context = .negated then .negated
      else .conjunctive := by
  cases context <;> rfl

end Context

namespace Filter

section Operators

variable (name : String)
variable (field : Field)
variable (mode inner : MatchMode)
variable (context : Context)

/- One operator alone is what an object of it says. -/
theorem Operators.condition?_singleton
    (op : Operator)
    (operand : Operand) :
    Operators.condition? name field context
        ⟨mode, [(op, operand)]⟩ =
      some <$> operand.condition name field mode context
        op := by
  rw [Operators.condition?, operatorConditions,
    operatorConditions]
  cases operand.condition name field mode context op <;> rfl

/- Under `not` it is read in the flipped context. -/
theorem Operand.condition_nested_singleton
    (op : Operator)
    (operand : Operand) :
    (Operand.nested ⟨inner, [(op, operand)]⟩).condition name
        field mode context .not =
      operand.condition name field inner context.flipped
        op := by
  rw [Operand.condition, Operators.condition?_singleton]
  cases operand.condition name field inner context.flipped
    op <;> rfl

/- Not a value is not to be equal to it. -/
theorem Operand.unnamed_not_equals (v : Json) :
    ((Operand.value v).condition name field mode context
        .not).mapError Error.unnamed =
      ((Operand.nested
          ⟨inner, [(.equals, .value v)]⟩).condition name
        field mode context .not).mapError Error.unnamed := by
  rw [Operand.condition_nested_singleton]
  simp only [Operand.condition, Operator.condition,
    Context.isNegated_flipped, Bool.not_not]
  exact Operator.unnamed_equality .not .equals field
    context.isNegated v

/- None of some values is not to be one of them. -/
theorem Operand.unnamed_noneOf_oneOf (v : Json) :
    ((Operand.value v).condition name field mode context
        .noneOf).mapError Error.unnamed =
      ((Operand.nested
          ⟨inner, [(.oneOf, .value v)]⟩).condition name
        field mode context .not).mapError Error.unnamed := by
  rw [Operand.condition_nested_singleton]
  simp only [Operand.condition, Operator.condition,
    Context.isNegated_flipped, Bool.not_not]
  exact Operator.unnamed_membership .noneOf .oneOf field
    context.isNegated v

/- Not not to be something is to be it. -/
theorem Operand.condition_not_not
    (operators : Operators)
    (hEntries : operators.entries ≠ []) :
    some <$> (Operand.nested
        ⟨inner, [(.not, .nested operators)]⟩).condition name
          field mode context .not =
      operators.condition? name field
        context.flipped.flipped := by
  rw [Operand.condition_nested_singleton, Operand.condition]
  cases hCondition :
      operators.condition? name field
        context.flipped.flipped with
  | error e => rfl
  | ok c? =>
      cases c? with
      | some c => rfl
      | none =>
          have hNone :=
            (Operators.eq_none_iff hCondition).mp rfl
          exact absurd hNone hEntries

end Operators

------------------------------------------------------------
-- Values of Fields
------------------------------------------------------------

section Fields

variable (schema : Schema)
variable (context : Context)
variable (name : String)
variable (mode : MatchMode)

/- Equality is not negated in front of a field. -/
theorem condition_equals_positive
    (field : Field)
    (v : Json) :
    Operator.condition .equals name field mode
        context.positive v =
      Operator.condition .equals name field .sensitive
        .conjunctive v := by
  cases context <;> rfl

/- A field that holds a value is equal to it. -/
theorem entryCondition?_literal (v : Json) :
    entryCondition? schema context (.field name)
        (.literal v) =
      entryCondition? schema context (.field name)
        (.operators ⟨mode, [(.equals, .value v)]⟩) := by
  rw [entryCondition?_field, entryCondition?_field]
  unfold fieldCondition?
  congr 1
  funext field
  simp only [Operators.condition?_singleton,
    Operand.condition, condition_equals_positive]
  rfl

theorem entryCondition?_null :
    entryCondition? schema context (.field name) .null =
      entryCondition? schema context (.field name)
        (.operators ⟨mode, [(.equals, .value .null)]⟩) := by
  rw [← entryCondition?_literal]
  rfl

/- A field that is not not something is it. -/
theorem entryCondition?_not_not
    (inner : MatchMode)
    (operators : Operators)
    (hEntries : operators.entries ≠ []) :
    entryCondition? schema context (.field name)
        (.operators ⟨mode, [(.not, .nested
          ⟨inner, [(.not, .nested operators)]⟩)]⟩) =
      entryCondition? schema .conjunctive (.field name)
        (.operators operators) := by
  rw [entryCondition?_field, entryCondition?_field]
  unfold fieldCondition?
  congr 1
  funext field
  have hNot :=
    Operand.condition_not_not name field mode inner
      context.positive operators hEntries
  rw [Context.flipped_flipped,
    if_neg (positive_ne_negated context)] at hNot
  exact (Operators.condition?_singleton ..).trans hNot

end Fields

------------------------------------------------------------
-- Interchangeable Parts
------------------------------------------------------------

/-
  Two entries that compile to the same condition or the same
  error, alone and at every place of a filter.
-/
def SameEntry (entry other : Key × Content) : Prop :=
  ∀ (schema : Schema) (context : Context),
    entryCondition? schema context entry.1 entry.2 =
      entryCondition? schema context other.1 other.2 ∧
    ∀ place : Place,
      (place.fill entry).condition? schema context =
        (place.fill other).condition? schema context

/-
  Two operators that are accepted alike, and then compile to
  the same condition, alone and at every place of a filter.
-/
def SameOperator (entry other : Operator × Operand) : Prop :=
  (∀ name field mode context,
    SameResults
      (entry.2.condition name field mode context entry.1)
      (other.2.condition name field mode context
        other.1)) ∧
  ∀ (schema : Schema) (context : Context) (place : Place)
      (name : String) (within : OperatorPlace),
    SameResults
      ((place.fill (.field name,
        .operators (within.fill entry))).condition? schema
          context)
      ((place.fill (.field name,
        .operators (within.fill other))).condition? schema
          context)

theorem sameEntry_of_eq
    {entry other : Key × Content}
    (hSame : ∀ (schema : Schema) (context : Context),
      entryCondition? schema context entry.1 entry.2 =
        entryCondition? schema context other.1 other.2) :
    SameEntry entry other := by
  have hRead : ∀ x : Except Error (Option Condition),
      x.mapError (fun e => e) = x :=
    fun x => mapError_eq_self _ fun _ _ => rfl
  intro schema context
  refine ⟨hSame schema context, fun place => ?_⟩
  have hFill :=
    place.mapError_condition?_fill
      (fun context =>
        congrArg (Except.mapError fun e => e)
          (hSame schema context))
      context
  rwa [hRead, hRead] at hFill

/- An error that differs in a name only is one all the same. -/
theorem sameOperator_of_unnamed
    {entry other : Operator × Operand}
    (hSame : ∀ name field mode context,
      (entry.2.condition name field mode context
          entry.1).mapError Error.unnamed =
        (other.2.condition name field mode context
          other.1).mapError Error.unnamed) :
    SameOperator entry other := by
  constructor
  · intro name field mode context
    exact sameResults_of_mapError _
      (hSame name field mode context)
  · intro schema context place name within
    apply sameResults_of_mapError Error.unnamed
    apply place.mapError_condition?_fill
    intro context
    simp only [entryCondition?_field, fieldCondition?,
      mapError_bind]
    congr 1
    funext field
    exact within.mapError_condition?_fill
      (hSame name field) context.positive

------------------------------------------------------------
-- Spellings
------------------------------------------------------------

/-
  A value is equality to it, and so is null. Under `not` it
  is not equality, and none of a list is not one of it. A
  double negation is what it negates, as it stands in the
  negated context or else in the one without negation.
-/
theorem spellings_agree :
    (∀ (name : String) (mode : MatchMode) (v : Json),
      SameEntry (.field name, .literal v)
        (.field name,
          .operators ⟨mode, [(.equals, .value v)]⟩)) ∧
    (∀ (name : String) (mode : MatchMode),
      SameEntry (.field name, .null)
        (.field name,
          .operators ⟨mode, [(.equals, .value .null)]⟩)) ∧
    (∀ (inner : MatchMode) (v : Json),
      SameOperator (.not, .value v)
        (.not, .nested ⟨inner, [(.equals, .value v)]⟩)) ∧
    (∀ (inner : MatchMode) (v : Json),
      SameOperator (.noneOf, .value v)
        (.not, .nested ⟨inner, [(.oneOf, .value v)]⟩)) ∧
    ∀ (name : String) (field : Field)
        (mode inner : MatchMode) (context : Context)
        (operators : Operators),
      operators.entries ≠ [] →
        some <$> (Operand.nested
            ⟨inner, [(.not, .nested operators)]⟩).condition
              name field mode context .not =
          operators.condition? name field
            (if context = .negated then .negated
              else .conjunctive) ∧
        ∀ schema : Schema,
          entryCondition? schema context (.field name)
              (.operators ⟨mode, [(.not, .nested
                ⟨inner, [(.not, .nested operators)]⟩)]⟩) =
            entryCondition? schema .conjunctive (.field name)
              (.operators operators) := by
  refine ⟨?_, ?_, ?_, ?_, ?_⟩
  · intro name mode v
    apply sameEntry_of_eq
    intro schema context
    exact entryCondition?_literal schema context name mode v
  · intro name mode
    apply sameEntry_of_eq
    intro schema context
    exact entryCondition?_null schema context name mode
  · intro inner v
    apply sameOperator_of_unnamed
    intro name field mode context
    exact Operand.unnamed_not_equals name field mode inner
      context v
  · intro inner v
    apply sameOperator_of_unnamed
    intro name field mode context
    exact Operand.unnamed_noneOf_oneOf name field mode inner
      context v
  · intro name field mode inner context operators hEntries
    constructor
    · rw [← Context.flipped_flipped]
      exact Operand.condition_not_not name field mode inner
        context operators hEntries
    · intro schema
      exact entryCondition?_not_not schema context name mode
        inner operators hEntries

/-
  A double negation in the negated context, and one of a
  field among alternatives, which is a conjunction again.
-/
theorem spellings_agree_twiceNested :
    Operators.twiceNested.entries ≠ [] ∧
    ∃ c d,
      (Operand.nested ⟨.insensitive,
          [(.not, .nested Operators.twiceNested)]⟩).condition
            "views" ⟨⟨"views"⟩, .integer, false⟩ .sensitive
            .negated .not =
        .ok c ∧
      Operators.twiceNested.condition? "views"
          ⟨⟨"views"⟩, .integer, false⟩ .negated =
        .ok (some c) ∧
      entryCondition? integerSchema .disjunctive
          (.field "views")
          (.operators ⟨.sensitive, [(.not, .nested
            ⟨.insensitive,
              [(.not, .nested Operators.twiceNested)]⟩)]⟩) =
        .ok (some d) ∧
      entryCondition? integerSchema .conjunctive
          (.field "views")
          (.operators Operators.twiceNested) =
        .ok (some d) := by
  have hEntries : Operators.twiceNested.entries ≠ [] := by
    simp [Operators.twiceNested]
  rcases spellings_agree.2.2.2.2 "views"
      ⟨⟨"views"⟩, .integer, false⟩ .sensitive .insensitive
      .negated Operators.twiceNested hEntries with
    ⟨hNegated, _⟩
  rcases spellings_agree.2.2.2.2 "views"
      ⟨⟨"views"⟩, .integer, false⟩ .sensitive .insensitive
      .disjunctive Operators.twiceNested hEntries with
    ⟨_, hField⟩
  exact ⟨hEntries, _, _, rfl, hNegated.symm, rfl,
    (hField integerSchema).symm⟩

end Filter

end Criteria
