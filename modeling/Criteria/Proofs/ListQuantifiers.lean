import Criteria.Proofs.EquivalentSpellings
import Criteria.Proofs.FilterSkeleton

/-
  This file proves that operators on lists are quantifiers
  over what other operators say of single values.

  To be one of some values, or to have some of them, is an
  alternative over the values, and to be none of them, or to
  have all of them, is a conjunction. The negated context
  exchanges the two. So lists can be taken apart, a list of
  one value says what the value says alone, and the empty
  list says what a quantifier over nothing does. NULL is no
  exception, be it a column or an element of one.

  Key definitions include:
    * `Predicate.Standard`
    * `ListRow.truth`
    * `Context.quantifier`
    * `Operator.Quantifies`
    * `Operator.Spreads`

  Main statements:
    * `Operator.truth_memberCondition`
    * `Operator.truth_haveCondition`
    * `Operator.spreads_membership`
    * `Operator.spreads_having`
    * `Operator.quantifier_laws`
-/

------------------------------------------------------------
-- Membership in a Row
------------------------------------------------------------

namespace Criteria

/-
  Predicates as SQL defines them from equality: what is not
  equal is unequal, and to be in a list is to be equal to
  some value in it. Nothing is asked of list columns.
-/
structure Predicate.Standard
    (assign : Predicate → Truth) : Prop where
  notEqual (column : Column) (value : Value) :
    assign (.compare column .notEqual value) =
      (assign (.compare column .equal value)).not
  member
      (column : Column)
      (negated : Bool)
      (values : List Value) :
    assign (.member column negated values) =
      Condition.negateTruthIf negated
        (.any (values.map fun value =>
          assign (.compare column .equal value)))
  constant (b : Bool) :
    assign (.constant b) = .ofBool b

/-
  A row of integers, and of lists of integers that may be
  NULL themselves. A list that is missing is NULL.
-/
structure ListRow where
  cells : IntegerRow
  lists : List (String × List (Option Int))

namespace ListRow

/- A value is an element if it is equal to some element. -/
def truth
    (row : ListRow) : Predicate → Truth
  | .element column value =>
      match row.lists.lookup column.name with
      | none => .unknown
      | some elements =>
          .any (elements.map fun element =>
            Comparison.equal.test element
              (IntegerRow.meaning value))
  | p => row.cells.truth p

theorem standard (row : ListRow) :
    Predicate.Standard row.truth where
  notEqual column value :=
    (IntegerRow.complementary row.cells).compare column value
  member _ _ _ := rfl
  constant _ := rfl

end ListRow

------------------------------------------------------------
-- Quantifiers
------------------------------------------------------------

namespace Truth

theorem and_assoc (a b c : Truth) :
    (a.and b).and c = a.and (b.and c) := by
  cases a <;> cases b <;> cases c <;> rfl

theorem or_assoc (a b c : Truth) :
    (a.or b).or c = a.or (b.or c) := by
  cases a <;> cases b <;> cases c <;> rfl

theorem all_append (as bs : List Truth) :
    all (as ++ bs) = (all as).and (all bs) := by
  induction as with
  | nil =>
      change all bs = Truth.holds.and (all bs)
      cases all bs <;> rfl
  | cons a rest ih =>
      change a.and (all (rest ++ bs)) =
        (a.and (all rest)).and (all bs)
      rw [ih, and_assoc]

theorem any_append (as bs : List Truth) :
    any (as ++ bs) = (any as).or (any bs) := by
  induction as with
  | nil =>
      change any bs = Truth.fails.or (any bs)
      cases any bs <;> rfl
  | cons a rest ih =>
      change a.or (any (rest ++ bs)) =
        (a.or (any rest)).or (any bs)
      rw [ih, or_assoc]

end Truth

namespace Junction

def dual : Junction → Junction
  | .all => .any
  | .any => .all

/- The truth of two parts that are joined. -/
def pair : Junction → Truth → Truth → Truth
  | .all => Truth.and
  | .any => Truth.or

/- The truth of a junction without parts. -/
def empty : Junction → Truth
  | .all => .holds
  | .any => .fails

theorem truth_nil (kind : Junction) :
    kind.truth [] = kind.empty := by
  cases kind <;> rfl

theorem truth_append
    (kind : Junction)
    (as bs : List Truth) :
    kind.truth (as ++ bs) =
      kind.pair (kind.truth as) (kind.truth bs) := by
  cases kind with
  | all => exact Truth.all_append as bs
  | any => exact Truth.any_append as bs

/- A junction is negated by its dual over the negations. -/
theorem not_truth
    (kind : Junction)
    (values : List Truth) :
    (kind.truth values).not =
      kind.dual.truth (values.map Truth.not) := by
  cases kind with
  | all => exact Truth.not_all values
  | any => exact Truth.not_any values

end Junction

/- How values are joined in a context, negated or not. -/
def Context.quantifier
    (context : Context)
    (kind : Junction) : Junction :=
  if context.isNegated then kind.dual else kind

------------------------------------------------------------
-- Single Values
------------------------------------------------------------

open Except Condition

namespace Coercion

variable {op : String}
variable {kind : Kind}
variable {v : Json}
variable {value : Value}

/- What an operator coerces another coerces alike. -/
theorem scalar_renamed
    (other : String)
    (hScalar : scalar op kind v = .ok value) :
    scalar other kind v = .ok value := by
  have hSame : SameResults (scalar op kind v)
      (scalar other kind v) :=
    sameResults_of_mapError Error.unnamed
      (unnamed_scalar op other kind v)
  exact (hSame value).mp hScalar

/- NULL has no kind. -/
theorem ne_null_of_scalar
    (hScalar : scalar op kind v = .ok value) :
    v ≠ .null := by
  intro hNull
  rw [hNull] at hScalar
  cases kind <;> cases hScalar

end Coercion

namespace Operator

variable (op : Operator)
variable (name : String)
variable (field : Field)
variable {v : Json}
variable {value : Value}

theorem scalarValue_of_scalar
    {kind : Kind}
    (hScalar :
      Coercion.scalar op.keyword kind v = .ok value) :
    op.scalarValue kind v = .ok value := by
  cases v with
  | array items => cases kind <;> cases hScalar
  | object members => cases kind <;> cases hScalar
  | _ => exact hScalar

/- Equality to a value that is coerced compares with it. -/
theorem equality_of_scalar
    (positive : Bool)
    (hScalar :
      Coercion.scalar op.keyword field.kind v =
        .ok value) :
    op.equality field positive v =
      .ok (.single (.compare field.column
        (if positive then .equal else .notEqual)
        value)) := by
  rw [equality_of_ne positive
      (Coercion.ne_null_of_scalar hScalar),
    scalarValue_of_scalar op hScalar]
  rfl

theorem having_of_scalar
    (negated : Bool)
    (hList : field.isList = true)
    (hScalar :
      Coercion.scalar op.keyword field.kind v =
        .ok value) :
    op.having name field negated v =
      .ok ((Condition.single
        (.element field.column value)).negateIf
          negated) := by
  have hEnsured : op.ensureList name field = .ok () :=
    if_pos hList
  have hNull := Coercion.ne_null_of_scalar hScalar
  have hValue := scalarValue_of_scalar op hScalar
  rw [having, hEnsured, hValue]
  · rfl
  · exact hNull

------------------------------------------------------------
-- Lists of Values
------------------------------------------------------------

/- The condition that a column is one of some values. -/
def memberCondition
    (column : Column)
    (positive : Bool) : List Value → Condition
  | [] => .single (.constant !positive)
  | values => .single (.member column (!positive) values)

/- The condition that values are elements of a column. -/
def haveCondition
    (column : Column)
    (kind : Junction) : List Value → Condition
  | [] => .single (.constant (kind = Junction.all))
  | values =>
      .join kind (values.map fun value =>
        .predicate (.element column value))

theorem membership_array
    (positive : Bool)
    (items : List Json) :
    op.membership field positive (.array items) =
      memberCondition field.column positive <$>
        items.mapM
          (Coercion.scalar op.keyword field.kind) := by
  rw [membership, Coercion.list]
  cases items.mapM
      (Coercion.scalar op.keyword field.kind) with
  | error e => rfl
  | ok values => cases values <;> rfl

theorem havingMany_array
    (kind : Junction)
    (negated : Bool)
    (hList : field.isList = true)
    (items : List Json) :
    op.havingMany name field kind negated (.array items) =
      (fun values =>
        (haveCondition field.column kind values).negateIf
          negated) <$>
        items.mapM
          (Coercion.scalar op.keyword field.kind) := by
  have hEnsured : op.ensureList name field = .ok () :=
    if_pos hList
  rw [havingMany, hEnsured, Coercion.list]
  cases items.mapM
      (Coercion.scalar op.keyword field.kind) with
  | error e => rfl
  | ok values => cases values <;> rfl

section Truth

variable {assign : Predicate → Truth}
variable (column : Column)
variable (values : List Value)

/- Membership is an alternative, and its negation is not. -/
theorem truth_memberCondition
    (hAssign : Predicate.Standard assign)
    (positive : Bool) :
    (memberCondition column positive values).truth assign =
      (if positive then Junction.any else .all).truth
        (values.map fun value =>
          (Condition.single (.compare column
            (if positive then .equal else .notEqual)
              value)).truth assign) := by
  cases values with
  | nil =>
      rw [memberCondition, truth_single, hAssign.constant]
      cases positive <;> rfl
  | cons value rest =>
      simp only [memberCondition, truth_single,
        hAssign.member]
      cases positive with
      | true => rfl
      | false =>
          change (Truth.any _).not = Truth.all _
          rw [Truth.not_any, List.map_map]
          congr 1
          apply List.map_congr_left
          intro value _
          exact (hAssign.notEqual column value).symm

/- Elements are joined as they are asked for. -/
theorem truth_haveCondition
    (hAssign : Predicate.Standard assign)
    (kind : Junction) :
    (haveCondition column kind values).truth assign =
      kind.truth (values.map fun value =>
        (Condition.single
          (.element column value)).truth assign) := by
  cases values with
  | nil =>
      rw [haveCondition, truth_single, hAssign.constant]
      cases kind <;> rfl
  | cons value rest =>
      simp only [haveCondition, truth_join, List.map_map,
        Function.comp_def, truth_single, Condition.truth]

theorem truth_negateIf_haveCondition
    (hAssign : Predicate.Standard assign)
    (kind : Junction)
    (negated : Bool) :
    ((haveCondition column kind values).negateIf
        negated).truth assign =
      (if negated then kind.dual else kind).truth
        (values.map fun value =>
          ((Condition.single (.element column
            value)).negateIf negated).truth assign) := by
  cases negated with
  | false => exact truth_haveCondition column values hAssign kind
  | true =>
      simp only [negateIf, if_true, truth_negate,
        truth_haveCondition column values hAssign kind,
        Junction.not_truth, List.map_map, Function.comp_def]

end Truth

------------------------------------------------------------
-- Operators as Quantifiers
------------------------------------------------------------

/-
  An operator on lists, the operator that says the same of a
  single value, and how what it says of values is joined.
-/
inductive Quantifies :
    Operator → Operator → Junction → Prop where
  | oneOf : Quantifies .oneOf .equals .any
  | noneOf : Quantifies .noneOf .not .all
  | hasSome : Quantifies .hasSome .has .any
  | hasEvery : Quantifies .hasEvery .has .all

/- Operands that an operator coerces for a field. -/
def Coerces (v : Json) : Prop :=
  ∃ value,
    Coercion.scalar op.keyword field.kind v = .ok value

/-
  What operators make of values that are coerced, and that
  one joins what the other says of each of them.
-/
structure Spreads
    (op one : Operator)
    (kind : Junction)
    (name : String)
    (field : Field)
    (mode : MatchMode)
    (context : Context)
    (many : List Value → Condition)
    (single : Value → Condition) : Prop where
  condition_array (items : List Json) :
    op.condition name field mode context (.array items) =
      many <$> items.mapM
        (Coercion.scalar op.keyword field.kind)
  condition_single
      (v : Json)
      (value : Value)
      (hScalar :
        Coercion.scalar one.keyword field.kind v =
          .ok value) :
    one.condition name field mode context v =
      .ok (single value)
  truth_many
      (assign : Predicate → Truth)
      (hAssign : Predicate.Standard assign)
      (values : List Value) :
    (many values).truth assign =
      (context.quantifier kind).truth
        (values.map fun value =>
          (single value).truth assign)

section Spreads

variable {op one : Operator}
variable {kind : Junction}
variable {name : String}
variable {field : Field}
variable {mode : MatchMode}
variable {context : Context}

/- To be in a list joins being equal to its values. -/
theorem spreads_membership
    (positive : Bool)
    (hMany : ∀ v,
      op.condition name field mode context v =
        op.membership field positive v)
    (hOne : ∀ v,
      one.condition name field mode context v =
        one.equality field positive v)
    (hKind :
      context.quantifier kind =
        if positive then .any else .all) :
    Spreads op one kind name field mode context
      (memberCondition field.column positive)
      (fun value => .single (.compare field.column
        (if positive then .equal else .notEqual) value)) where
  condition_array items := by
    rw [hMany, membership_array]
  condition_single v value hScalar := by
    rw [hOne, equality_of_scalar one field positive hScalar]
  truth_many assign hAssign values := by
    rw [hKind]
    exact truth_memberCondition field.column values hAssign
      positive

/- To have the values of a list joins having each of them. -/
theorem spreads_having
    (hList : field.isList = true)
    (hMany : ∀ v,
      op.condition name field mode context v =
        op.havingMany name field kind context.isNegated v) :
    Spreads op .has kind name field mode context
      (fun values => (haveCondition field.column kind
        values).negateIf context.isNegated)
      (fun value => (Condition.single (.element
        field.column value)).negateIf
          context.isNegated) where
  condition_array items := by
    rw [hMany, havingMany_array op name field kind _ hList]
  condition_single v value hScalar :=
    having_of_scalar .has name field context.isNegated
      hList hScalar
  truth_many assign hAssign values :=
    truth_negateIf_haveCondition field.column values
      hAssign kind context.isNegated

/- The operators on lists do so, on columns they apply to. -/
theorem Quantifies.spreads
    (hQuantifies : op.Quantifies one kind)
    (hField : one = .has → field.isList = true)
    (name : String)
    (mode : MatchMode)
    (context : Context) :
    ∃ many single,
      Spreads op one kind name field mode context many
        single := by
  cases hQuantifies with
  | oneOf =>
      have hKind :
          context.quantifier .any =
            if !context.isNegated then .any else .all := by
        cases context <;> rfl
      exact ⟨_, _, spreads_membership (!context.isNegated)
        (fun _ => rfl) (fun _ => rfl) hKind⟩
  | noneOf =>
      have hKind :
          context.quantifier .all =
            if context.isNegated then .any else .all := by
        cases context <;> rfl
      exact ⟨_, _, spreads_membership context.isNegated
        (fun _ => rfl) (fun _ => rfl) hKind⟩
  | hasSome =>
      exact ⟨_, _, spreads_having (hField rfl)
        fun _ => rfl⟩
  | hasEvery =>
      exact ⟨_, _, spreads_having (hField rfl)
        fun _ => rfl⟩

end Spreads

/- A list of two scores, the second of which is NULL. -/
def scoresWithNull : ListRow :=
  ⟨[], [("scores", [some 1, none])]⟩

/-
  Operators on lists are quantifiers, in every context, where
  the values are coerced and the column is one they apply to.
  A list in two parts says what the parts say joined. A list
  of one value says what the value says alone. An empty list
  says nothing of any row, or of every row. A list fails as
  the first of its values does that is not coerced.
-/
theorem quantifier_laws
    {op one : Operator}
    {kind : Junction}
    {field : Field}
    (hQuantifies : op.Quantifies one kind)
    (hField : one = .has → field.isList = true)
    (name : String)
    (mode : MatchMode)
    (context : Context) :
    (∀ xs ys : List Json,
      (∀ v ∈ xs ++ ys, op.Coerces field v) →
      ∃ c d e,
        op.condition name field mode context
            (.array (xs ++ ys)) = .ok c ∧
        op.condition name field mode context (.array xs) =
          .ok d ∧
        op.condition name field mode context (.array ys) =
          .ok e ∧
        ∀ assign, Predicate.Standard assign →
          c.truth assign =
            (context.quantifier kind).pair (d.truth assign)
              (e.truth assign)) ∧
    (∀ v, op.Coerces field v →
      ∃ c d,
        op.condition name field mode context (.array [v]) =
          .ok c ∧
        one.condition name field mode context v = .ok d ∧
        ∀ assign, Predicate.Standard assign →
          c.truth assign = d.truth assign) ∧
    (∃ c,
      op.condition name field mode context (.array []) =
        .ok c ∧
      ∀ assign, Predicate.Standard assign →
        c.truth assign =
          (context.quantifier kind).empty) ∧
    ∀ items e,
      op.condition name field mode context (.array items) =
          .error e ↔
        ∃ before v after,
          items = before ++ v :: after ∧
          (∀ other ∈ before, op.Coerces field other) ∧
          Coercion.scalar op.keyword field.kind v =
            .error e := by
  rcases hQuantifies.spreads hField name mode context with
    ⟨many, single, hSpreads⟩
  have hGiven : ∀ {items : List Json} {values : List Value},
      items.mapM (Coercion.scalar op.keyword field.kind) =
          .ok values →
        op.condition name field mode context
          (.array items) = .ok (many values) := by
    intro items values hValues
    rw [hSpreads.condition_array, hValues]
    rfl
  refine ⟨?_, ?_, ?_, ?_⟩
  · intro xs ys hItems
    rw [List.forall_mem_append] at hItems
    rcases exists_mapM_eq_ok_iff.mpr hItems.1 with
      ⟨as, hFirst⟩
    rcases exists_mapM_eq_ok_iff.mpr hItems.2 with
      ⟨bs, hSecond⟩
    have hBoth :
        (xs ++ ys).mapM
            (Coercion.scalar op.keyword field.kind) =
          .ok (as ++ bs) := by
      rw [List.mapM_append, hFirst, hSecond]
      rfl
    refine ⟨_, _, _, hGiven hBoth, hGiven hFirst,
      hGiven hSecond, ?_⟩
    intro assign hAssign
    simp only [hSpreads.truth_many assign hAssign,
      List.map_append, Junction.truth_append]
  · rintro v ⟨value, hValue⟩
    have hOne :
        [v].mapM (Coercion.scalar op.keyword field.kind) =
          .ok [value] := by
      rw [List.mapM_cons, hValue]
      rfl
    refine ⟨_, _, hGiven hOne,
      hSpreads.condition_single v value
        (Coercion.scalar_renamed one.keyword hValue), ?_⟩
    intro assign hAssign
    rw [hSpreads.truth_many assign hAssign, List.map_cons,
      List.map_nil, Junction.truth_singleton]
  · have hNone :
        ([] : List Json).mapM
            (Coercion.scalar op.keyword field.kind) =
          .ok [] := rfl
    refine ⟨_, hGiven hNone, ?_⟩
    intro assign hAssign
    rw [hSpreads.truth_many assign hAssign, List.map_nil,
      Junction.truth_nil]
  · intro items e
    rw [hSpreads.condition_array, map_eq_error_iff,
      mapM_eq_error_iff]
    rfl

/-
  A list with the first of two values, and NULL for what may
  be the second: whether it is without one is unknown.
-/
theorem quantifier_laws_missingElement :
    ∃ c d e,
      hasEvery.condition "scores"
          ⟨⟨"scores"⟩, .integer, true⟩ .sensitive .negated
          (.array [.number (.integer 1),
            .number (.integer 2)]) = .ok c ∧
      hasEvery.condition "scores"
          ⟨⟨"scores"⟩, .integer, true⟩ .sensitive .negated
          (.array [.number (.integer 1)]) = .ok d ∧
      hasEvery.condition "scores"
          ⟨⟨"scores"⟩, .integer, true⟩ .sensitive .negated
          (.array [.number (.integer 2)]) = .ok e ∧
      d.truth scoresWithNull.truth = .fails ∧
      e.truth scoresWithNull.truth = .unknown ∧
      c.truth scoresWithNull.truth = .unknown := by
  have hItems : ∀ v ∈ [Json.number (.integer 1)] ++
      [.number (.integer 2)],
      hasEvery.Coerces ⟨⟨"scores"⟩, .integer, true⟩ v := by
    intro v hV
    rcases List.mem_pair.mp hV with rfl | rfl
    · exact ⟨_, rfl⟩
    · exact ⟨_, rfl⟩
  rcases (quantifier_laws .hasEvery (fun _ => rfl) "scores"
      .sensitive .negated).1 _ _ hItems with
    ⟨c, d, e, hC, hD, hE, hTruth⟩
  have hPair := hTruth _ scoresWithNull.standard
  have hFirst : d.truth scoresWithNull.truth = .fails := by
    cases hD
    decide
  have hSecond : e.truth scoresWithNull.truth = .unknown := by
    cases hE
    decide
  rw [hFirst, hSecond] at hPair
  exact ⟨c, d, e, hC, hD, hE, hFirst, hSecond, hPair⟩

end Operator

end Criteria
