import Criteria.Condition.Truth
import Criteria.Filter.Resolution
import Criteria.Proofs.Contents
import Criteria.Proofs.Outcome

/-
  This file proves that reading operators in the negated
  context negates them, however deep `not` is nested.

  Negation is pushed into the predicates, so the law holds in
  rows in which the two forms of a predicate are opposites. A
  conjunction becomes a disjunction of opposites, and an
  unknown truth stays unknown.

  Key definitions include:
    * `Predicate.Complementary`
    * `Condition.Opposed`
    * `Filter.Operators.Full`
    * `Filter.Operators.truths`

  Main statements:
    * `Operator.condition_opposed`
    * `Filter.Operators.contrary`
    * `Filter.Operators.resolution_laws`
-/

------------------------------------------------------------
-- Opposites
------------------------------------------------------------

namespace Criteria

/- The two forms of each predicate are opposites. -/
structure Predicate.Complementary
    (assign : Predicate → Truth) : Prop where
  compare (column : Column) (value : Value) :
    assign (.compare column .notEqual value) =
      (assign (.compare column .equal value)).not
  null (column : Column) :
    assign (.null column true) =
      (assign (.null column false)).not
  member (column : Column) (values : List Value) :
    assign (.member column true values) =
      (assign (.member column false values)).not
  like (column : Column) (mode : MatchMode)
    (pattern : String) :
    assign (.like column true mode pattern) =
      (assign (.like column false mode pattern)).not
  constant :
    assign (.constant false) = (assign (.constant true)).not

/- In a row of integers they are. -/
theorem IntegerRow.complementary
    (row : IntegerRow) :
    Predicate.Complementary row.truth where
  compare column value := by
    rw [IntegerRow.truth, IntegerRow.truth]
    cases row.cell column with
    | none => rfl
    | some stored =>
        by_cases hEqual : stored = IntegerRow.meaning value
        · simp [Comparison.test, hEqual, Truth.ofBool,
            Truth.not]
        · simp [Comparison.test, hEqual, Truth.ofBool,
            Truth.not]
  null _ := rfl
  member _ _ := rfl
  like _ _ _ := rfl
  constant := rfl

namespace Condition

/- One condition is as true as the other is false. -/
def Opposed (c d : Condition) : Prop :=
  ∀ assign, Predicate.Complementary assign →
    d.truth assign = (c.truth assign).not

theorem Opposed.symm
    {c d : Condition}
    (hOpposed : Opposed c d) : Opposed d c := by
  intro assign hAssign
  rw [hOpposed assign hAssign, Truth.not_not]

theorem opposed_single
    {p q : Predicate}
    (hOpposite :
      ∀ assign, Predicate.Complementary assign →
        assign q = (assign p).not) :
    Opposed (single p) (single q) := by
  intro assign hAssign
  rw [truth_single, truth_single]
  exact hOpposite assign hAssign

theorem opposed_negateIf (c : Condition) :
    Opposed (c.negateIf false) (c.negateIf true) := by
  intro assign _
  exact truth_negate assign c

theorem truths_opposed
    {conditions opposites : List Condition}
    {assign : Predicate → Truth}
    (hOpposed :
      List.Forall₂ Opposed conditions opposites)
    (hAssign : Predicate.Complementary assign) :
    opposites.map (truth assign) =
      (conditions.map (truth assign)).map Truth.not := by
  induction hOpposed with
  | nil => rfl
  | cons hHead _ ih =>
      simp only [List.map_cons, ih, hHead assign hAssign]

theorem exists_combine
    (kind : Junction)
    {conditions : List Condition}
    (hSome : conditions ≠ []) :
    ∃ c, combine kind conditions = some c := by
  match conditions with
  | [] => exact absurd rfl hSome
  | [c] => exact ⟨c, rfl⟩
  | c :: d :: rest => exact ⟨_, rfl⟩

/- A combined condition is as true as its parts joined. -/
theorem truth_of_combine
    {kind : Junction}
    {conditions : List Condition}
    {c : Condition}
    (assign : Predicate → Truth)
    (hCombine : combine kind conditions = some c) :
    c.truth assign =
      kind.truth (conditions.map (truth assign)) := by
  have hTruth := truth_combine assign kind conditions
  rw [hCombine] at hTruth
  exact ((kind.truth?_eq_some_iff _ _).mp hTruth.symm).2.symm

/- Opposites joined the other way are opposites again. -/
theorem opposed_combine
    {conditions opposites : List Condition}
    {c d : Condition}
    (hOpposed :
      List.Forall₂ Opposed conditions opposites)
    (hAll : combine .all conditions = some c)
    (hAny : combine .any opposites = some d) :
    Opposed c d := by
  intro assign hAssign
  rw [truth_of_combine assign hAll,
    truth_of_combine assign hAny,
    truths_opposed hOpposed hAssign]
  exact (Truth.not_all _).symm

end Condition

end Criteria

------------------------------------------------------------
-- Single Operators
------------------------------------------------------------

namespace Criteria

namespace Operator

open Except Condition

variable (op : Operator)
variable (name : String)
variable (field : Field)

private theorem equality_opposed
    (positive : Bool)
    (operand : Json) :
    Agree Opposed
      (op.equality field positive operand)
      (op.equality field (!positive) operand) := by
  have hNull :
      Opposed (single (.null field.column !positive))
        (single (.null field.column !!positive)) := by
    apply opposed_single
    intro assign hAssign
    cases positive
    · simp [hAssign.null, Truth.not_not]
    · simp [hAssign.null]
  have hValue : ∀ value : Value,
      Opposed
        (single (.compare field.column
          (if positive then .equal else .notEqual) value))
        (single (.compare field.column
          (if !positive then .equal else .notEqual)
            value)) := by
    intro value
    apply opposed_single
    intro assign hAssign
    cases positive
    · simp [hAssign.compare, Truth.not_not]
    · simp [hAssign.compare]
  unfold equality
  cases operand with
  | null => exact .ok hNull
  | _ => exact Agree.after _ fun value => .ok (hValue value)

private theorem membership_opposed
    (positive : Bool)
    (operand : Json) :
    Agree Opposed
      (op.membership field positive operand)
      (op.membership field (!positive) operand) := by
  unfold membership
  apply Agree.after
  intro values
  match values with
  | [] =>
      refine .ok (opposed_single ?_)
      intro assign hAssign
      cases positive
      · simp [hAssign.constant]
      · simp [hAssign.constant, Truth.not_not]
  | value :: rest =>
      refine .ok (opposed_single ?_)
      intro assign hAssign
      cases positive
      · simp [hAssign.member, Truth.not_not]
      · simp [hAssign.member]

private theorem ordering_opposed
    (comparison : Comparison)
    (operand : Json) :
    Agree Opposed
      (op.ordering field comparison false operand)
      (op.ordering field comparison true operand) := by
  unfold ordering
  exact Agree.after _ fun value => .ok (opposed_negateIf _)

private theorem matching_opposed
    (build : String → String)
    (mode : MatchMode)
    (operand : Json) :
    Agree Opposed
      (op.matching field build mode false operand)
      (op.matching field build mode true operand) := by
  unfold matching
  apply Agree.after
  intro text
  apply Agree.after
  intro _
  refine .ok (opposed_single ?_)
  intro assign hAssign
  exact hAssign.like field.column mode (build text)

private theorem having_opposed
    (operand : Json) :
    Agree Opposed
      (op.having name field false operand)
      (op.having name field true operand) := by
  unfold having
  apply Agree.after
  intro _
  cases operand with
  | null => exact .error _
  | _ =>
      exact Agree.after _ fun value =>
        .ok (opposed_negateIf _)

private theorem havingMany_opposed
    (kind : Junction)
    (operand : Json) :
    Agree Opposed
      (op.havingMany name field kind false operand)
      (op.havingMany name field kind true operand) := by
  unfold havingMany
  apply Agree.after
  intro _
  exact Agree.after _ fun values =>
    .ok (opposed_negateIf _)

/- Each operator has its opposite in the negated context. -/
theorem condition_opposed
    (mode : MatchMode)
    (operand : Json) :
    Agree Opposed
      (op.condition name field mode .conjunctive operand)
      (op.condition name field mode .negated operand) := by
  cases op with
  | not => exact equality_opposed .not field false operand
  | equals =>
      exact equality_opposed .equals field true operand
  | oneOf =>
      exact membership_opposed .oneOf field true operand
  | noneOf =>
      exact membership_opposed .noneOf field false operand
  | less | lessOrEqual | greater | greaterOrEqual =>
      exact ordering_opposed _ field _ operand
  | contains | startsWith | endsWith =>
      exact matching_opposed _ field _ mode operand
  | has => exact having_opposed .has name field operand
  | hasEvery | hasSome =>
      exact havingMany_opposed _ name field _ operand

/- Whether operators are alternatives does not matter here. -/
theorem condition_disjunctive
    (mode : MatchMode)
    (operand : Json) :
    op.condition name field mode .disjunctive operand =
      op.condition name field mode .conjunctive operand := by
  cases op <;> rfl

end Operator

end Criteria

------------------------------------------------------------
-- Operator Objects
------------------------------------------------------------

namespace Criteria

namespace Filter

open Except Condition

mutual

/- No object under an operator is empty, at any depth. -/
def Operators.Full : Operators → Prop
  | ⟨_, entries⟩ => EntriesFull entries

def EntriesFull : List (Operator × Operand) → Prop
  | [] => True
  | (_, operand) :: rest => operand.Full ∧ EntriesFull rest

def Operand.Full : Operand → Prop
  | .value _ => True
  | .nested operators =>
      operators.entries ≠ [] ∧ operators.Full

end

/- The two conditions of an object, in either context. -/
def Operators.Contrary
    (operators : Operators)
    (c? d? : Option Condition) : Prop :=
  operators.entries ≠ [] → operators.Full →
    ∃ c d, c? = some c ∧ d? = some d ∧ Opposed c d

variable (name : String)
variable (field : Field)

/-
  Under `not` the contexts change places, so an object in one
  context is opposed by induction in the other.
-/
private theorem nested_opposed
    {inner : Operators}
    {x y : Except Error (Option Condition)}
    (hInner : Agree inner.Contrary x y) :
    Agree (fun c d => (Operand.nested inner).Full →
        Opposed c d)
      (do return (← y).getD (.single (.constant true)))
      (do return (← x).getD (.single (.constant true))) := by
  apply hInner.symm.bind
  intro d? c? hContrary
  refine .ok fun hFull => ?_
  rcases hContrary hFull.1 hFull.2 with
    ⟨c, d, rfl, rfl, hOpposed⟩
  exact hOpposed.symm

mutual

/- Reading in the negated context gives the opposite. -/
theorem Operators.contrary : ∀ operators : Operators,
    Agree operators.Contrary
      (operators.condition? name field .conjunctive)
      (operators.condition? name field .negated)
  | ⟨mode, entries⟩ => by
      rw [Operators.condition?, Operators.condition?]
      apply (entries_contrary mode entries).bind
      rintro conditions opposites ⟨hLength, hOpposed⟩
      refine .ok fun hEntries hFull => ?_
      have hSome : conditions ≠ [] := by
        intro hNone
        simp only [hNone, List.length_nil] at hLength
        exact hEntries (List.length_eq_zero_iff.mp hLength.symm)
      have hOthers : opposites ≠ [] := by
        intro hNone
        have hAll := hOpposed hFull
        rw [hNone] at hAll
        exact hSome (List.forall₂_nil_right_iff.mp hAll)
      rcases exists_combine .all hSome with ⟨c, hAll⟩
      rcases exists_combine .any hOthers with ⟨d, hAny⟩
      exact ⟨c, d, hAll, hAny,
        opposed_combine (hOpposed hFull) hAll hAny⟩

theorem entries_contrary
    (mode : MatchMode) :
    ∀ entries : List (Operator × Operand),
    Agree
      (fun conditions opposites =>
        conditions.length = entries.length ∧
          (EntriesFull entries →
            List.Forall₂ Opposed conditions opposites))
      (operatorConditions name field mode .conjunctive
        entries)
      (operatorConditions name field mode .negated entries)
  | [] => .ok ⟨rfl, fun _ => .nil⟩
  | (op, operand) :: rest => by
      rw [operatorConditions, operatorConditions]
      apply (Operand.contrary mode op operand).bind
      intro c d hHead
      apply (entries_contrary mode rest).bind
      rintro cs ds ⟨hLength, hRest⟩
      refine .ok ⟨congrArg (· + 1) hLength, fun hFull => ?_⟩
      exact .cons (hHead hFull.1) (hRest hFull.2)

theorem Operand.contrary
    (mode : MatchMode)
    (op : Operator) :
    ∀ operand : Operand,
    Agree (fun c d => operand.Full → Opposed c d)
      (operand.condition name field mode .conjunctive op)
      (operand.condition name field mode .negated op)
  | .value v =>
      (op.condition_opposed name field mode v).mono
        fun _ _ hOpposed _ => hOpposed
  | .nested inner => by
      by_cases hNot : op = .not
      · subst hNot
        exact nested_opposed (Operators.contrary inner)
      · have hRefused : ∀ context,
            (Operand.nested inner).condition name field mode
                context op =
              op.refuse .nestedOperators := by
          intro context
          cases op <;> first | rfl | exact absurd rfl hNot
        rw [hRefused, hRefused]
        exact .error _

end

end Filter

end Criteria

------------------------------------------------------------
-- Alternatives
------------------------------------------------------------

namespace Criteria

namespace Filter

open Except Condition

variable (name : String)
variable (field : Field)

/-
  The truths of the operators of an object, each read alone
  and not negated.
-/
def Operators.truths
    (assign : Predicate → Truth)
    (operators : Operators) : List Truth :=
  operators.entries.filterMap fun (op, operand) =>
    (operand.condition name field operators.mode
      .conjunctive op).toOption.map (truth assign)

theorem Operand.condition_disjunctive
    (mode : MatchMode)
    (op : Operator)
    (operand : Operand) :
    operand.condition name field mode .disjunctive op =
      operand.condition name field mode .conjunctive op := by
  cases operand with
  | value v => exact op.condition_disjunctive name field mode v
  | nested inner => cases op <;> rfl

theorem operatorConditions_disjunctive
    (mode : MatchMode)
    (entries : List (Operator × Operand)) :
    operatorConditions name field mode .disjunctive entries =
      operatorConditions name field mode .conjunctive
        entries := by
  induction entries with
  | nil => rfl
  | cons entry rest ih =>
      rw [operatorConditions, operatorConditions, ih,
        Operand.condition_disjunctive]

theorem truths_of_operatorConditions
    (assign : Predicate → Truth)
    {mode : MatchMode}
    {entries : List (Operator × Operand)}
    {conditions : List Condition}
    (hConditions :
      operatorConditions name field mode .conjunctive
        entries = .ok conditions) :
    conditions.map (truth assign) =
      Operators.truths name field assign ⟨mode, entries⟩ := by
  induction entries generalizing conditions with
  | nil =>
      cases hConditions
      rfl
  | cons entry rest ih =>
      rcases entry with ⟨op, operand⟩
      rw [operatorConditions, bind_eq_ok_iff] at hConditions
      rcases hConditions with ⟨c, hHead, hTail⟩
      rcases bind_eq_ok_iff.mp hTail with ⟨cs, hRest, hAll⟩
      cases hAll
      have hTruths := ih hRest
      simp only [Operators.truths] at hTruths
      simp [Operators.truths, hHead, Except.toOption, hTruths]

/-
  In a context without negation the operators are joined as
  the context joins them.
-/
theorem Operators.truth_condition?
    (assign : Predicate → Truth)
    {context : Context}
    {operators : Operators}
    {c? : Option Condition}
    (hPositive : context ≠ .negated)
    (hCondition :
      operators.condition? name field context = .ok c?) :
    c?.map (truth assign) =
      context.operatorJunction.truth?
        (operators.truths name field assign) := by
  rcases operators with ⟨mode, entries⟩
  rw [Operators.condition?, bind_eq_ok_iff] at hCondition
  rcases hCondition with ⟨conditions, hConditions, hCombine⟩
  cases hCombine
  have hConjunctive :
      operatorConditions name field mode .conjunctive
        entries = .ok conditions := by
    cases context with
    | conjunctive => exact hConditions
    | disjunctive =>
        rwa [operatorConditions_disjunctive] at hConditions
    | negated => exact absurd rfl hPositive
  rw [truth_combine,
    truths_of_operatorConditions name field assign
      hConjunctive]

------------------------------------------------------------
-- Laws of Resolution
------------------------------------------------------------

/- An object fails in every context or in none. -/
theorem Operators.condition?_agree
    (operators : Operators)
    (context : Context) :
    Agree (fun _ _ => True)
      (operators.condition? name field .conjunctive)
      (operators.condition? name field context) := by
  cases context with
  | conjunctive => exact Agree.refl _ fun _ _ => trivial
  | disjunctive =>
      rcases operators with ⟨mode, entries⟩
      rw [Operators.condition?, Operators.condition?,
        operatorConditions_disjunctive]
      exact Agree.after _ fun _ => .ok trivial
  | negated =>
      exact (operators.contrary name field).mono
        fun _ _ _ => trivial

/- What says something says it as alternatives, too. -/
theorem Operators.exists_alternative
    {operators : Operators}
    {positive : Condition}
    {a? : Option Condition}
    (hPositive :
      operators.condition? name field .conjunctive =
        .ok (some positive))
    (hAlternative :
      operators.condition? name field .disjunctive =
        .ok a?) :
    ∃ alternative, a? = some alternative := by
  cases a? with
  | some alternative => exact ⟨alternative, rfl⟩
  | none =>
      have hNone :=
        truth_condition? name field (fun _ => .unknown)
          (by decide) hAlternative
      have hSome :=
        truth_condition? name field (fun _ => .unknown)
          (by decide) hPositive
      rw [(Junction.truth?_eq_none_iff _ _).mp hNone.symm]
        at hSome
      cases hSome

/-
  The contexts differ in how they join and negate operators,
  and in nothing else.
-/
theorem Operators.resolution_laws
    (operators : Operators) :
    ((∃ e, ∀ context,
        operators.condition? name field context = .error e) ∨
      ∀ context, ∃ c?,
        operators.condition? name field context = .ok c?) ∧
    (∀ c?, operators.condition? name field .conjunctive =
        .ok c? →
      operators.entries ≠ [] → operators.Full →
      ∃ positive alternative negative,
        c? = some positive ∧
        operators.condition? name field .disjunctive =
          .ok (some alternative) ∧
        operators.condition? name field .negated =
          .ok (some negative) ∧
        ∀ assign, Predicate.Complementary assign →
          negative.truth assign =
            (positive.truth assign).not ∧
          alternative.truth assign =
            .any (operators.truths name field assign)) ∧
    (∀ mode context inner, inner.entries = [] →
      (Operand.nested inner).condition name field mode context
          .not =
        .ok (.single (.constant true))) ∧
    (operators.entries = [] → ∀ context,
      operators.condition? name field context =
        .ok none) := by
  refine ⟨?_, ?_, ?_, ?_⟩
  · have hAgree := operators.condition?_agree name field
    cases hFirst :
        operators.condition? name field .conjunctive with
    | error e =>
        left
        refine ⟨e, fun context => ?_⟩
        exact (hFirst ▸ hAgree context).eq_error
    | ok c? =>
        right
        intro context
        rcases (hFirst ▸ hAgree context).exists_ok with
          ⟨d?, hSecond, _⟩
        exact ⟨d?, hSecond⟩
  · intro c? hFirst hEntries hFull
    have hContrary := operators.contrary name field
    rw [hFirst] at hContrary
    rcases hContrary.exists_ok with ⟨d?, hNegated, hBoth⟩
    rcases hBoth hEntries hFull with
      ⟨positive, negative, rfl, rfl, hOpposed⟩
    have hAgree :=
      operators.condition?_agree name field .disjunctive
    rw [hFirst] at hAgree
    rcases hAgree.exists_ok with ⟨a?, hAlternative, _⟩
    rcases operators.exists_alternative name field hFirst
        hAlternative with
      ⟨alternative, rfl⟩
    refine ⟨positive, alternative, negative, rfl,
      hAlternative, hNegated, ?_⟩
    intro assign hAssign
    refine ⟨hOpposed assign hAssign, ?_⟩
    have hTruth :=
      operators.truth_condition? name field assign
        (by decide) hAlternative
    exact ((Junction.truth?_eq_some_iff _ _ _).mp
      hTruth.symm).2.symm
  · intro mode context inner hEmpty
    rcases inner with ⟨innerMode, entries⟩
    cases hEmpty
    rfl
  · intro hEmpty context
    rcases operators with ⟨mode, entries⟩
    cases hEmpty
    rfl

/- Greater than one, and not (less than nine and not NULL). -/
def Operators.twiceNested : Operators :=
  ⟨.sensitive,
    [(.greater, .value (.number (.integer 1))),
      (.not, .nested ⟨.sensitive,
        [(.less, .value (.number (.integer 9))),
          (.not, .nested ⟨.insensitive,
            [(.equals, .value .null)]⟩)]⟩)]⟩

/- In the row where the field is five the laws tell apart. -/
theorem Operators.resolution_laws_twiceNested :
    twiceNested.entries ≠ [] ∧ twiceNested.Full ∧
    Predicate.Complementary
      (IntegerRow.truth [("views", 5)]) ∧
    ∃ positive alternative negative,
      twiceNested.condition? "views"
          ⟨⟨"views"⟩, .integer, false⟩ .conjunctive =
        .ok (some positive) ∧
      twiceNested.condition? "views"
          ⟨⟨"views"⟩, .integer, false⟩ .disjunctive =
        .ok (some alternative) ∧
      twiceNested.condition? "views"
          ⟨⟨"views"⟩, .integer, false⟩ .negated =
        .ok (some negative) ∧
      positive.truth (IntegerRow.truth [("views", 5)]) =
        .fails ∧
      negative.truth (IntegerRow.truth [("views", 5)]) =
        .holds ∧
      alternative.truth (IntegerRow.truth [("views", 5)]) =
        .holds := by
  have hEntries : twiceNested.entries ≠ [] := by
    simp [twiceNested]
  have hFull : twiceNested.Full := by
    simp [twiceNested, Operators.Full, EntriesFull,
      Operand.Full]
  have hRow := IntegerRow.complementary [("views", 5)]
  rcases (twiceNested.resolution_laws "views"
      ⟨⟨"views"⟩, .integer, false⟩).2.1 _ rfl hEntries
      hFull with
    ⟨positive, alternative, negative, hPositive,
      hAlternative, hNegative, hTruths⟩
  cases hPositive
  rcases hTruths _ hRow with ⟨hNot, hAny⟩
  exact ⟨hEntries, hFull, hRow, _, alternative, negative, rfl,
    hAlternative, hNegative, by decide,
    hNot.trans (by decide), hAny.trans (by decide)⟩

end Filter

end Criteria
