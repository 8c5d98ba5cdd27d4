import Criteria.Proofs.BlankValues
import Criteria.Proofs.CursorWalk
import Criteria.Proofs.FilterGrammar

/-
  This file relates filters that have the same skeleton.

  Such filters have the same keys, operators and modes in the
  same order, and differ in scalar operands only, but not in
  which of them are null. If both are read and compiled, they
  give conditions that differ in bound values only, each of
  them of the same type.

  Key definitions include:
    * `Json.Alike`
    * `Json.OperatorAlike`
    * `Json.FilterAlike`
    * `Filter.Alike`

  Main statements:
    * `Operator.paired_condition`
    * `Filter.paired_ofMembers`
    * `Filter.paired_condition?`
-/

------------------------------------------------------------
-- Skeletons
------------------------------------------------------------

namespace Criteria

namespace Json

/-
  Operands that are both null, both other scalars, or both
  arrays of the same length.
-/
inductive Alike : Json → Json → Prop where
  | scalar
      {v w : Json}
      (hFirst : v.IsScalar)
      (hSecond : w.IsScalar)
      (hNull : v = .null ↔ w = .null) :
      Alike v w
  | array
      {items others : List Json}
      (hItems : List.Forall₂ Alike items others) :
      Alike (.array items) (.array others)

/-
  Members of operator objects with the same key: a mode, an
  operand, or an operator object under `not`.
-/
inductive OperatorAlike :
    String × Json → String × Json → Prop where
  | mode (value : Json) :
      OperatorAlike (MatchMode.key, value)
        (MatchMode.key, value)
  | operand
      {key : String}
      {v w : Json}
      (hKey : key ≠ MatchMode.key)
      (hAlike : Alike v w) :
      OperatorAlike (key, v) (key, w)
  | nested
      {members others : Members}
      (hMembers :
        List.Forall₂ OperatorAlike members others) :
      OperatorAlike
        (Operator.not.keyword, .object members)
        (Operator.not.keyword, .object others)

mutual

/- Filter objects with the same keys in the same order. -/
inductive FilterAlike : Json → Json → Prop where
  | object
      {members others : Members}
      (hMembers : List.Forall₂ EntryAlike members others) :
      FilterAlike (.object members) (.object others)

/- Members of filter objects with the same key. -/
inductive EntryAlike :
    String × Json → String × Json → Prop where
  | branch
      {v w : Json}
      (op : Connective)
      (hItem : FilterAlike v w) :
      EntryAlike (op.word, v) (op.word, w)
  | branches
      {items others : List Json}
      (op : Connective)
      (hItems : List.Forall₂ FilterAlike items others) :
      EntryAlike (op.word, .array items)
        (op.word, .array others)
  | operators
      {name : String}
      {members others : Members}
      (hField : Filter.IsFieldName name)
      (hMembers :
        List.Forall₂ OperatorAlike members others) :
      EntryAlike (name, .object members)
        (name, .object others)
  | operand
      {name : String}
      {v w : Json}
      (hField : Filter.IsFieldName name)
      (hAlike : Alike v w) :
      EntryAlike (name, v) (name, w)

end

end Json

end Criteria

------------------------------------------------------------
-- Parsed Skeletons
------------------------------------------------------------

namespace Criteria

namespace Filter

mutual

/- Operator objects with the same mode and operators. -/
inductive OperatorsAlike :
    Operators → Operators → Prop where
  | mk
      {entries others : List (Operator × Operand)}
      (mode : MatchMode)
      (hEntries : List.Forall₂ OperandAlike entries others) :
      OperatorsAlike ⟨mode, entries⟩ ⟨mode, others⟩

inductive OperandAlike :
    Operator × Operand → Operator × Operand → Prop where
  | value
      {v w : Json}
      (op : Operator)
      (hAlike : Json.Alike v w) :
      OperandAlike (op, .value v) (op, .value w)
  | nested
      {operators others : Operators}
      (op : Operator)
      (hOperators : OperatorsAlike operators others) :
      OperandAlike (op, .nested operators)
        (op, .nested others)

end

mutual

/- Filters with the same keys, and with contents alike. -/
inductive Alike : Filter → Filter → Prop where
  | mk
      {entries others : List (Key × Content)}
      (hEntries : List.Forall₂ EntryAlike entries others) :
      Alike ⟨entries⟩ ⟨others⟩

inductive EntryAlike :
    Key × Content → Key × Content → Prop where
  | null (key : Key) :
      EntryAlike (key, .null) (key, .null)
  | literal
      {v w : Json}
      (key : Key)
      (hAlike : Json.Alike v w) :
      EntryAlike (key, .literal v) (key, .literal w)
  | operators
      {operators others : Operators}
      (key : Key)
      (hOperators : OperatorsAlike operators others) :
      EntryAlike (key, .operators operators)
        (key, .operators others)
  | branches
      {items others : List Filter}
      (key : Key)
      (hItems : List.Forall₂ Alike items others) :
      EntryAlike (key, .branches items) (key, .branches others)
  | branch
      {item other : Filter}
      (key : Key)
      (hItem : Alike item other) :
      EntryAlike (key, .branch item) (key, .branch other)

end

end Filter

end Criteria

------------------------------------------------------------
-- Operators
------------------------------------------------------------

namespace Criteria

open Except

namespace Condition

/- Conditions that differ in values of the same types. -/
def Alike (c d : Condition) : Prop :=
  c.blank = d.blank

theorem alike_single
    {p r : Predicate}
    (hBlank : p.blank = r.blank) :
    Alike (single p) (single r) := by
  unfold Alike
  rw [blank_single, blank_single, hBlank]

theorem Alike.negateIf
    {c d : Condition}
    (hAlike : Alike c d)
    (negated : Bool) :
    Alike (c.negateIf negated) (d.negateIf negated) := by
  unfold Alike at hAlike ⊢
  rw [blank_negateIf, blank_negateIf, hAlike]

end Condition

namespace Json.Alike

variable {v w : Json}

theorem null_iff (hAlike : Alike v w) :
    v = .null ↔ w = .null := by
  cases hAlike with
  | scalar _ _ hNull => exact hNull
  | array _ => simp

end Json.Alike

namespace Coercion

variable {op : String}
variable {kind : Kind}

/- Values of the same kind are blanked alike. -/
theorem paired_scalar (v w : Json) :
    Paired (fun a b => a.blank = b.blank)
      (scalar op kind v) (scalar op kind w) := by
  intro a b hFirst hSecond
  rw [Value.blank_eq_iff, kind?_scalar hFirst,
    kind?_scalar hSecond]

theorem paired_list
    {v w : Json}
    (hAlike : Json.Alike v w) :
    Paired
      (fun values others =>
        values.map Value.blank = others.map Value.blank)
      (list op kind v) (list op kind w) := by
  cases hAlike with
  | scalar hFirst _ _ =>
      cases v with
      | array items => exact hFirst.elim
      | object members => exact hFirst.elim
      | _ => exact .error _
  | array hItems =>
      have hScalars :
          List.Forall₂
            (fun v w =>
              Paired (fun a b => a.blank = b.blank)
                (scalar op kind v) (scalar op kind w))
            _ _ :=
        hItems.imp fun v w _ => paired_scalar v w
      have hValues := Paired.mapM hScalars
      intro values others hFirst hSecond
      have hEach := hValues values others hFirst hSecond
      rw [← List.forall₂_eq_eq_eq, List.forall₂_map_left_iff,
        List.forall₂_map_right_iff]
      exact hEach

end Coercion

namespace Operator

variable {op : Operator}
variable {field : Field}
variable {v w : Json}

theorem paired_scalarValue (v w : Json) :
    Paired (fun a b => a.blank = b.blank)
      (op.scalarValue field.kind v)
      (op.scalarValue field.kind w) := by
  intro a b hFirst hSecond
  cases v with
  | array items => cases hFirst
  | object members => cases hFirst
  | _ =>
      cases w with
      | array items => cases hSecond
      | object members => cases hSecond
      | _ =>
          exact Coercion.paired_scalar _ _ a b hFirst hSecond

theorem equality_of_ne
    {operand : Json}
    (positive : Bool)
    (hOperand : operand ≠ .null) :
    op.equality field positive operand =
      (fun value =>
          Condition.single
            (.compare field.column
              (if positive then .equal else .notEqual)
              value)) <$>
        op.scalarValue field.kind operand := by
  cases operand with
  | null => exact absurd rfl hOperand
  | _ => rfl

theorem paired_equality
    (positive : Bool)
    (hAlike : Json.Alike v w) :
    Paired Condition.Alike (op.equality field positive v)
      (op.equality field positive w) := by
  have hNull := hAlike.null_iff
  by_cases hFirst : v = .null
  · rw [hFirst, hNull.mp hFirst]
    exact .refl _ fun _ => rfl
  · have hSecond : w ≠ .null := fun h => hFirst (hNull.mpr h)
    rw [equality_of_ne positive hFirst,
      equality_of_ne positive hSecond]
    refine (paired_scalarValue v w).map fun a b hValue => ?_
    apply Condition.alike_single
    rw [Predicate.blank, Predicate.blank, hValue]

theorem paired_membership
    (positive : Bool)
    (hAlike : Json.Alike v w) :
    Paired Condition.Alike (op.membership field positive v)
      (op.membership field positive w) := by
  refine (Coercion.paired_list hAlike).bind
    fun values others hValues => ?_
  cases values with
  | nil =>
      cases others with
      | nil => exact .ok rfl
      | cons other rest => cases hValues
  | cons value more =>
      cases others with
      | nil => cases hValues
      | cons other rest =>
          refine .ok ?_
          apply Condition.alike_single
          rw [Predicate.blank, Predicate.blank, hValues]

theorem paired_ordering
    (comparison : Comparison)
    (negated : Bool)
    (v w : Json) :
    Paired Condition.Alike
      (op.ordering field comparison negated v)
      (op.ordering field comparison negated w) := by
  refine (Coercion.paired_scalar v w).map
    fun a b hValue => ?_
  apply Condition.Alike.negateIf
  apply Condition.alike_single
  rw [Predicate.blank, Predicate.blank, hValue]

theorem paired_matching
    (build : String → String)
    (mode : MatchMode)
    (negated : Bool)
    (v w : Json) :
    Paired Condition.Alike
      (op.matching field build mode negated v)
      (op.matching field build mode negated w) := by
  have hTexts :
      Paired (fun _ _ => True)
        (Coercion.pattern op.keyword v)
        (Coercion.pattern op.keyword w) := by
    intro _ _ _ _
    trivial
  refine hTexts.bind fun text other _ => ?_
  refine .after _ fun _ => .ok ?_
  apply Condition.alike_single
  rw [Predicate.blank, Predicate.blank]

theorem paired_having
    (name : String)
    (negated : Bool)
    (v w : Json) :
    Paired Condition.Alike (op.having name field negated v)
      (op.having name field negated w) := by
  intro c d hFirst hSecond
  rcases bind_eq_ok_iff.mp hFirst with ⟨_, _, hFirstValue⟩
  rcases bind_eq_ok_iff.mp hSecond with ⟨_, _, hSecondValue⟩
  split at hFirstValue
  · cases hFirstValue
  · split at hSecondValue
    · cases hSecondValue
    · rcases bind_eq_ok_iff.mp hFirstValue with ⟨a, hA, hC⟩
      rcases bind_eq_ok_iff.mp hSecondValue with ⟨b, hB, hD⟩
      cases hC
      cases hD
      have hValue := paired_scalarValue v w a b hA hB
      apply Condition.Alike.negateIf
      apply Condition.alike_single
      rw [Predicate.blank, Predicate.blank, hValue]

theorem paired_havingMany
    (name : String)
    (kind : Junction)
    (negated : Bool)
    (hAlike : Json.Alike v w) :
    Paired Condition.Alike
      (op.havingMany name field kind negated v)
      (op.havingMany name field kind negated w) := by
  refine .after _ fun _ => ?_
  refine (Coercion.paired_list hAlike).map
    fun values others hValues => ?_
  apply Condition.Alike.negateIf
  unfold Condition.Alike
  have hElements : ∀ values : List Value,
      (Condition.join kind
          (values.map fun value =>
            .predicate (.element field.column value))).blank =
        .join kind
          ((values.map Value.blank).map fun value =>
            .predicate (.element field.column value)) := by
    intro values
    rw [Condition.blank_join, List.map_map, List.map_map]
    rfl
  cases values with
  | nil =>
      cases others with
      | nil => rfl
      | cons other rest => cases hValues
  | cons value more =>
      cases others with
      | nil => cases hValues
      | cons other rest =>
          exact (hElements _).trans
            (hValues ▸ (hElements _).symm)

/- Operators give conditions that differ in values only. -/
theorem paired_condition
    (name : String)
    (mode : MatchMode)
    (context : Context)
    (hAlike : Json.Alike v w) :
    Paired Condition.Alike
      (op.condition name field mode context v)
      (op.condition name field mode context w) := by
  cases op with
  | not => exact paired_equality _ hAlike
  | equals => exact paired_equality _ hAlike
  | oneOf => exact paired_membership _ hAlike
  | noneOf => exact paired_membership _ hAlike
  | less => exact paired_ordering _ _ v w
  | lessOrEqual => exact paired_ordering _ _ v w
  | greater => exact paired_ordering _ _ v w
  | greaterOrEqual => exact paired_ordering _ _ v w
  | contains => exact paired_matching _ _ _ v w
  | startsWith => exact paired_matching _ _ _ v w
  | endsWith => exact paired_matching _ _ _ v w
  | has => exact paired_having _ _ v w
  | hasEvery => exact paired_havingMany _ _ _ hAlike
  | hasSome => exact paired_havingMany _ _ _ hAlike

end Operator

end Criteria

------------------------------------------------------------
-- Operator Objects
------------------------------------------------------------

namespace Criteria

open Except

/- An object is alike to no operand, nor an operand to one. -/
theorem Json.Alike.ne_object
    {v w : Json}
    (hAlike : Alike v w)
    (members : Members) :
    v ≠ .object members ∧ w ≠ .object members := by
  cases hAlike with
  | scalar hFirst hSecond _ =>
      refine ⟨?_, ?_⟩
      · rintro rfl
        exact hFirst
      · rintro rfl
        exact hSecond
  | array _ => simp

namespace Filter

namespace Operators

variable {members others : Json.Members}

/- The mode is under the same key and is the same. -/
theorem lookup_mode_of_alike
    (hMembers :
      List.Forall₂ Json.OperatorAlike members others) :
    members.lookup MatchMode.key =
      others.lookup MatchMode.key := by
  induction hMembers with
  | nil => rfl
  | cons hFirst _ ih =>
      cases hFirst with
      | mode value =>
          rw [NameMap.lookup_cons_eq_if,
            NameMap.lookup_cons_eq_if, if_pos rfl,
            if_pos rfl]
      | operand hKey _ =>
          rw [NameMap.lookup_cons_eq_if,
            NameMap.lookup_cons_eq_if, if_neg hKey.symm,
            if_neg hKey.symm, ih]
      | nested _ =>
          have hKey :
              MatchMode.key ≠ Operator.not.keyword := by
            decide
          rw [NameMap.lookup_cons_eq_if,
            NameMap.lookup_cons_eq_if, if_neg hKey,
            if_neg hKey, ih]

section Entries

variable {read : Json.Members → Except Error Operators}

theorem paired_entryOf
    {key : String}
    {v w : Json}
    (hAlike : Json.Alike v w) :
    Paired OperandAlike (entryOf read (key, v))
      (entryOf read (key, w)) := by
  intro entry other hFirst hSecond
  rcases entryOf_cases read hFirst with
    ⟨inner, _, _, rfl, _, _⟩ | ⟨op, rfl, _, rfl⟩
  · exact absurd rfl (hAlike.ne_object inner).1
  · rcases entryOf_cases read hSecond with
      ⟨inner, _, _, rfl, _, _⟩ | ⟨same, hSame, _, rfl⟩
    · exact absurd rfl (hAlike.ne_object inner).2
    · cases Operator.keyword_injective hSame
      exact .value op hAlike

theorem paired_operatorMembers
    (hRead : ∀ {inner other : Json.Members},
      List.Forall₂ Json.OperatorAlike inner other →
        Paired OperatorsAlike (read inner) (read other))
    (hMembers :
      List.Forall₂ Json.OperatorAlike members others) :
    List.Forall₂
      (fun member other =>
        Paired OperandAlike (entryOf read member)
          (entryOf read other))
      (operatorMembers members) (operatorMembers others) := by
  unfold operatorMembers
  induction hMembers with
  | nil => exact .nil
  | cons hFirst _ ih =>
      cases hFirst with
      -- A mode is left out of both objects.
      | mode value =>
          simpa using ih
      | operand hKey hAlike =>
          rw [List.filter_cons_of_pos (by simpa using hKey),
            List.filter_cons_of_pos (by simpa using hKey)]
          exact .cons (paired_entryOf hAlike) ih
      | nested hInner =>
          have hKey :
              Operator.not.keyword ≠ MatchMode.key := by
            decide
          rw [List.filter_cons_of_pos (by simpa using hKey),
            List.filter_cons_of_pos (by simpa using hKey)]
          refine .cons ?_ ih
          rw [entryOf_nested, entryOf_nested]
          exact (hRead hInner).map fun operators other
            hOperators => .nested .not hOperators

end Entries

/- Operator objects alike are read as operators alike. -/
theorem paired_ofMembers
    (most levels : Nat)
    (inherited : MatchMode)
    (hMembers :
      List.Forall₂ Json.OperatorAlike members others) :
    Paired OperatorsAlike
      (ofMembers most levels inherited members)
      (ofMembers most levels inherited others) := by
  induction levels generalizing inherited members others with
  | zero => exact .error _
  | succ levels ih =>
      have hMode :
          modeIn inherited members =
            modeIn inherited others := by
        unfold modeIn
        rw [lookup_mode_of_alike hMembers]
      unfold ofMembers
      rw [hMode]
      refine .after _ fun mode => ?_
      have hEntries :=
        paired_operatorMembers (ih mode) hMembers
      exact (Paired.mapM hEntries).map fun entries more
        hAlike => .mk mode hAlike

end Operators

variable {name : String}
variable {field : Field}

mutual

/- Operators alike give conditions alike. -/
theorem paired_operators_condition?
    (context : Context) :
    ∀ {operators others : Operators},
      OperatorsAlike operators others →
      Paired
        (fun c? d? =>
          c?.map Condition.blank = d?.map Condition.blank)
        (Operators.condition? name field context operators)
        (Operators.condition? name field context others)
  | ⟨_, _⟩, ⟨_, _⟩, .mk mode hEntries => by
      unfold Operators.condition?
      refine (paired_operatorConditions mode context
        hEntries).map fun cs ds hConditions => ?_
      rw [Condition.blank_combine, Condition.blank_combine,
        hConditions]

theorem paired_operatorConditions
    (mode : MatchMode)
    (context : Context) :
    ∀ {entries others : List (Operator × Operand)},
      List.Forall₂ OperandAlike entries others →
      Paired
        (fun cs ds =>
          cs.map Condition.blank = ds.map Condition.blank)
        (operatorConditions name field mode context entries)
        (operatorConditions name field mode context others)
  | [], [], .nil => .ok rfl
  | (_, _) :: _, (_, _) :: _, .cons hFirst hRest => by
      unfold operatorConditions
      refine (paired_operand_condition mode context
        hFirst).bind fun c d hCondition => ?_
      refine (paired_operatorConditions mode context
        hRest).map fun cs ds hConditions => ?_
      rw [List.map_cons, List.map_cons, hCondition,
        hConditions]

theorem paired_operand_condition
    (mode : MatchMode)
    (context : Context) :
    ∀ {entry other : Operator × Operand},
      OperandAlike entry other →
      Paired Condition.Alike
        (Operand.condition name field mode context entry.1
          entry.2)
        (Operand.condition name field mode context other.1
          other.2)
  | _, _, .value op hAlike => by
      unfold Operand.condition
      exact op.paired_condition name mode context hAlike
  | _, _, .nested op hOperators => by
      unfold Operand.condition
      cases op with
      | not =>
          refine (paired_operators_condition?
            context.flipped hOperators).map
            fun c? d? hCondition => ?_
          -- Either both objects say something or neither.
          cases c? with
          | none =>
              cases d? with
              | none => rfl
              | some d => cases hCondition
          | some c =>
              cases d? with
              | none => cases hCondition
              | some d => exact Option.some.inj hCondition
      | _ => exact .error _

end

end Filter

end Criteria

------------------------------------------------------------
-- Filters
------------------------------------------------------------

namespace Criteria

namespace Filter

open Except

section Entries

variable {readOperators :
  Json.Members → Except Error Operators}
variable {readFilter : Json.Members → Except Error Filter}
variable (hOperators : ∀ {members others : Json.Members},
  List.Forall₂ Json.OperatorAlike members others →
    Paired OperatorsAlike (readOperators members)
      (readOperators others))
variable (hFilter : ∀ {members others : Json.Members},
  List.Forall₂ Json.EntryAlike members others →
    Paired Alike (readFilter members) (readFilter others))

include hFilter in
theorem paired_element
    (op : Connective)
    {v w : Json}
    (hItem : Json.FilterAlike v w) :
    Paired Alike (element readFilter op v)
      (element readFilter op w) := by
  cases hItem with
  | object hMembers => exact hFilter hMembers

theorem paired_fieldContent
    {name : String}
    {v w : Json}
    (hAlike : Json.Alike v w) :
    Paired
      (fun content other =>
        EntryAlike (.field name, content)
          (.field name, other))
      (fieldContent readOperators name v)
      (fieldContent readOperators name w) := by
  intro content other hFirst hSecond
  rw [fieldContent_eq_ok_iff] at hFirst hSecond
  rcases hFirst with ⟨inner, _, hObject, _⟩ | ⟨hNull, rfl⟩ |
    ⟨_, hNotNull, rfl⟩
  · exact absurd hObject (hAlike.ne_object inner).1
  · rcases hSecond with ⟨inner, _, hObject, _⟩ | ⟨_, rfl⟩ |
      ⟨_, hNotNull, _⟩
    · exact absurd hObject (hAlike.ne_object inner).2
    · exact .null _
    · exact absurd (hAlike.null_iff.mp hNull) hNotNull
  · rcases hSecond with ⟨inner, _, hObject, _⟩ | ⟨hNull, _⟩ |
      ⟨_, _, rfl⟩
    · exact absurd hObject (hAlike.ne_object inner).2
    · exact absurd (hAlike.null_iff.mpr hNull) hNotNull
    · exact .literal _ hAlike

include hFilter in
theorem paired_branch
    (op : Connective)
    {v w : Json}
    (hItem : Json.FilterAlike v w) :
    Paired
      (fun content other =>
        EntryAlike (.connective op, content)
          (.connective op, other))
      (connectiveContent readFilter op v)
      (connectiveContent readFilter op w) := by
  cases hItem with
  | object hMembers =>
      exact (hFilter hMembers).map fun f g hAlike =>
        .branch (.connective op) hAlike

include hFilter in
theorem paired_branches
    (op : Connective)
    {items others : List Json}
    (hItems : List.Forall₂ Json.FilterAlike items others) :
    Paired
      (fun content other =>
        EntryAlike (.connective op, content)
          (.connective op, other))
      (connectiveContent readFilter op (.array items))
      (connectiveContent readFilter op (.array others)) := by
  have hFilters := Paired.mapM
    (hItems.imp fun v w hItem =>
      paired_element hFilter op hItem)
  exact hFilters.map fun fs gs hAlike =>
    .branches (.connective op) hAlike

include hOperators hFilter in
theorem paired_entryOf
    {member other : String × Json}
    (hEntry : Json.EntryAlike member other) :
    Paired EntryAlike
      (entryOf readOperators readFilter member)
      (entryOf readOperators readFilter other) := by
  cases hEntry with
  | branch op hItem =>
      rw [entryOf_connective, entryOf_connective]
      exact (paired_branch hFilter op hItem).map
        fun _ _ hEntry => hEntry
  | branches op hItems =>
      rw [entryOf_connective, entryOf_connective]
      exact (paired_branches hFilter op hItems).map
        fun _ _ hEntry => hEntry
  | operators hField hMembers =>
      rename_i name inner other
      rw [entryOf_field _ _ hField, entryOf_field _ _ hField]
      have hContent :
          Paired
            (fun content other =>
              EntryAlike (.field name, content)
                (.field name, other))
            (fieldContent readOperators name (.object inner))
            (fieldContent readOperators name
              (.object other)) :=
        (hOperators hMembers).map fun _ _ hAlike =>
          .operators _ hAlike
      exact hContent.map fun _ _ hEntry => hEntry
  | operand hField hAlike =>
      rw [entryOf_field _ _ hField, entryOf_field _ _ hField]
      exact (paired_fieldContent hAlike).map
        fun _ _ hEntry => hEntry

end Entries

/- Filter objects alike are read as filters alike. -/
theorem paired_ofMembers
    (most levels : Nat)
    {members others : Json.Members}
    (hMembers :
      List.Forall₂ Json.EntryAlike members others) :
    Paired Alike (ofMembers most levels members)
      (ofMembers most levels others) := by
  induction levels generalizing members others with
  | zero => exact .error _
  | succ levels ih =>
      unfold ofMembers
      have hEntries := hMembers.imp fun member other hEntry =>
        paired_entryOf
          (Operators.paired_ofMembers most levels .sensitive)
          ih hEntry
      exact (Paired.mapM hEntries).map
        fun entries more hAlike => .mk hAlike

------------------------------------------------------------
-- Conditions
------------------------------------------------------------

theorem blank_connect
    (op : Connective)
    (context : Context)
    (conditions : List Condition) :
    (connect op context conditions).map Condition.blank =
      connect op context
        (conditions.map Condition.blank) := by
  cases op with
  | and => exact Condition.blank_combine _ _
  | or => exact Condition.blank_combine _ _
  | not =>
      unfold connect
      rw [Condition.blank_combine, List.map_map, List.map_map]
      congr 1
      exact List.map_congr_left fun c _ =>
        Condition.blank_negate c

variable {schema : Schema}

/- Whether they are there, and what they are but for values. -/
def OptionAlike (c? d? : Option Condition) : Prop :=
  c?.map Condition.blank = d?.map Condition.blank

theorem paired_fieldCondition?
    (context : Context)
    (name : String)
    {content other : Content}
    (hContent :
      EntryAlike (.field name, content) (.field name, other)) :
    Paired OptionAlike
      (fieldCondition? schema context name content)
      (fieldCondition? schema context name other) := by
  refine .after _ fun field => ?_
  cases hContent with
  | null => exact .ok rfl
  | literal _ hAlike =>
      refine (Operator.equals.paired_condition name .sensitive
        .conjunctive hAlike).map fun c d hCondition => ?_
      exact congrArg some hCondition
  | operators _ hOperators =>
      exact paired_operators_condition? context.positive
        hOperators
  | branches _ _ => exact .error _
  | branch _ _ => exact .error _

mutual

/- Filters alike give conditions alike. -/
theorem paired_condition?
    (context : Context) :
    ∀ {f g : Filter}, Alike f g →
      Paired OptionAlike (f.condition? schema context)
        (g.condition? schema context)
  | ⟨_⟩, ⟨_⟩, .mk hEntries => by
      unfold condition?
      refine (paired_entryConditions context hEntries).map
        fun cs ds hConditions => ?_
      unfold OptionAlike
      rw [Condition.blank_wrap, Condition.blank_wrap,
        hConditions]

theorem paired_entryConditions
    (context : Context) :
    ∀ {entries others : List (Key × Content)},
      List.Forall₂ EntryAlike entries others →
      Paired
        (fun cs ds =>
          cs.map Condition.blank = ds.map Condition.blank)
        (entryConditions schema context entries)
        (entryConditions schema context others)
  | [], [], .nil => .ok rfl
  | (_, _) :: _, (_, _) :: _, .cons hFirst hRest => by
      unfold entryConditions
      refine (paired_entryCondition? context hFirst).bind
        fun c? d? hCondition => ?_
      refine (paired_entryConditions context hRest).map
        fun cs ds hConditions => ?_
      rw [List.map_append, List.map_append,
        ← Option.toList_map, ← Option.toList_map, hCondition,
        hConditions]

theorem paired_entryCondition?
    (context : Context) :
    ∀ {entry other : Key × Content},
      EntryAlike entry other →
      Paired OptionAlike
        (entryCondition? schema context entry.1 entry.2)
        (entryCondition? schema context other.1 other.2)
  | _, _, .null key => by
      cases key with
      | field name =>
          exact paired_fieldCondition? context name (.null _)
      | connective op => exact .error _
  | _, _, .literal key hAlike => by
      cases key with
      | field name =>
          exact paired_fieldCondition? context name
            (.literal _ hAlike)
      | connective op => exact .error _
  | _, _, .operators key hOperators => by
      cases key with
      | field name =>
          exact paired_fieldCondition? context name
            (.operators _ hOperators)
      | connective op => exact .error _
  | _, _, .branches key hItems => by
      cases key with
      | field name =>
          exact paired_fieldCondition? context name
            (.branches _ hItems)
      | connective op =>
          unfold entryCondition?
          refine (paired_itemConditions hItems).map
            fun cs ds hConditions => ?_
          unfold OptionAlike
          rw [blank_connect, blank_connect, hConditions]
  | _, _, .branch key hItem => by
      have hSingle : ∀ op : Connective,
          Paired OptionAlike
            ((fun c? => connect op context c?.toList) <$>
              condition? schema .conjunctive _)
            ((fun c? => connect op context c?.toList) <$>
              condition? schema .conjunctive _) :=
        fun op => (paired_condition? .conjunctive hItem).map
          fun c? d? hCondition => by
            unfold OptionAlike
            rw [blank_connect, blank_connect,
              ← Option.toList_map, ← Option.toList_map,
              hCondition]
      cases key with
      | field name =>
          exact paired_fieldCondition? context name
            (.branch _ hItem)
      | connective op =>
          unfold entryCondition?
          cases op with
          | or => exact paired_condition? .disjunctive hItem
          | and => exact hSingle .and
          | not => exact hSingle .not

theorem paired_itemConditions :
    ∀ {items others : List Filter},
      List.Forall₂ Alike items others →
      Paired
        (fun cs ds =>
          cs.map Condition.blank = ds.map Condition.blank)
        (itemConditions schema items)
        (itemConditions schema others)
  | [], [], .nil => .ok rfl
  | _ :: _, _ :: _, .cons hFirst hRest => by
      unfold itemConditions
      refine (paired_condition? .conjunctive hFirst).bind
        fun c? d? hCondition => ?_
      refine (paired_itemConditions hRest).map
        fun cs ds hConditions => ?_
      rw [List.map_append, List.map_append,
        ← Option.toList_map, ← Option.toList_map, hCondition,
        hConditions]

end

end Filter

end Criteria
