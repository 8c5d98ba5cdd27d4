import Criteria.Proofs.CursorWalk
import Criteria.Proofs.FilterGrammar
import Criteria.Proofs.FilterLeaves

/-
  This file proves that filters are compiled in every shape
  in which they are read.

  A filter can be built in more shapes than are read: a field
  may hold a filter, a connective none, and an object may
  stand under any operator. Conditions are refused for these
  shapes, and reading gives none of them, at any depth. So
  the condition of a filter that was read fails for an
  unknown field or a refused operand only.

  Key definitions include:
    * `Error.IsRefusal`
    * `Filter.Operators.Regular`
    * `Filter.Regular`

  Main statements:
    * `Operator.isRefusal_condition`
    * `Filter.regular_of_readsAs`
    * `Filter.isRefusal_condition?`
    * `Filter.shapes_agree`
-/

------------------------------------------------------------
-- Refusals
------------------------------------------------------------

namespace Criteria

open Except

/-
  An error about a field that is not known, or an operand
  that does not suit its operator or its field.
-/
def Error.IsRefusal : Error → Prop
  | .invalidField _ => True
  | .invalidOperand _ fault => fault ≠ .nestedOperators
  | _ => False

theorem Schema.isRefusal_resolve
    (schema : Schema)
    (name : String) :
    ErrorsAre Error.IsRefusal (schema.resolve name) := by
  unfold resolve
  cases schema.find? name with
  | some field => exact .ok field
  | none => exact .error trivial

namespace Coercion

variable {op : String}
variable {kind : Kind}

theorem isRefusal_mismatch
    {α : Type}
    (operand : Json) :
    ErrorsAre Error.IsRefusal
      (mismatch op kind operand : Except Error α) :=
  .error (by simp [Error.IsRefusal])

theorem isRefusal_readable
    {α : Type}
    (text : String)
    (wrap : α → Value)
    (read : List Char → Option α) :
    ErrorsAre Error.IsRefusal
      (readable op kind text wrap read) := by
  unfold readable
  cases read text.toList with
  | some a => exact .ok (wrap a)
  | none => exact .error (by simp [Error.IsRefusal])

theorem isRefusal_scalar (operand : Json) :
    ErrorsAre Error.IsRefusal (scalar op kind operand) := by
  unfold scalar
  split
  case h_2 =>
    split
    · exact .ok _
    · exact isRefusal_mismatch _
  case h_11 => exact isRefusal_mismatch _
  all_goals
    first
    | exact .ok _
    | exact isRefusal_readable _ _ _

theorem isRefusal_list (operand : Json) :
    ErrorsAre Error.IsRefusal (list op kind operand) := by
  unfold list
  split
  · exact .mapM fun item _ => isRefusal_scalar item
  · exact .error (by simp [Error.IsRefusal])

theorem isRefusal_pattern (operand : Json) :
    ErrorsAre Error.IsRefusal (pattern op operand) := by
  unfold pattern
  split
  · exact .ok _
  · exact .error (by simp [Error.IsRefusal])

end Coercion

namespace Operator

variable {op : Operator}
variable {name : String}
variable {field : Field}

theorem isRefusal_refuse
    {α : Type}
    {fault : OperandFault}
    (hFault : fault ≠ .nestedOperators) :
    ErrorsAre Error.IsRefusal
      (op.refuse fault : Except Error α) :=
  .error hFault

theorem isRefusal_scalarValue (operand : Json) :
    ErrorsAre Error.IsRefusal
      (op.scalarValue field.kind operand) := by
  unfold scalarValue
  split
  · exact isRefusal_refuse (by simp)
  · exact isRefusal_refuse (by simp)
  · exact Coercion.isRefusal_scalar operand

theorem isRefusal_ensureString :
    ErrorsAre Error.IsRefusal (op.ensureString field) := by
  unfold ensureString
  split
  · exact isRefusal_refuse (by simp)
  · exact .ok ()

theorem isRefusal_ensureList :
    ErrorsAre Error.IsRefusal
      (op.ensureList name field) := by
  unfold ensureList
  split
  · exact .ok ()
  · exact isRefusal_refuse (by simp)

variable (operand : Json)

private theorem isRefusal_equality (positive : Bool) :
    ErrorsAre Error.IsRefusal
      (op.equality field positive operand) := by
  unfold equality
  split
  · exact .ok _
  · exact (isRefusal_scalarValue operand).map _

private theorem isRefusal_membership (positive : Bool) :
    ErrorsAre Error.IsRefusal
      (op.membership field positive operand) := by
  refine (Coercion.isRefusal_list operand).bind
    fun values _ => ?_
  cases values <;> exact .ok _

private theorem isRefusal_matching
    (build : String → String)
    (mode : MatchMode)
    (negated : Bool) :
    ErrorsAre Error.IsRefusal
      (op.matching field build mode negated operand) :=
  (Coercion.isRefusal_pattern operand).bind
    fun _ _ => isRefusal_ensureString.map _

private theorem isRefusal_having (negated : Bool) :
    ErrorsAre Error.IsRefusal
      (op.having name field negated operand) := by
  refine isRefusal_ensureList.bind fun _ _ => ?_
  split
  · exact isRefusal_refuse (by simp)
  · exact (isRefusal_scalarValue operand).map _

private theorem isRefusal_havingMany
    (kind : Junction)
    (negated : Bool) :
    ErrorsAre Error.IsRefusal
      (op.havingMany name field kind negated operand) :=
  isRefusal_ensureList.bind fun _ _ =>
    (Coercion.isRefusal_list operand).map _

/- An operator and a value are refused for the value only. -/
theorem isRefusal_condition
    (mode : MatchMode)
    (context : Context) :
    ErrorsAre Error.IsRefusal
      (op.condition name field mode context operand) := by
  cases op with
  | not | equals => exact isRefusal_equality operand _
  | oneOf | noneOf => exact isRefusal_membership operand _
  | less | lessOrEqual | greater | greaterOrEqual =>
      exact (Coercion.isRefusal_scalar operand).map _
  | contains | startsWith | endsWith =>
      exact isRefusal_matching operand _ mode _
  | has => exact isRefusal_having operand _
  | hasEvery | hasSome =>
      exact isRefusal_havingMany operand _ _

end Operator

end Criteria

------------------------------------------------------------
-- Regular Shapes
------------------------------------------------------------

namespace Criteria

namespace Filter

mutual

/- Objects are operands of `not` only, at every depth. -/
def Operators.Regular : Operators → Prop
  | ⟨_, entries⟩ => EntriesRegular entries

def EntriesRegular : List (Operator × Operand) → Prop
  | [] => True
  | (op, operand) :: rest =>
      operand.Regular op ∧ EntriesRegular rest

def Operand.Regular
    (op : Operator) : Operand → Prop
  | .value _ => True
  | .nested operators => op = .not ∧ operators.Regular

end

/-
  A field holds no filters, and a connective nothing else.
-/
def IsRegularEntry : Key × Content → Prop
  | (.field _, .null) => True
  | (.field _, .literal _) => True
  | (.field _, .operators operators) => operators.Regular
  | (.connective _, .branches _) => True
  | (.connective _, .branch _) => True
  | _ => False

/- Every entry is regular, at every depth. -/
def Regular (f : Filter) : Prop :=
  ∀ entry ∈ f.within, IsRegularEntry entry

------------------------------------------------------------
-- Shapes that are Read
------------------------------------------------------------

mutual

theorem regular_of_operatorsReadAs :
    ∀ {mode : MatchMode} {value : Json}
      {operators : Operators},
    OperatorsReadAs mode value operators → operators.Regular
  | _, _, _, .declared _ hEntries =>
      regular_of_operandsReadAs hEntries
  | _, _, _, .inherited _ hEntries =>
      regular_of_operandsReadAs hEntries

theorem regular_of_operandsReadAs :
    ∀ {mode : MatchMode} {members : Json.Members}
      {entries : List (Operator × Operand)},
    OperandsReadAs mode members entries →
      EntriesRegular entries
  | _, _, _, .nil => trivial
  | _, _, _, .mode hRest => regular_of_operandsReadAs hRest
  | _, _, _, .nested hInner hRest =>
      ⟨⟨rfl, regular_of_operatorsReadAs hInner⟩,
        regular_of_operandsReadAs hRest⟩
  | _, _, _, .value _ hRest =>
      ⟨trivial, regular_of_operandsReadAs hRest⟩

end

mutual

/- What a value is read as has a regular shape. -/
theorem regular_of_readsAs :
    ∀ {value : Json} {f : Filter},
    ReadsAs value f → f.Regular
  | _, ⟨_⟩, .object hEntries => regular_of_entries hEntries

theorem regular_of_entries :
    ∀ {members : Json.Members}
      {entries : List (Key × Content)},
    List.Forall₂ EntryReadsAs members entries →
      ∀ entry ∈ entriesWithin entries, IsRegularEntry entry
  | [], [], .nil => by simp [entriesWithin]
  | _ :: _, (_, _) :: _, .cons hFirst hRest => by
      rw [entriesWithin, ← List.cons_append,
        List.forall_mem_append]
      exact ⟨regular_of_entryReadsAs hFirst,
        regular_of_entries hRest⟩

theorem regular_of_entryReadsAs :
    ∀ {member : String × Json} {key : Key}
      {content : Content},
    EntryReadsAs member (key, content) →
      ∀ entry ∈ (key, content) :: contentWithin content,
        IsRegularEntry entry
  | _, _, _, .null _ => by
      simp [contentWithin, IsRegularEntry]
  | _, _, _, .literal _ _ _ => by
      simp [contentWithin, IsRegularEntry]
  | _, _, _, .operators _ hValue => by
      simpa [contentWithin, IsRegularEntry] using
        regular_of_operatorsReadAs hValue
  | _, _, _, .branch hValue => by
      rw [List.forall_mem_cons]
      exact ⟨trivial, regular_of_readsAs hValue⟩
  | _, _, _, .branches hItems => by
      rw [List.forall_mem_cons]
      exact ⟨trivial, regular_of_items hItems⟩

theorem regular_of_items :
    ∀ {items : List Json} {filters : List Filter},
    List.Forall₂ ReadsAs items filters →
      ∀ entry ∈ itemsWithin filters, IsRegularEntry entry
  | [], [], .nil => by simp [itemsWithin]
  | _ :: _, _ :: _, .cons hFirst hRest => by
      rw [itemsWithin, List.forall_mem_append]
      exact ⟨regular_of_readsAs hFirst,
        regular_of_items hRest⟩

end

end Filter

end Criteria

------------------------------------------------------------
-- Errors of Regular Filters
------------------------------------------------------------

namespace Criteria

namespace Filter

open Except

variable {name : String}
variable {field : Field}

mutual

theorem Operators.isRefusal_condition?
    (context : Context) :
    ∀ operators : Operators, operators.Regular →
    ErrorsAre Error.IsRefusal
      (operators.condition? name field context)
  | ⟨mode, entries⟩, hRegular => by
      rw [Operators.condition?]
      exact (isRefusal_operatorConditions mode context entries
        hRegular).map _

theorem isRefusal_operatorConditions
    (mode : MatchMode)
    (context : Context) :
    ∀ entries : List (Operator × Operand),
    EntriesRegular entries →
    ErrorsAre Error.IsRefusal
      (operatorConditions name field mode context entries)
  | [], _ => .ok []
  | (op, operand) :: rest, hRegular => by
      rw [operatorConditions]
      refine (Operand.isRefusal_condition mode context op
        operand hRegular.1).bind fun c _ => ?_
      exact (isRefusal_operatorConditions mode context rest
        hRegular.2).map _

theorem Operand.isRefusal_condition
    (mode : MatchMode)
    (context : Context)
    (op : Operator) :
    ∀ operand : Operand, operand.Regular op →
    ErrorsAre Error.IsRefusal
      (operand.condition name field mode context op)
  | .value v, _ => op.isRefusal_condition v mode context
  | .nested operators, hRegular => by
      rcases hRegular with ⟨rfl, hInner⟩
      exact (Operators.isRefusal_condition? context.flipped
        operators hInner).map _

end

variable {schema : Schema}

theorem isRefusal_leafCondition?
    {leaf : Key × Content}
    (hLeaf : IsLeaf leaf)
    (hRegular : IsRegularEntry leaf) :
    ErrorsAre Error.IsRefusal
      (leafCondition? schema leaf) := by
  rcases leaf with ⟨key, content⟩
  cases key with
  | connective op => cases content <;> contradiction
  | field name =>
      refine (schema.isRefusal_resolve name).bind
        fun field _ => ?_
      cases content with
      | null => exact .ok _
      | literal v =>
          exact (Operator.isRefusal_condition v _ _).map _
      | operators operators =>
          exact Operators.isRefusal_condition? _ operators
            hRegular
      | branches items => exact hRegular.elim
      | branch item => exact hRegular.elim

/- The condition of a regular filter fails as a leaf does. -/
theorem isRefusal_condition?
    (context : Context)
    {f : Filter}
    (hRegular : f.Regular) :
    ErrorsAre Error.IsRefusal
      (f.condition? schema context) := by
  have hLeaves :
      ErrorsAre Error.IsRefusal
        (f.leaves.mapM (leafCondition? schema)) := by
    refine .mapM fun leaf hLeaf => ?_
    rcases within_of_mem_leaves f hLeaf with ⟨hWithin, hKind⟩
    exact isRefusal_leafCondition? hKind
      (hRegular leaf hWithin)
  intro e hError
  have hAgree :
      Agree (fun c? ds => Condition.tests c? =
          ds.flatMap Condition.tests)
        (f.condition? schema context)
        (f.leaves.mapM (leafCondition? schema)) :=
    agree_leaves context f
  rw [hError] at hAgree
  exact hLeaves e hAgree.eq_error

/-
  A filter that is read is regular at every depth, and its
  condition fails in no context for its shape, an operator
  or its depth. The filter of a description is one that is
  read.
-/
theorem shapes_agree
    (most : Nat)
    (value : Json)
    (f : Filter)
    (hRead : ofJson most value = .ok f) :
    f.Regular ∧
    (∀ (schema : Schema) (context : Context) (e : Error),
      f.condition? schema context = .error e →
        e.IsRefusal) ∧
    ∀ (t : Translator) (members : Json.Members) (e : Error),
      t.settings.maxDepth = most →
      value = .object members →
      t.filterCondition? (some members) = .error e →
        e.IsRefusal := by
  have hRegular : f.Regular := by
    cases value with
    | object members =>
        exact regular_of_readsAs
          (readsAs_ofMembers most most members f hRead)
    | _ => cases hRead
  refine ⟨hRegular, ?_, ?_⟩
  · intro schema context
    exact isRefusal_condition? context hRegular
  · rintro t members e rfl rfl hError
    rcases bind_eq_error_iff.mp hError with
      hUnread | ⟨g, hParsed, hCondition⟩
    · cases hUnread.symm.trans hRead
    · cases hParsed.symm.trans hRead
      exact isRefusal_condition? .conjunctive hRegular e
        hCondition

/- A text where an integer is asked for, under `not`. -/
def mistypedViews : Json.Members :=
  [("NOT", .array
    [.object [("id", .null)],
      .object [("AND", .object
        [("views", .object
          [("mode", .string "insensitive"),
            ("not", .object
              [("not", .object
                [("gt", .string "3")])])])])]])]

theorem shapes_agree_mistypedViews :
    ∃ f e, ofJson 32 (.object mistypedViews) = .ok f ∧
      f.Regular ∧
      f.condition? Translator.viewsTranslator.schema .negated =
        .error e ∧
      Translator.viewsTranslator.filterCondition?
          (some mistypedViews) =
        .error e ∧
      e.IsRefusal := by
  have hShapes := shapes_agree 32 (.object mistypedViews) _ rfl
  exact ⟨_, _, rfl, hShapes.1, rfl, rfl,
    hShapes.2.1 Translator.viewsTranslator.schema .negated _ rfl⟩

end Filter

end Criteria
