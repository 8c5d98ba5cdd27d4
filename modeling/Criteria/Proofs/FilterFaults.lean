import Criteria.Proofs.FilterLeaves
import Criteria.Proofs.TranslationSteps
import Mathlib.Logic.Relation

/-
  This file proves which error a filter is refused with.

  A filter is a list of leaves, in the order in which it is
  written, and a leaf is one of checks: that a field is
  known, that an operator applies to a value, and that
  nothing stands where it may not. Neither connectives and
  `not`, nor the context, are part of a check. A filter
  fails as the first leaf that fails, and that as its first
  check, so wrapping parts of a filter changes no error. In
  a translation all of it has to be read before the first
  check.

  Key definitions include:
    * `Filter.Check`
    * `Filter.checks`
    * `Filter.EntriesWrapped`
    * `Filter.Wrapped`

  Main statements:
    * `Operator.outcome_condition`
    * `Filter.outcome_leaves`
    * `Filter.outcome_condition?`
    * `Filter.entryOutcome_of_wrapped`
    * `Filter.first_fault`
-/

------------------------------------------------------------
-- Single Operators
------------------------------------------------------------

namespace Criteria

open Except

/- An operator applies to a value in any mode and context. -/
theorem Operator.outcome_condition
    (op : Operator)
    (name : String)
    (field : Field)
    (mode : MatchMode)
    (context : Context)
    (v : Json) :
    outcome (op.condition name field mode context v) =
      outcome (op.condition name field .sensitive
        .conjunctive v) := by
  have hContext :
      outcome (op.condition name field mode context v) =
        outcome (op.condition name field mode .conjunctive
          v) := by
    cases context with
    | conjunctive => rfl
    | disjunctive => rw [op.condition_disjunctive]
    | negated =>
        exact (op.condition_opposed name field mode
          v).outcome_eq.symm
  -- Only patterns have a mode, which is kept with the text.
  have hMatching : ∀ build : String → String,
      outcome (op.matching field build mode false v) =
        outcome (op.matching field build .sensitive false
          v) := by
    intro build
    refine Agree.outcome_eq (R := fun _ _ => True) ?_
    exact .after _ fun _ => .after _ fun _ => .ok trivial
  rw [hContext]
  cases op with
  | contains | startsWith | endsWith => exact hMatching _
  | _ => rfl

------------------------------------------------------------
-- Checks
------------------------------------------------------------

namespace Filter

/- What is checked of a filter, each on its own. -/
inductive Check where
  | known (name : String)
  | applies (name : String) (op : Operator) (v : Json)
  | nested (op : Operator)
  | content (key : Key)
deriving Repr

namespace Check

/-
  A check on its own. No operator but `not` has objects under
  it; a field holds no filters, and a connective nothing
  else.
-/
def run
    (schema : Schema) : Check → Except Error Unit
  | .known name => outcome (schema.resolve name)
  | .applies name op v => do
      let field ← schema.resolve name
      outcome (op.condition name field .sensitive
        .conjunctive v)
  | .nested op => op.refuse .nestedOperators
  | .content (.field name) =>
      .error (.unsupportedShape (.fieldContent name))
  | .content (.connective op) =>
      .error (.unsupportedShape (.branchContent op))

end Check

mutual

/- The checks of operators in order, also of those nested. -/
def Operators.checks
    (name : String) : Operators → List Check
  | ⟨_, entries⟩ => operatorChecks name entries

def operatorChecks
    (name : String) : List (Operator × Operand) → List Check
  | [] => []
  | (op, operand) :: rest =>
      operand.checks name op ++ operatorChecks name rest

def Operand.checks
    (name : String)
    (op : Operator) : Operand → List Check
  | .value v => [.applies name op v]
  | .nested operators =>
      match op with
      | .not => operators.checks name
      | _ => [.nested op]

end

/- A field is looked up before anything else. -/
def leafChecks (leaf : Key × Content) : List Check :=
  match leaf.1, leaf.2 with
  | .field name, .null => [.known name]
  | .field name, .literal v =>
      [.known name, .applies name .equals v]
  | .field name, .operators operators =>
      .known name :: operators.checks name
  | .field name, _ => [.known name, .content (.field name)]
  | .connective op, _ => [.content (.connective op)]

/- The checks of a filter, in the order it is written in. -/
def checks (f : Filter) : List Check :=
  f.leaves.flatMap leafChecks

------------------------------------------------------------
-- Errors of Checks
------------------------------------------------------------

variable {schema : Schema}

section Operators

variable {name : String}
variable {field : Field}

theorem run_applies
    (hField : schema.resolve name = .ok field)
    (mode : MatchMode)
    (context : Context)
    (op : Operator)
    (v : Json) :
    (Check.applies name op v).run schema =
      outcome (op.condition name field mode context v) := by
  rw [op.outcome_condition, Check.run, hField]
  rfl

mutual

/- Operators fail as the first check that does. -/
theorem Operators.outcome_condition?
    (hField : schema.resolve name = .ok field)
    (context : Context) :
    ∀ operators : Operators,
    outcome (operators.condition? name field context) =
      outcome
        ((operators.checks name).mapM (Check.run schema))
  | ⟨mode, entries⟩ => by
      rw [Operators.condition?, Operators.checks,
        ← outcome_operatorConditions hField mode context
          entries]
      exact outcome_map _ _

theorem outcome_operatorConditions
    (hField : schema.resolve name = .ok field)
    (mode : MatchMode)
    (context : Context) :
    ∀ entries : List (Operator × Operand),
    outcome
        (operatorConditions name field mode context entries) =
      outcome
        ((operatorChecks name entries).mapM
          (Check.run schema))
  | [] => rfl
  | (op, operand) :: rest => by
      rw [operatorConditions, operatorChecks,
        outcome_mapM_append,
        ← Operand.outcome_condition hField mode context op
          operand,
        ← outcome_operatorConditions hField mode context rest]
      exact outcome_bind fun _ _ => outcome_map _ _

theorem Operand.outcome_condition
    (hField : schema.resolve name = .ok field)
    (mode : MatchMode)
    (context : Context)
    (op : Operator) :
    ∀ operand : Operand,
    outcome (operand.condition name field mode context op) =
      outcome
        ((operand.checks name op).mapM (Check.run schema))
  | .value v => by
      rw [Operand.checks, outcome_mapM_singleton,
        run_applies hField mode context, outcome_outcome,
        Operand.condition]
  | .nested operators => by
      cases op with
      | not =>
          rw [Operand.checks, Operand.condition,
            ← Operators.outcome_condition? hField
              context.flipped operators]
          exact outcome_map _ _
      | _ => rfl

end

end Operators

/- A leaf fails as the first check of it that does. -/
theorem outcome_leafCondition? (leaf : Key × Content) :
    outcome (leafCondition? schema leaf) =
      outcome
        ((leafChecks leaf).mapM (Check.run schema)) := by
  rcases leaf with ⟨key, content⟩
  cases key with
  | connective op => cases content <;> rfl
  | field name =>
      have hKnown : ∀ checks : List Check,
          outcome
              ((.known name :: checks).mapM
                (Check.run schema)) =
            outcome (schema.resolve name) >>= fun _ =>
              outcome (checks.mapM (Check.run schema)) := by
        intro checks
        rw [outcome_mapM_cons, Check.run, outcome_outcome]
      cases content with
      | literal v =>
          rw [leafChecks, hKnown]
          refine outcome_bind fun field hField => ?_
          rw [outcome_mapM_singleton,
            run_applies hField .sensitive .conjunctive,
            outcome_outcome]
          exact outcome_map _ _
      | operators operators =>
          rw [leafChecks, hKnown]
          exact outcome_bind fun field hField =>
            operators.outcome_condition? hField .conjunctive
      | null | branches items | branch item =>
          -- A known name decides: all is well, or nothing is.
          rw [leafChecks, hKnown]
          exact outcome_bind fun _ _ => rfl

/- A filter fails as the first of its leaves that does. -/
theorem outcome_leaves
    (context : Context)
    (f : Filter) :
    outcome (f.condition? schema context) =
      outcome (f.leaves.mapM (leafCondition? schema)) := by
  have hLeaves :
      Agree (fun c? ds => Condition.tests c? =
          ds.flatMap Condition.tests)
        (f.condition? schema context)
        (f.leaves.mapM (leafCondition? schema)) :=
    agree_leaves context f
  exact hLeaves.outcome_eq

/- So it fails as the first of all its checks that does. -/
theorem outcome_condition?
    (context : Context)
    (f : Filter) :
    outcome (f.condition? schema context) =
      outcome (f.checks.mapM (Check.run schema)) := by
  rw [outcome_leaves, checks]
  exact outcome_mapM_flatMap outcome_leafCondition? f.leaves

------------------------------------------------------------
-- Wrapped Parts
------------------------------------------------------------

/- Operators put together under `not`, at some depth. -/
inductive OperatorsWrapped :
    List (Operator × Operand) →
      List (Operator × Operand) → Prop where
  | here
      (mode : MatchMode)
      (wrapped : List (Operator × Operand)) :
      OperatorsWrapped wrapped
        [(.not, .nested ⟨mode, wrapped⟩)]
  | within
      {mode other : MatchMode}
      {entries others : List (Operator × Operand)}
      (hInner : OperatorsWrapped entries others) :
      OperatorsWrapped [(.not, .nested ⟨mode, entries⟩)]
        [(.not, .nested ⟨other, others⟩)]
  | beside
      (before after : List (Operator × Operand))
      {entries others : List (Operator × Operand)}
      (hMiddle : OperatorsWrapped entries others) :
      OperatorsWrapped (before ++ entries ++ after)
        (before ++ others ++ after)

/- The value that a field has to be equal to, or null. -/
def Content.equated? : Content → Option Json
  | .null => some .null
  | .literal v => some v
  | _ => none

/-
  Parts of a filter put together, at some depth: entries
  under a connective, in one object or in an array of them,
  the operators of a field under `not`, and equality to a
  value as an operator under `not`.
-/
inductive EntriesWrapped :
    List (Key × Content) → List (Key × Content) → Prop where
  | branch
      (op : Connective)
      (wrapped : List (Key × Content)) :
      EntriesWrapped wrapped
        [(.connective op, .branch ⟨wrapped⟩)]
  | branches
      (op : Connective)
      (items : List Filter) :
      EntriesWrapped (items.flatMap entries)
        [(.connective op, .branches items)]
  | operators
      (name : String)
      {mode other : MatchMode}
      {entries others : List (Operator × Operand)}
      (hOperators : OperatorsWrapped entries others) :
      EntriesWrapped
        [(.field name, .operators ⟨mode, entries⟩)]
        [(.field name, .operators ⟨other, others⟩)]
  | equality
      (name : String)
      (mode inner : MatchMode)
      {content : Content}
      {v : Json}
      (hEquated : content.equated? = some v) :
      EntriesWrapped [(.field name, content)]
        [(.field name, .operators ⟨mode,
          [(.not, .nested ⟨inner, [(.equals, .value v)]⟩)]⟩)]
  | withinBranch
      (op : Connective)
      {entries others : List (Key × Content)}
      (hInner : EntriesWrapped entries others) :
      EntriesWrapped [(.connective op, .branch ⟨entries⟩)]
        [(.connective op, .branch ⟨others⟩)]
  | withinBranches
      (op : Connective)
      (before after : List Filter)
      {entries others : List (Key × Content)}
      (hInner : EntriesWrapped entries others) :
      EntriesWrapped
        [(.connective op, .branches
          (before ++ ⟨entries⟩ :: after))]
        [(.connective op, .branches
          (before ++ ⟨others⟩ :: after))]
  | beside
      (before after : List (Key × Content))
      {entries others : List (Key × Content)}
      (hMiddle : EntriesWrapped entries others) :
      EntriesWrapped (before ++ entries ++ after)
        (before ++ others ++ after)

/- Any parts of a filter wrapped, one after another. -/
def Wrapped : Filter → Filter → Prop :=
  Relation.ReflTransGen fun f g =>
    EntriesWrapped f.entries g.entries

------------------------------------------------------------
-- Checks of Wrapped Parts
------------------------------------------------------------

theorem operatorChecks_append
    (name : String)
    (entries others : List (Operator × Operand)) :
    operatorChecks name (entries ++ others) =
      operatorChecks name entries ++
        operatorChecks name others := by
  induction entries with
  | nil => rfl
  | cons entry rest ih =>
      rw [List.cons_append, operatorChecks, operatorChecks,
        ih, List.append_assoc]

/- What stands under `not` is checked as if it did not. -/
theorem operatorChecks_of_wrapped
    (name : String)
    {entries others : List (Operator × Operand)}
    (hWrapped : OperatorsWrapped entries others) :
    operatorChecks name entries =
      operatorChecks name others := by
  induction hWrapped with
  | here mode wrapped => exact (List.append_nil _).symm
  | within _ ih =>
      simp only [operatorChecks, Operand.checks,
        Operators.checks, ih]
  | beside before after _ ih =>
      simp only [operatorChecks_append, ih]

/- Whether entries pass their checks, one after another. -/
def entryOutcome
    (schema : Schema)
    (entries : List (Key × Content)) : Except Error Unit :=
  outcome
    (((entryLeaves entries).flatMap leafChecks).mapM
      (Check.run schema))

theorem entryOutcome_append
    (entries others : List (Key × Content)) :
    entryOutcome schema (entries ++ others) =
      entryOutcome schema entries >>= fun _ =>
        entryOutcome schema others := by
  rw [entryOutcome, entryLeaves_append, List.flatMap_append,
    outcome_mapM_append]
  rfl

theorem entryOutcome_branch
    (op : Connective)
    (entries : List (Key × Content)) :
    entryOutcome schema [(.connective op, .branch ⟨entries⟩)] =
      entryOutcome schema entries := by
  have hLeaves :
      entryLeaves [(.connective op, .branch ⟨entries⟩)] =
        entryLeaves entries :=
    List.append_nil _
  rw [entryOutcome, hLeaves]
  rfl

theorem entryOutcome_branches
    (op : Connective)
    (items : List Filter) :
    entryOutcome schema [(.connective op, .branches items)] =
      entryOutcome schema (items.flatMap entries) := by
  have hLeaves :
      entryLeaves [(.connective op, .branches items)] =
        itemLeaves items :=
    List.append_nil _
  rw [entryOutcome, hLeaves, itemLeaves_eq]
  rfl

/- A field is the one leaf of its entry. -/
theorem entryOutcome_field
    (name : String)
    (content : Content) :
    entryOutcome schema [(.field name, content)] =
      outcome
        ((leafChecks (.field name, content)).mapM
          (Check.run schema)) := by
  have hLeaves :
      entryLeaves [(.field name, content)] =
        [(.field name, content)] := by
    cases content <;> rfl
  rw [entryOutcome, hLeaves, List.flatMap_singleton]

/- An equality is checked like the operator for it. -/
theorem entryOutcome_equated
    (name : String)
    (mode inner : MatchMode)
    {content : Content}
    {v : Json}
    (hEquated : content.equated? = some v) :
    entryOutcome schema [(.field name, content)] =
      entryOutcome schema
        [(.field name, .operators ⟨mode,
          [(.not, .nested ⟨inner,
            [(.equals, .value v)]⟩)]⟩)] := by
  rw [entryOutcome_field, entryOutcome_field]
  cases content with
  | literal w =>
      cases hEquated
      rfl
  | null =>
      cases hEquated
      simp only [leafChecks, Operators.checks, operatorChecks,
        Operand.checks, List.append_nil, outcome_mapM_cons,
        Check.run, outcome_outcome]
      cases schema.resolve name <;> rfl
  | operators operators => cases hEquated
  | branches items => cases hEquated
  | branch item => cases hEquated

/- Wrapped entries fail as they did before. -/
theorem entryOutcome_of_wrapped
    {entries others : List (Key × Content)}
    (hWrapped : EntriesWrapped entries others) :
    entryOutcome schema entries =
      entryOutcome schema others := by
  induction hWrapped with
  | branch op wrapped =>
      exact (entryOutcome_branch op wrapped).symm
  | branches op items =>
      exact (entryOutcome_branches op items).symm
  | operators name hOperators =>
      rw [entryOutcome_field, entryOutcome_field]
      simp only [leafChecks, Operators.checks,
        operatorChecks_of_wrapped name hOperators]
  | equality name mode inner hEquated =>
      exact entryOutcome_equated name mode inner hEquated
  | withinBranch op _ ih =>
      rw [entryOutcome_branch, entryOutcome_branch, ih]
  | withinBranches op before after _ ih =>
      simp only [entryOutcome_branches, List.flatMap_append,
        List.flatMap_cons, entryOutcome_append, ih]
  | beside before after _ ih =>
      simp only [entryOutcome_append, ih]

/- So is a filter, and it fails alike in every context. -/
theorem outcome_of_wrapped
    {f g : Filter}
    (hWrapped : f.Wrapped g)
    (context other : Context) :
    outcome (f.condition? schema context) =
      outcome (g.condition? schema other) := by
  have hEntries : ∀ (f : Filter) (context : Context),
      outcome (f.condition? schema context) =
        entryOutcome schema f.entries := by
    intro f context
    rw [outcome_condition?, checks, leaves_eq]
    rfl
  rw [hEntries, hEntries]
  induction hWrapped with
  | refl => rfl
  | tail _ hStep ih =>
      exact ih.trans (entryOutcome_of_wrapped hStep)

------------------------------------------------------------
-- First Faults
------------------------------------------------------------

/- The first leaf that fails is the error of a filter. -/
theorem condition?_eq_error_iff
    {context : Context}
    {f : Filter}
    {e : Error} :
    f.condition? schema context = .error e ↔
      ∃ before leaf after,
        f.leaves = before ++ leaf :: after ∧
        (∀ other ∈ before,
          ∃ c?, leafCondition? schema other = .ok c?) ∧
        leafCondition? schema leaf = .error e := by
  rw [← outcome_eq_error_iff, outcome_leaves,
    outcome_eq_error_iff, mapM_eq_error_iff]

theorem exists_condition?_eq_error_iff
    {context : Context}
    {f : Filter} :
    (∃ e, f.condition? schema context = .error e) ↔
      ∃ leaf ∈ f.leaves, ∃ e,
        leafCondition? schema leaf = .error e := by
  rw [exists_eq_error_iff, ← outcome_eq_ok_iff,
    outcome_leaves, outcome_eq_ok_iff, exists_mapM_eq_ok_iff]
  simp only [exists_eq_error_iff, not_forall, exists_prop]

/- The first check that fails is the error of a leaf. -/
theorem leafCondition?_eq_error_iff
    {leaf : Key × Content}
    {e : Error} :
    leafCondition? schema leaf = .error e ↔
      ∃ before check after,
        leafChecks leaf = before ++ check :: after ∧
        (∀ other ∈ before, other.run schema = .ok ()) ∧
        check.run schema = .error e := by
  have hUnit : ∀ x : Except Error Unit,
      (∃ u, x = .ok u) ↔ x = .ok () :=
    fun _ => ⟨fun ⟨(), hOk⟩ => hOk, fun hOk => ⟨(), hOk⟩⟩
  rw [← outcome_eq_error_iff, outcome_leafCondition?,
    outcome_eq_error_iff, mapM_eq_error_iff]
  simp only [hUnit]

end Filter

/- A filter comes before all else in a description. -/
theorem Translator.translate_eq_error_of_filter
    {t : Translator}
    {d : Description}
    {members : Json.Members}
    {e : Error}
    (hFilter : d.filter = some members)
    (hError : t.filterCondition? (some members) = .error e) :
    t.translate d = .error e := by
  rw [translate]
  cases hLevels : t.settings.maxDepth with
  | zero =>
      have hUnread :
          Filter.parse 0 members =
            .error (.nestingTooDeep 0) :=
        rfl
      rw [filterCondition?, hLevels, hUnread] at hError
      cases hError
      rw [translateWithin, hLevels]
  | succ levels =>
      rw [translateWithin, hFilter, hError]
      rfl

namespace Filter

/-
  In every context a filter fails where a leaf of it fails,
  and as the first one that does. A leaf fails as the first
  of its checks that does. Parts that are wrapped, and
  another context, change no error. The error of a filter is
  that of the description it is in, and one of reading the
  filter comes before those of its leaves.
-/
theorem first_fault :
    (∀ (schema : Schema) (context : Context) (f : Filter),
      ((∃ e, f.condition? schema context = .error e) ↔
        ∃ leaf ∈ f.leaves, ∃ e,
          leafCondition? schema leaf = .error e) ∧
      ∀ e, f.condition? schema context = .error e ↔
        ∃ before leaf after,
          f.leaves = before ++ leaf :: after ∧
          (∀ other ∈ before,
            ∃ c?, leafCondition? schema other = .ok c?) ∧
          leafCondition? schema leaf = .error e) ∧
    (∀ (schema : Schema) (leaf : Key × Content) (e : Error),
      leafCondition? schema leaf = .error e ↔
        ∃ before check after,
          leafChecks leaf = before ++ check :: after ∧
          (∀ other ∈ before, other.run schema = .ok ()) ∧
          check.run schema = .error e) ∧
    (∀ f g : Filter, f.Wrapped g →
      ∀ (schema : Schema) (context other : Context) (e : Error),
        f.condition? schema context = .error e ↔
          g.condition? schema other = .error e) ∧
    ∀ (t : Translator) (d : Description)
        (members : Json.Members) (e : Error),
      d.filter = some members →
        (parse t.settings.maxDepth members = .error e →
          t.translate d = .error e) ∧
        ∀ f context,
          parse t.settings.maxDepth members = .ok f →
          f.condition? t.schema context = .error e →
            t.translate d = .error e := by
  have hWrapped : ∀ f g : Filter, f.Wrapped g →
      ∀ (schema : Schema) (context other : Context) (e : Error),
        f.condition? schema context = .error e ↔
          g.condition? schema other = .error e := by
    intro f g hWrapped schema context other e
    rw [← outcome_eq_error_iff,
      outcome_of_wrapped hWrapped context other,
      outcome_eq_error_iff]
  refine ⟨?_, ?_, hWrapped, ?_⟩
  · intro schema context f
    exact ⟨exists_condition?_eq_error_iff,
      fun e => condition?_eq_error_iff⟩
  · intro schema leaf e
    exact leafCondition?_eq_error_iff
  · intro t d members e hFilter
    constructor
    · intro hUnread
      exact t.translate_eq_error_of_filter hFilter
        (bind_eq_error_iff.mpr (.inl hUnread))
    · intro f context hRead hError
      refine t.translate_eq_error_of_filter hFilter
        (bind_eq_error_iff.mpr (.inr ⟨f, hRead, ?_⟩))
      exact (hWrapped f f .refl _ _ _ _).mp hError

/- More than one, and a text where an integer is asked for. -/
def viewsFault : List (Operator × Operand) :=
  [(.greater, .value (.number (.integer 1))),
    (.less, .value (.string "9"))]

/- The same with the text under `not`. -/
def nestedViewsFault : List (Operator × Operand) :=
  [(.greater, .value (.number (.integer 1))),
    (.not, .nested ⟨.sensitive,
      [(.less, .value (.string "9"))]⟩)]

/- Operators on views, and after them an unknown field. -/
def plainFaults
    (operators : List (Operator × Operand)) : Filter :=
  ⟨[(.field "views", .operators ⟨.sensitive, operators⟩),
    (.field "rank", .null)]⟩

/- The same with the operators negated. -/
def wrappedFaults
    (operators : List (Operator × Operand)) : Filter :=
  ⟨[(.connective .not, .branches
      [⟨[(.field "views",
        .operators ⟨.sensitive, operators⟩)]⟩]),
    (.field "rank", .null)]⟩

def wrappedMembers : Json.Members :=
  [("NOT", .array
      [.object
        [("views", .object
          [("gt", .number (.integer 1)),
            ("not", .object [("lt", .string "9")])])]]),
    ("rank", .null)]

/- An unknown field before an operator that there is not. -/
def unreadMembers : Json.Members :=
  [("rank", .null), ("views", .object [("above", .null)])]

theorem first_fault_wrappedFaults :
    (plainFaults viewsFault).Wrapped
      (wrappedFaults nestedViewsFault) ∧
    (∃ e,
      (plainFaults viewsFault).condition?
          Translator.viewsTranslator.schema .conjunctive =
        .error e ∧
      (wrappedFaults nestedViewsFault).condition?
          Translator.viewsTranslator.schema .negated =
        .error e ∧
      Translator.viewsTranslator.translate
          { Description.empty with
            filter := some wrappedMembers } =
        .error e) ∧
    Translator.viewsTranslator.translate
        { Description.empty with
          filter := some unreadMembers } =
      .error (.unsupportedOperator "above") := by
  have hNested :
      OperatorsWrapped viewsFault nestedViewsFault :=
    .beside [_] [] (.here .sensitive [_])
  have hInner :
      (plainFaults viewsFault).Wrapped
        (plainFaults nestedViewsFault) :=
    .single (.beside [] [_] (.operators "views" hNested))
  have hOuter :
      (plainFaults viewsFault).Wrapped
        (wrappedFaults nestedViewsFault) :=
    hInner.tail (.beside [] [_] (.branches .not [⟨[_]⟩]))
  have hBefore : ∀ other ∈
      [Check.known "views",
        .applies "views" .greater (.number (.integer 1))],
      other.run Translator.viewsTranslator.schema =
        .ok () := by
    simp only [List.forall_mem_cons]
    exact ⟨rfl, rfl, by simp⟩
  rcases first_fault with
    ⟨hLeaves, hChecks, hWrapped, hTranslate⟩
  have hLeaf := (hChecks Translator.viewsTranslator.schema
    (.field "views", .operators ⟨.sensitive, viewsFault⟩)
    _).mpr ⟨_, _, [], rfl, hBefore, rfl⟩
  have hPlain :=
    ((hLeaves Translator.viewsTranslator.schema .conjunctive
      (plainFaults viewsFault)).2 _).mpr
        ⟨[], _, [_], rfl, by simp, hLeaf⟩
  have hNegated :=
    (hWrapped _ _ hOuter _ _ .negated _).mp hPlain
  refine ⟨hOuter, ⟨_, hPlain, hNegated, ?_⟩, ?_⟩
  · exact (hTranslate Translator.viewsTranslator _
      wrappedMembers _ rfl).2
        (wrappedFaults nestedViewsFault) .negated rfl hNegated
  · exact (hTranslate Translator.viewsTranslator _
      unreadMembers _ rfl).1 rfl

end Filter

end Criteria
