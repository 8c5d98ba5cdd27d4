import Criteria.Filter.Condition
import Criteria.Proofs.OperatorNegation

/-
  This file defines what filters mean, apart from conditions,
  and proves that compiling a filter preserves its meaning.

  The meaning is given by recursion on the filter, in three
  truth values, from the truth of the single predicates. It
  is none where a filter says nothing. Operators mean what
  they are resolved to in the context without negation.

  Key definitions include:
    * `Filter.fieldMeaning?`
    * `Filter.meaning?`

  Main statements:
    * `Filter.truth_fieldCondition?`
    * `Filter.truth_condition?`
    * `Filter.compiled_meaning`
-/

------------------------------------------------------------
-- Meanings
------------------------------------------------------------

namespace Criteria

namespace Filter

section Meaning

variable (schema : Schema)
variable (assign : Predicate → Truth)

/- The field equals a literal. What equals null is NULL. -/
def equalityMeaning?
    (field : Field)
    (v : Json) : Option Truth :=
  match v with
  | .null => some (assign (.null field.column false))
  | _ =>
      (Coercion.scalar Operator.equals.keyword field.kind
        v).toOption.map fun value =>
          assign (.compare field.column .equal value)

/- What a field with a content of its own means. -/
def fieldMeaning?
    (context : Context)
    (name : String)
    (content : Content) : Option Truth :=
  (schema.find? name).bind fun field =>
    match content with
    | .null => some (assign (.null field.column false))
    | .literal v => equalityMeaning? assign field v
    | .operators operators =>
        context.junction.truth?
          (operators.truths name field assign)
    | _ => none

mutual

/-
  Entries are joined by the context. What says nothing is
  left out.
-/
def meaning?
    (context : Context) : Filter → Option Truth
  | ⟨entries⟩ =>
      context.junction.truth? (entryMeanings context entries)

def entryMeanings
    (context : Context) :
    List (Key × Content) → List Truth
  | [] => []
  | (key, content) :: rest =>
      (entryMeaning? context key content).toList ++
        entryMeanings context rest

/-
  Elements are read apart from the context, which decides
  only how negations are joined. An object under `OR` is read
  as alternatives.
-/
def entryMeaning?
    (context : Context)
    (key : Key) : Content → Option Truth
  | .branches items =>
      match key with
      | .connective .and =>
          Junction.all.truth? (itemMeanings items)
      | .connective .or =>
          Junction.any.truth? (itemMeanings items)
      | .connective .not =>
          context.junction.truth?
            ((itemMeanings items).map Truth.not)
      | .field _ => none
  | .branch item =>
      match key with
      | .connective .and => item.meaning? .conjunctive
      | .connective .or => item.meaning? .disjunctive
      | .connective .not =>
          (item.meaning? .conjunctive).map Truth.not
      | .field _ => none
  | content =>
      match key with
      | .connective _ => none
      | .field name =>
          fieldMeaning? schema assign context name content

def itemMeanings : List Filter → List Truth
  | [] => []
  | item :: rest =>
      (item.meaning? .conjunctive).toList ++
        itemMeanings rest

end

end Meaning

end Filter

end Criteria

------------------------------------------------------------
-- Fields
------------------------------------------------------------

namespace Criteria

namespace Filter

open Except Condition

variable {schema : Schema}
variable (assign : Predicate → Truth)

/- A literal compiles to equality. -/
theorem truth_literal
    {name : String}
    {field : Field}
    {v : Json}
    {c : Condition}
    (hCondition :
      Operator.condition .equals name field .sensitive
        .conjunctive v = .ok c) :
    some (c.truth assign) =
      equalityMeaning? assign field v := by
  change Operator.equality .equals field true v = .ok c
    at hCondition
  unfold Operator.equality at hCondition
  cases v with
  | null =>
      cases hCondition
      exact congrArg some (truth_single assign _)
  | array items => cases hCondition
  | object members => cases hCondition
  | _ =>
      rcases bind_eq_ok_iff.mp hCondition with
        ⟨value, hValue, hSingle⟩
      cases hSingle
      have hScalar :
          Coercion.scalar Operator.equals.keyword
            field.kind _ = .ok value := hValue
      rw [truth_single, equalityMeaning?, hScalar]
      · rfl
      · simp

theorem operatorJunction_positive
    (context : Context) :
    context.positive.operatorJunction = context.junction := by
  cases context <;> rfl

theorem positive_ne_negated
    (context : Context) :
    context.positive ≠ .negated := by
  cases context <;> decide

/- A field compiles to what it means. -/
theorem truth_fieldCondition?
    {context : Context}
    {name : String}
    {content : Content}
    {c? : Option Condition}
    (hCondition :
      fieldCondition? schema context name content =
        .ok c?) :
    c?.map (truth assign) =
      fieldMeaning? schema assign context name content := by
  rcases bind_eq_ok_iff.mp hCondition with
    ⟨field, hField, hContent⟩
  have hFind := (schema.resolve_eq_ok_iff name field).mp hField
  rw [fieldMeaning?, hFind, Option.bind_some]
  cases content with
  | null =>
      cases hContent
      exact congrArg some (truth_single assign _)
  | literal v =>
      rcases bind_eq_ok_iff.mp hContent with
        ⟨c, hLiteral, hSome⟩
      cases hSome
      exact truth_literal assign hLiteral
  | operators operators =>
      have hTruth :=
        operators.truth_condition? name field assign
          (positive_ne_negated context) hContent
      rwa [operatorJunction_positive] at hTruth
  | branches items => cases hContent
  | branch item => cases hContent

end Filter

end Criteria

------------------------------------------------------------
-- Connectives
------------------------------------------------------------

namespace Criteria

/- One truth value joined is itself, and none is none. -/
theorem Junction.truth?_toList
    (kind : Junction)
    (a? : Option Truth) :
    kind.truth? a?.toList = a? := by
  cases a? with
  | none => rfl
  | some a => exact kind.truth?_singleton a

namespace Filter

open Except Condition

variable {schema : Schema}
variable (assign : Predicate → Truth)

theorem truths_negate
    (conditions : List Condition) :
    (conditions.map negate).map (truth assign) =
      (conditions.map (truth assign)).map Truth.not := by
  simp only [List.map_map]
  apply List.map_congr_left
  intro c _
  exact truth_negate assign c

/- Fields are compiled alike, whatever stands beside them. -/
theorem entryCondition?_field
    (context : Context)
    (name : String)
    (content : Content) :
    entryCondition? schema context (.field name) content =
      fieldCondition? schema context name content := by
  cases content <;> rfl

theorem entryMeaning?_field
    (context : Context)
    (name : String)
    (content : Content) :
    entryMeaning? schema assign context (.field name)
        content =
      fieldMeaning? schema assign context name content := by
  unfold fieldMeaning?
  cases content with
  | branches items => cases schema.find? name <;> rfl
  | branch item => cases schema.find? name <;> rfl
  | _ => rfl

/- Elements under a connective are joined as it says. -/
theorem truth_connect
    (op : Connective)
    (context : Context)
    (conditions : List Condition) :
    (connect op context conditions).map (truth assign) =
      match op with
      | .and =>
          Junction.all.truth?
            (conditions.map (truth assign))
      | .or =>
          Junction.any.truth?
            (conditions.map (truth assign))
      | .not =>
          context.junction.truth?
            ((conditions.map (truth assign)).map
              Truth.not) := by
  cases op with
  | and => exact truth_combine assign .all conditions
  | or => exact truth_combine assign .any conditions
  | not =>
      rw [connect, truth_combine, truths_negate]

------------------------------------------------------------
-- Filters
------------------------------------------------------------

mutual

/- What a filter compiles to is as true as it means. -/
theorem truth_condition?
    (context : Context) :
    ∀ (f : Filter) {c? : Option Condition},
    f.condition? schema context = .ok c? →
      c?.map (truth assign) =
        f.meaning? schema assign context
  | ⟨entries⟩, c?, hCondition => by
      rw [condition?, bind_eq_ok_iff] at hCondition
      rcases hCondition with ⟨conditions, hEntries, hWrap⟩
      cases hWrap
      rw [truth_wrap, meaning?,
        truths_entryConditions context entries hEntries]

theorem truths_entryConditions
    (context : Context) :
    ∀ (entries : List (Key × Content))
      {conditions : List Condition},
    entryConditions schema context entries =
        .ok conditions →
      conditions.map (truth assign) =
        entryMeanings schema assign context entries
  | [], _, hEntries => by
      cases hEntries
      rfl
  | (key, content) :: rest, _, hEntries => by
      rw [entryConditions, bind_eq_ok_iff] at hEntries
      rcases hEntries with ⟨c?, hEntry, hTail⟩
      rcases bind_eq_ok_iff.mp hTail with
        ⟨conditions, hRest, hAll⟩
      cases hAll
      rw [List.map_append, ← Option.toList_map, entryMeanings,
        truth_entryCondition? context key content hEntry,
        truths_entryConditions context rest hRest]

theorem truth_entryCondition?
    (context : Context) :
    ∀ (key : Key) (content : Content)
      {c? : Option Condition},
    entryCondition? schema context key content = .ok c? →
      c?.map (truth assign) =
        entryMeaning? schema assign context key content
  | .field name, content, c?, hEntry => by
      rw [entryCondition?_field] at hEntry
      rw [entryMeaning?_field]
      exact truth_fieldCondition? assign hEntry
  | .connective op, .branches items, c?, hEntry => by
      rw [entryCondition?, bind_eq_ok_iff] at hEntry
      rcases hEntry with ⟨conditions, hItems, hConnect⟩
      cases hConnect
      rw [truth_connect, truths_itemConditions items hItems]
      cases op <;> rfl
  | .connective .or, .branch item, c?, hEntry =>
      truth_condition? .disjunctive item hEntry
  | .connective .and, .branch item, c?, hEntry => by
      rcases bind_eq_ok_iff.mp hEntry with
        ⟨d?, hItem, hConnect⟩
      cases hConnect
      rw [truth_connect, ← Option.toList_map,
        truth_condition? .conjunctive item hItem]
      exact Junction.truth?_toList .all _
  | .connective .not, .branch item, c?, hEntry => by
      rcases bind_eq_ok_iff.mp hEntry with
        ⟨d?, hItem, hConnect⟩
      cases hConnect
      rw [truth_connect, ← Option.toList_map,
        truth_condition? .conjunctive item hItem]
      simp only [← Option.toList_map]
      exact Junction.truth?_toList context.junction _
  | .connective op, .null, c?, hEntry => by
      cases hEntry
  | .connective op, .literal v, c?, hEntry => by
      cases hEntry
  | .connective op, .operators operators, c?, hEntry => by
      cases hEntry

theorem truths_itemConditions :
    ∀ (items : List Filter) {conditions : List Condition},
    itemConditions schema items = .ok conditions →
      conditions.map (truth assign) =
        itemMeanings schema assign items
  | [], _, hItems => by
      cases hItems
      rfl
  | item :: rest, _, hItems => by
      rw [itemConditions, bind_eq_ok_iff] at hItems
      rcases hItems with ⟨c?, hItem, hTail⟩
      rcases bind_eq_ok_iff.mp hTail with
        ⟨conditions, hRest, hAll⟩
      cases hAll
      rw [List.map_append, ← Option.toList_map, itemMeanings,
        truth_condition? .conjunctive item hItem,
        truths_itemConditions rest hRest]

end

------------------------------------------------------------
-- Preservation of Meaning
------------------------------------------------------------

/-
  Wherever a filter compiles, its condition is as true as the
  filter means, and a filter without one means nothing.
-/
theorem compiled_meaning
    (schema : Schema)
    (assign : Predicate → Truth)
    (context : Context)
    (f : Filter)
    (c? : Option Condition)
    (hCondition : f.condition? schema context = .ok c?) :
    (∀ c, c? = some c →
      f.meaning? schema assign context =
        some (c.truth assign)) ∧
    (c? = none → f.meaning? schema assign context = none) := by
  have hTruth := truth_condition? assign context f hCondition
  constructor
  · rintro c rfl
    exact hTruth.symm
  · rintro rfl
    exact hTruth.symm

/- Two integer fields. -/
def integerSchema : Schema :=
  ⟨[("views", ⟨⟨"views"⟩, .integer, false⟩),
    ("score", ⟨⟨"score"⟩, .integer, false⟩)]⟩

/-
  Alternatives: neither one view nor no score, or more than
  three or fewer than two views. An empty element and an
  empty connective say nothing.
-/
def alternatives : Filter :=
  ⟨[(.connective .or, .branch
      ⟨[(.connective .not, .branches
          [⟨[(.field "views",
              .literal (.number (.integer 1)))]⟩,
            ⟨[(.field "score", .null)]⟩, ⟨[]⟩]),
        (.field "views", .operators ⟨.sensitive,
          [(.greater, .value (.number (.integer 3))),
            (.less, .value (.number (.integer 2)))]⟩)]⟩),
    (.connective .and, .branches [])]⟩

theorem compiled_meaning_alternatives :
    ∃ c, alternatives.condition? integerSchema .conjunctive =
        .ok (some c) ∧
      c.truth (IntegerRow.truth [("views", 1)]) = .holds ∧
      alternatives.meaning? integerSchema
          (IntegerRow.truth [("views", 1)]) .conjunctive =
        some .holds := by
  refine ⟨_, rfl, by decide, ?_⟩
  exact (compiled_meaning integerSchema
    (IntegerRow.truth [("views", 1)]) .conjunctive
    alternatives _ rfl).1 _ rfl

end Filter

end Criteria
