import Criteria.Proofs.ConditionTyping

/-
  This file proves that a filter has no condition only where
  it says nothing.

  A filter says something if some entry of it, at any depth,
  is null, a literal or has an operator. Then its condition
  is there in every context, and no junction in a condition
  is empty, so that none of them holds or fails for want of
  parts. A cursor adds a condition where it has a value.

  Key definitions include:
    * `Condition.Filled`
    * `Filter.Content.Says`
    * `Filter.Silent`

  Main statements:
    * `Condition.predicates_ne_nil`
    * `Operator.filled_condition`
    * `Filter.filled_condition?`
    * `Filter.eq_none_iff_silent`
    * `Filter.missing_iff_silent`
-/

------------------------------------------------------------
-- Filled Conditions
------------------------------------------------------------

namespace Criteria

namespace Condition

mutual

/- No junction in a condition is empty, at any depth. -/
def Filled : Condition → Prop
  | .predicate _ => True
  | .junction _ _ parts => parts ≠ [] ∧ PartsFilled parts

def PartsFilled : List Condition → Prop
  | [] => True
  | c :: rest => c.Filled ∧ PartsFilled rest

end

theorem partsFilled_iff (parts : List Condition) :
    PartsFilled parts ↔ ∀ c ∈ parts, c.Filled := by
  induction parts with
  | nil => simp [PartsFilled]
  | cons c rest ih =>
      rw [PartsFilled, List.forall_mem_cons, ih]

theorem filled_junction_iff
    (negated : Bool)
    (kind : Junction)
    (parts : List Condition) :
    (junction negated kind parts).Filled ↔
      parts ≠ [] ∧ ∀ c ∈ parts, c.Filled := by
  rw [Filled, partsFilled_iff]

theorem filled_single (p : Predicate) :
    (single p).Filled := by
  simp [single, filled_junction_iff, Filled]

theorem Filled.negate
    {c : Condition}
    (hFilled : c.Filled) : c.negate.Filled := by
  cases c with
  | predicate p =>
      simp [Condition.negate, filled_junction_iff, Filled]
  | junction negated kind parts => exact hFilled

theorem Filled.negateIf
    {c : Condition}
    (hFilled : c.Filled)
    (negated : Bool) : (c.negateIf negated).Filled := by
  cases negated
  · exact hFilled
  · exact hFilled.negate

/- What is taken out of a junction was in it. -/
theorem Filled.element
    {c : Condition}
    (hFilled : c.Filled) : c.element.Filled := by
  unfold Condition.element
  split
  · exact ((filled_junction_iff _ _ _).mp hFilled).2 _
      List.mem_cons_self
  · exact hFilled

theorem filled_join
    (kind : Junction)
    {parts : List Condition}
    (hSome : parts ≠ [])
    (hParts : ∀ c ∈ parts, c.Filled) :
    (join kind parts).Filled := by
  refine (filled_junction_iff _ _ _).mpr ⟨?_, ?_⟩
  · simpa using hSome
  · intro c hPart
    rcases List.mem_map.mp hPart with ⟨d, hGiven, rfl⟩
    exact (hParts d hGiven).element

variable {conditions : List Condition}
variable (kind : Junction)
variable (hFilled : ∀ c ∈ conditions, c.Filled)

include hFilled in
theorem filled_combine :
    ∀ c ∈ combine kind conditions, c.Filled := by
  intro c hCombine
  match conditions with
  | [] => cases hCombine
  | [d] =>
      cases hCombine
      exact hFilled c List.mem_cons_self
  | d :: e :: rest =>
      cases hCombine
      exact filled_join kind (by simp) hFilled

include hFilled in
theorem filled_wrap :
    ∀ c ∈ wrap kind conditions, c.Filled := by
  intro c hWrap
  cases conditions with
  | nil => cases hWrap
  | cons d rest =>
      cases hWrap
      exact filled_join kind (by simp) hFilled

mutual

/- Without empty junctions something is tested. -/
theorem predicates_ne_nil : ∀ c : Condition,
    c.Filled → c.predicates ≠ []
  | .predicate p, _ => by simp [predicates]
  | .junction negated kind parts, hFilled =>
      partPredicates_ne_nil parts hFilled.1 hFilled.2

theorem partPredicates_ne_nil : ∀ parts : List Condition,
    parts ≠ [] → PartsFilled parts →
      partPredicates parts ≠ []
  | [], hSome, _ => absurd rfl hSome
  | c :: rest, _, hFilled => by
      rw [partPredicates]
      exact List.append_ne_nil_of_left_ne_nil
        (predicates_ne_nil c hFilled.1) _

end

/- So only no condition tests nothing. -/
theorem tests_eq_nil_iff
    {c? : Option Condition}
    (hFilled : ∀ c ∈ c?, c.Filled) :
    tests c? = [] ↔ c? = none := by
  cases c? with
  | none => simp [tests]
  | some c =>
      simpa [tests] using predicates_ne_nil c (hFilled c rfl)

end Condition

end Criteria

------------------------------------------------------------
-- Operators
------------------------------------------------------------

namespace Criteria

open Except Condition

namespace Operator

variable {op : Operator}
variable {name : String}
variable {field : Field}
variable (operand : Json)

private theorem filled_equality (positive : Bool) :
    ResultsAre Filled
      (op.equality field positive operand) := by
  unfold equality
  split
  · exact .ok (filled_single _)
  · exact .after _ fun value => .ok (filled_single _)

private theorem filled_membership (positive : Bool) :
    ResultsAre Filled
      (op.membership field positive operand) := by
  refine .after _ fun values => ?_
  cases values with
  | nil => exact .ok (filled_single _)
  | cons value rest => exact .ok (filled_single _)

private theorem filled_ordering
    (comparison : Comparison)
    (negated : Bool) :
    ResultsAre Filled
      (op.ordering field comparison negated operand) :=
  .after _ fun _ => .ok ((filled_single _).negateIf negated)

private theorem filled_matching
    (build : String → String)
    (mode : MatchMode)
    (negated : Bool) :
    ResultsAre Filled
      (op.matching field build mode negated operand) :=
  .after _ fun _ => .after _ fun _ => .ok (filled_single _)

private theorem filled_having (negated : Bool) :
    ResultsAre Filled
      (op.having name field negated operand) := by
  refine .after _ fun _ => ?_
  split
  · exact .error _
  · exact .after _ fun value =>
      .ok ((filled_single _).negateIf negated)

/- A list of no values is a constant, not a junction of none. -/
private theorem filled_havingMany
    (kind : Junction)
    (negated : Bool) :
    ResultsAre Filled
      (op.havingMany name field kind negated operand) := by
  refine .after _ fun _ => .after _ fun values => .ok ?_
  refine Filled.negateIf ?_ negated
  cases values with
  | nil => exact filled_single _
  | cons value rest =>
      refine filled_join kind (by simp) ?_
      intro c hPart
      rcases List.mem_map.mp hPart with ⟨_, _, rfl⟩
      trivial

theorem filled_condition
    (mode : MatchMode)
    (context : Context) :
    ResultsAre Filled
      (op.condition name field mode context operand) := by
  cases op with
  | not | equals => exact filled_equality operand _
  | oneOf | noneOf => exact filled_membership operand _
  | less | lessOrEqual | greater | greaterOrEqual =>
      exact filled_ordering operand _ _
  | contains | startsWith | endsWith =>
      exact filled_matching operand _ mode _
  | has => exact filled_having operand _
  | hasEvery | hasSome => exact filled_havingMany operand _ _

end Operator

------------------------------------------------------------
-- Filters
------------------------------------------------------------

namespace Filter

variable {name : String}
variable {field : Field}

mutual

theorem Operators.filled_condition?
    (context : Context) :
    ∀ operators : Operators,
    ResultsAre (∀ c ∈ ·, c.Filled)
      (operators.condition? name field context)
  | ⟨mode, entries⟩ => by
      rw [Operators.condition?]
      exact (filled_operatorConditions mode context
        entries).bind fun conditions hFilled =>
          .ok (filled_combine _ hFilled)

theorem filled_operatorConditions
    (mode : MatchMode)
    (context : Context) :
    ∀ entries : List (Operator × Operand),
    ResultsAre (∀ c ∈ ·, c.Filled)
      (operatorConditions name field mode context entries)
  | [] => .ok (by simp)
  | (op, operand) :: rest => by
      rw [operatorConditions]
      refine (Operand.filled_condition mode context op
        operand).bind fun c hFirst => ?_
      refine (filled_operatorConditions mode context
        rest).bind fun cs hRest => .ok ?_
      exact List.forall_mem_cons.mpr ⟨hFirst, hRest⟩

theorem Operand.filled_condition
    (mode : MatchMode)
    (context : Context)
    (op : Operator) :
    ∀ operand : Operand,
    ResultsAre Filled
      (operand.condition name field mode context op)
  | .value v => op.filled_condition v mode context
  | .nested operators => by
      cases op with
      | not =>
          rw [Operand.condition]
          refine (Operators.filled_condition? context.flipped
            operators).bind fun c? hFilled => .ok ?_
          -- To be not nothing is a constant, not missing.
          cases c? with
          | none => exact filled_single _
          | some c => exact hFilled c rfl
      | _ => exact .error _

end

variable {schema : Schema}

theorem filled_fieldCondition?
    (context : Context)
    (name : String)
    (content : Content) :
    ResultsAre (∀ c ∈ ·, c.Filled)
      (fieldCondition? schema context name content) := by
  refine .after _ fun field => ?_
  cases content with
  | null =>
      refine .ok ?_
      rintro _ ⟨⟩
      exact filled_single _
  | literal v =>
      refine (Operator.filled_condition v _ _).bind
        fun c hFilled => .ok ?_
      rintro _ ⟨⟩
      exact hFilled
  | operators operators =>
      exact operators.filled_condition? context.positive
  | branches items => exact .error _
  | branch item => exact .error _

private theorem filled_field
    (context : Context)
    (name : String)
    (content : Content) :
    ResultsAre (∀ c ∈ ·, c.Filled)
      (entryCondition? schema context (.field name)
        content) := by
  rw [entryCondition?_field]
  exact filled_fieldCondition? context name content

theorem filled_connect
    (op : Connective)
    (context : Context)
    {conditions : List Condition}
    (hFilled : ∀ c ∈ conditions, c.Filled) :
    ∀ c ∈ connect op context conditions, c.Filled := by
  cases op with
  | and => exact filled_combine .all hFilled
  | or => exact filled_combine .any hFilled
  | not =>
      refine filled_combine context.junction ?_
      intro c hNegated
      rcases List.mem_map.mp hNegated with ⟨d, hGiven, rfl⟩
      exact (hFilled d hGiven).negate

/- What is said first, and then the rest. -/
private theorem filled_append
    {x : Except Error (Option Condition)}
    {y : Except Error (List Condition)}
    (hFirst : ResultsAre (∀ c ∈ ·, c.Filled) x)
    (hRest : ResultsAre (∀ c ∈ ·, c.Filled) y) :
    ResultsAre (∀ c ∈ ·, c.Filled)
      (do
        let c? ← x
        let cs ← y
        return c?.toList ++ cs) := by
  refine hFirst.bind fun c? hGiven => ?_
  refine hRest.bind fun cs hOthers => .ok ?_
  rw [List.forall_mem_append]
  exact ⟨by simpa using hGiven, hOthers⟩

mutual

/- Conditions of filters have no empty junctions. -/
theorem filled_condition?
    (context : Context) :
    ∀ f : Filter,
    ResultsAre (∀ c ∈ ·, c.Filled)
      (f.condition? schema context)
  | ⟨entries⟩ => by
      rw [condition?]
      exact (filled_entryConditions context entries).bind
        fun conditions hFilled =>
          .ok (filled_wrap _ hFilled)

theorem filled_entryConditions
    (context : Context) :
    ∀ entries : List (Key × Content),
    ResultsAre (∀ c ∈ ·, c.Filled)
      (entryConditions schema context entries)
  | [] => .ok (by simp)
  | (key, content) :: rest => by
      rw [entryConditions]
      exact filled_append
        (filled_entryCondition? context key content)
        (filled_entryConditions context rest)

theorem filled_entryCondition?
    (context : Context)
    (key : Key) :
    ∀ content : Content,
    ResultsAre (∀ c ∈ ·, c.Filled)
      (entryCondition? schema context key content)
  | .branches items => by
      cases key with
      | field name => exact filled_field context name _
      | connective op =>
          rw [entryCondition?]
          exact (filled_itemConditions items).bind
            fun conditions hFilled =>
              .ok (filled_connect op context hFilled)
  | .branch item => by
      cases key with
      | field name => exact filled_field context name _
      | connective op =>
          have hConnected : ∀ op : Connective,
              ResultsAre (∀ c ∈ ·, c.Filled)
                (do
                  let c? ← item.condition? schema .conjunctive
                  return connect op context c?.toList) :=
            fun op =>
              (filled_condition? .conjunctive item).bind
                fun c? hFilled =>
                  .ok (filled_connect op context
                    (by simpa using hFilled))
          cases op with
          | or => exact filled_condition? .disjunctive item
          | and => exact hConnected .and
          | not => exact hConnected .not
  | .null => by
      cases key with
      | field name => exact filled_field context name _
      | connective op => exact .error _
  | .literal v => by
      cases key with
      | field name => exact filled_field context name _
      | connective op => exact .error _
  | .operators operators => by
      cases key with
      | field name => exact filled_field context name _
      | connective op => exact .error _

theorem filled_itemConditions :
    ∀ items : List Filter,
    ResultsAre (∀ c ∈ ·, c.Filled)
      (itemConditions schema items)
  | [] => .ok (by simp)
  | item :: rest => by
      rw [itemConditions]
      exact filled_append (filled_condition? .conjunctive item)
        (filled_itemConditions rest)

end

------------------------------------------------------------
-- Silent Filters
------------------------------------------------------------

/- An operator says something, whatever it is applied to. -/
def Content.Says : Content → Prop
  | .null => True
  | .literal _ => True
  | .operators inner => inner.entries ≠ []
  | .branches _ => False
  | .branch _ => False

/- No entry says anything, at any depth. -/
def Silent (f : Filter) : Prop :=
  ∀ entry ∈ f.within, ¬ entry.2.Says

theorem Operators.eq_none_iff
    {context : Context}
    {operators : Operators}
    {c? : Option Condition}
    (hCondition :
      operators.condition? name field context = .ok c?) :
    c? = none ↔ operators.entries = [] := by
  constructor
  · rintro rfl
    exact entries_eq_nil hCondition
  · intro hNone
    rcases operators with ⟨mode, entries⟩
    cases hNone
    cases hCondition
    rfl

/- A leaf is a field of a plain form, and says what it tests. -/
theorem tests_leafCondition?_eq_nil_iff
    {leaf : Key × Content}
    {c? : Option Condition}
    (hLeaf : leafCondition? schema leaf = .ok c?) :
    tests c? = [] ↔ ¬ leaf.2.Says := by
  rcases leaf with ⟨key, content⟩
  cases key with
  | connective op => cases hLeaf
  | field name =>
      rw [tests_eq_nil_iff
        (filled_fieldCondition? .conjunctive name content c?
          hLeaf)]
      rcases bind_eq_ok_iff.mp hLeaf with
        ⟨field, _, hContent⟩
      cases content with
      | null =>
          cases hContent
          simp [Content.Says]
      | literal v =>
          rcases bind_eq_ok_iff.mp hContent with
            ⟨c, _, hSome⟩
          cases hSome
          simp [Content.Says]
      | operators operators =>
          rw [Operators.eq_none_iff hContent, Content.Says,
            not_not]
      | branches items => cases hContent
      | branch item => cases hContent

theorem tests_leaves_eq_nil_iff
    {leaves : List (Key × Content)}
    {ds : List (Option Condition)}
    (hLeaves :
      leaves.mapM (leafCondition? schema) = .ok ds) :
    ds.flatMap tests = [] ↔
      ∀ leaf ∈ leaves, ¬ leaf.2.Says := by
  have hEach := mapM_eq_ok_iff.mp hLeaves
  clear hLeaves
  induction hEach with
  | nil => simp
  | cons hFirst _ ih =>
      rw [List.flatMap_cons, List.append_eq_nil_iff,
        List.forall_mem_cons]
      exact and_congr
        (tests_leafCondition?_eq_nil_iff hFirst) ih

theorem Content.Says.isLeaf
    {key : Key}
    {content : Content}
    (hSays : content.Says) : IsLeaf (key, content) := by
  cases content with
  | branches items => exact hSays.elim
  | branch item => exact hSays.elim
  | _ => cases key <;> trivial

/- A filter says what its leaves say. -/
theorem silent_iff
    {f : Filter}
    (hFlat : ∀ leaf ∈ f.leaves, contentWithin leaf.2 = []) :
    f.Silent ↔ ∀ leaf ∈ f.leaves, ¬ leaf.2.Says := by
  constructor
  · intro hSilent leaf hLeaf
    exact hSilent leaf (within_of_mem_leaves f hLeaf).1
  · intro hLeaves entry hEntry hSays
    exact hLeaves entry
      (mem_leaves_of_within f hFlat hSays.isLeaf hEntry)
      hSays

/- There is no condition only where nothing is said. -/
theorem eq_none_iff_silent
    {context : Context}
    {f : Filter}
    {c? : Option Condition}
    (hCondition : f.condition? schema context = .ok c?) :
    c? = none ↔ f.Silent := by
  have hAgree :
      Agree (fun c? ds => tests c? = ds.flatMap tests)
        (f.condition? schema context)
        (f.leaves.mapM (leafCondition? schema)) :=
    agree_leaves context f
  rw [hCondition] at hAgree
  rcases hAgree.exists_ok with ⟨ds, hLeaves, hTests⟩
  -- A field that holds filters would have been refused.
  have hFlat : ∀ leaf ∈ f.leaves,
      contentWithin leaf.2 = [] := by
    intro leaf hLeaf
    rcases exists_mapM_eq_ok_iff.mp ⟨ds, hLeaves⟩ leaf
        hLeaf with
      ⟨d?, hGiven⟩
    rcases fits_of_leafCondition? hGiven with
      ⟨_, _, _, hNone, _⟩
    exact hNone
  rw [← tests_eq_nil_iff
      (filled_condition? context f c? hCondition),
    hTests, silent_iff hFlat,
    tests_leaves_eq_nil_iff hLeaves]

end Filter

------------------------------------------------------------
-- Cursors
------------------------------------------------------------

namespace Cursor

variable {primary : Key}
variable {secondary : Option Key}

theorem boundary?_eq_none_iff :
    boundary? primary secondary = none ↔
      primary.value = none := by
  unfold boundary?
  cases primary.value with
  | none => simp
  | some v =>
      cases secondary.bind fun key =>
        key.value.map fun value => (key, value) with
      | none => simp
      | some tie => simp

theorem filled_boundary? :
    ∀ c ∈ boundary? primary secondary, c.Filled := by
  intro c hBoundary
  unfold boundary? at hBoundary
  cases hValue : primary.value with
  | none => simp [hValue] at hBoundary
  | some v =>
      cases hTie : secondary.bind fun key =>
          key.value.map fun value => (key, value) with
      | none =>
          simp only [hValue, hTie] at hBoundary
          cases hBoundary
          exact filled_single _
      | some tie =>
          simp only [hValue, hTie] at hBoundary
          cases hBoundary
          have hPair :
              (join .all [.predicate (primary.equal v),
                .predicate (tie.1.past tie.2)]).Filled :=
            filled_join .all (by simp) (by simp [Filled])
          exact filled_join .any (by simp)
            (by simp [hPair, Filled])

theorem both_eq_none_iff (c? d? : Option Condition) :
    both c? d? = none ↔ c? = none ∧ d? = none := by
  cases c? <;> cases d? <;> simp [both]

theorem filled_both
    {c? d? : Option Condition}
    (hFirst : ∀ c ∈ c?, c.Filled)
    (hSecond : ∀ d ∈ d?, d.Filled) :
    ∀ c ∈ both c? d?, c.Filled := by
  cases c? with
  | none => exact hSecond
  | some c =>
      cases d? with
      | none => exact hFirst
      | some d =>
          rintro _ ⟨⟩
          refine filled_join .all (by simp) ?_
          simp [hFirst c rfl, hSecond d rfl]

end Cursor

------------------------------------------------------------
-- What Conditions Say
------------------------------------------------------------

namespace Filter

/-
  Where a filter has a condition at all, it is missing only
  if the filter is silent, and no junction in it is empty.
  After a cursor the same holds, and then it is missing only
  if the cursor has no first value, too.
-/
theorem missing_iff_silent
    (schema : Schema)
    (context : Context)
    (f : Filter)
    (c? : Option Condition)
    (hCondition : f.condition? schema context = .ok c?) :
    (c? = none ↔ f.Silent) ∧
    (∀ c, c? = some c → c.Filled) ∧
    ∀ limit primary secondary,
      ((Cursor.paginate c? limit primary
            secondary).condition = none ↔
          f.Silent ∧ primary.value = none) ∧
      ∀ c, (Cursor.paginate c? limit primary
          secondary).condition = some c → c.Filled := by
  have hSilent := eq_none_iff_silent hCondition
  have hFilled := filled_condition? context f c? hCondition
  refine ⟨hSilent, hFilled, ?_⟩
  intro limit primary secondary
  constructor
  · rw [Cursor.paginate, Cursor.both_eq_none_iff, hSilent,
      Cursor.boundary?_eq_none_iff]
  · exact Cursor.filled_both hFilled Cursor.filled_boundary?

/- Nothing is said, in every way there is. -/
def idleEntries : List (Key × Content) :=
  [(.field "views", .operators ⟨.insensitive, []⟩),
    (.connective .not, .branches
      [⟨[]⟩, ⟨[(.connective .or, .branch ⟨[]⟩)]⟩]),
    (.connective .and, .branches [])]

/- To be not nothing says something of a field. -/
def trivialEntry : Key × Content :=
  (.connective .or, .branches
    [⟨[(.field "id", .operators ⟨.sensitive,
      [(.not, .nested ⟨.sensitive, []⟩)]⟩)]⟩])

/- A cursor on its first page. -/
def startOfIds : Cursor.Key :=
  ⟨"id", ⟨"id"⟩, .ascending, none⟩

theorem missing_iff_silent_idleEntries :
    (⟨idleEntries⟩ : Filter).condition?
        Translator.viewsTranslator.schema .negated =
      .ok none ∧
    (⟨idleEntries⟩ : Filter).Silent ∧
    (∀ limit secondary,
      (Cursor.paginate none limit startOfIds
        secondary).condition = none) ∧
    ∃ c, (⟨idleEntries ++ [trivialEntry]⟩ : Filter).condition?
        Translator.viewsTranslator.schema .disjunctive =
        .ok (some c) ∧
      c.Filled ∧
      ¬ (⟨idleEntries ++ [trivialEntry]⟩ : Filter).Silent := by
  have hIdle := missing_iff_silent
    Translator.viewsTranslator.schema .negated ⟨idleEntries⟩
    _ rfl
  have hSaid := missing_iff_silent
    Translator.viewsTranslator.schema .disjunctive
    ⟨idleEntries ++ [trivialEntry]⟩ _ rfl
  have hSilent := hIdle.1.mp rfl
  refine ⟨rfl, hSilent, ?_, _, rfl, hSaid.2.1 _ rfl, ?_⟩
  · intro limit secondary
    exact (hIdle.2.2 limit startOfIds secondary).1.mpr
      ⟨hSilent, rfl⟩
  · intro hNothing
    cases hSaid.1.mpr hNothing

end Filter

end Criteria
