import Criteria.Proofs.BoundValues

/-
  This file proves that conditions suit the columns that they
  test.

  A predicate fits a field if it is about the column of the
  field, its values have the kind of the field, its list is
  not empty, and it asks for a list column, or for a column
  of single strings, only where there is one. What an
  operator gives fits its field in every context, and so does
  what a cursor gives. A constant stands only where there is
  nothing to test.

  Key definitions include:
    * `Predicate.Fits`
    * `Filter.Content.Idle`
    * `Filter.Typed`
    * `Translator.CursorTyped`

  Main statements:
    * `Operator.fits_of_condition`
    * `Filter.typed_of_condition?`
    * `Translator.typed_of_translateWithin`
    * `Translator.conditions_typed`
-/

------------------------------------------------------------
-- Predicates that Fit
------------------------------------------------------------

namespace Criteria

/-
  A predicate fits a field. A constant is about no column; it
  fits where there is nothing to test.
-/
def Predicate.Fits
    (field : Field)
    (idle : Prop) : Predicate → Prop
  | .compare column _ value =>
      column = field.column ∧ value.kind? = some field.kind
  | .null column _ => column = field.column
  | .member column _ values =>
      column = field.column ∧ values ≠ [] ∧
        ∀ value ∈ values, value.kind? = some field.kind
  | .like column _ _ _ =>
      column = field.column ∧ field.kind = .string ∧
        field.isList = false
  | .element column value =>
      column = field.column ∧
        value.kind? = some field.kind ∧ field.isList = true
  | .constant _ => idle

namespace Predicate.Fits

variable {field : Field}
variable {idle : Prop}
variable {p : Predicate}

theorem mono
    {other : Prop}
    (hFits : p.Fits field idle)
    (hOther : idle → other) : p.Fits field other := by
  cases p with
  | constant b => exact hOther hFits
  | _ => exact hFits

/- All bound values have the kind of the field. -/
theorem kind?_eq
    (hFits : p.Fits field idle)
    {value : Value}
    (hValue : value ∈ p.values) :
    value.kind? = some field.kind := by
  cases p with
  | compare column comparison v =>
      cases List.mem_singleton.mp hValue
      exact hFits.2
  | null column negated => cases hValue
  | member column negated values =>
      exact hFits.2.2 value hValue
  | like column negated mode pattern =>
      cases List.mem_singleton.mp hValue
      rw [hFits.2.1]
      rfl
  | element column v =>
      cases List.mem_singleton.mp hValue
      exact hFits.2.1
  | constant b => cases hValue

end Predicate.Fits

------------------------------------------------------------
-- Single Operators
------------------------------------------------------------

namespace Coercion

open Except

variable {op : String}
variable {kind : Kind}
variable {operand : Json}

/- All elements of a list have its kind. -/
theorem kind?_list
    {values : List Value}
    (hList : list op kind operand = .ok values) :
    ∀ value ∈ values, value.kind? = some kind := by
  cases operand with
  | array items =>
      intro value hValue
      rcases mem_of_mapM_eq_ok hList hValue with
        ⟨item, _, hItem⟩
      exact kind?_scalar hItem
  | _ => cases hList

theorem eq_of_list_nil
    (hList : list op kind operand = .ok []) :
    operand = .array [] := by
  cases operand with
  | array items =>
      have hEach := mapM_eq_ok_iff.mp hList
      rw [List.forall₂_nil_right_iff.mp hEach]
  | _ => cases hList

end Coercion

namespace Operator

open Except Condition

variable {op : Operator}
variable {name : String}
variable {field : Field}
variable {operand : Json}
variable {c : Condition}
variable {p : Predicate}

theorem kind?_scalarValue
    {value : Value}
    (hScalar :
      op.scalarValue field.kind operand = .ok value) :
    value.kind? = some field.kind := by
  cases operand with
  | array items => cases hScalar
  | object members => cases hScalar
  | _ => exact Coercion.kind?_scalar hScalar

theorem isList_of_ensureList
    (hEnsure : op.ensureList name field = .ok ()) :
    field.isList = true := by
  unfold ensureList at hEnsure
  split at hEnsure
  · assumption
  · cases hEnsure

theorem kind_of_ensureString
    (hEnsure : op.ensureString field = .ok ()) :
    field.kind = .string ∧ field.isList = false := by
  unfold ensureString at hEnsure
  split at hEnsure
  · cases hEnsure
  · rename_i hPlain
    simpa using hPlain

/- Equality tests for a value or for NULL. -/
theorem fits_of_equality
    {idle : Prop}
    {positive : Bool}
    (hCondition :
      op.equality field positive operand = .ok c)
    (hMember : p ∈ c.predicates) : p.Fits field idle := by
  unfold equality at hCondition
  split at hCondition
  · cases hCondition
    cases List.mem_singleton.mp hMember
    exact rfl
  · rcases bind_eq_ok_iff.mp hCondition with
      ⟨value, hScalar, hSingle⟩
    cases hSingle
    cases List.mem_singleton.mp hMember
    exact ⟨rfl, kind?_scalarValue hScalar⟩

private theorem fits_of_membership
    {positive : Bool}
    (hCondition :
      op.membership field positive operand = .ok c)
    (hMember : p ∈ c.predicates) :
    p.Fits field (operand = .array []) := by
  rcases bind_eq_ok_iff.mp hCondition with
    ⟨values, hList, hSingle⟩
  have hKinds := Coercion.kind?_list hList
  cases values with
  | nil =>
      cases hSingle
      cases List.mem_singleton.mp hMember
      exact Coercion.eq_of_list_nil hList
  | cons value rest =>
      cases hSingle
      cases List.mem_singleton.mp hMember
      exact ⟨rfl, List.cons_ne_nil _ _, hKinds⟩

private theorem fits_of_ordering
    {idle : Prop}
    {comparison : Comparison}
    {negated : Bool}
    (hCondition :
      op.ordering field comparison negated operand =
        .ok c)
    (hMember : p ∈ c.predicates) : p.Fits field idle := by
  rcases bind_eq_ok_iff.mp hCondition with
    ⟨value, hScalar, hSingle⟩
  cases hSingle
  rw [predicates_negateIf] at hMember
  cases List.mem_singleton.mp hMember
  exact ⟨rfl, Coercion.kind?_scalar hScalar⟩

private theorem fits_of_matching
    {idle : Prop}
    {build : String → String}
    {mode : MatchMode}
    {negated : Bool}
    (hCondition :
      op.matching field build mode negated operand =
        .ok c)
    (hMember : p ∈ c.predicates) : p.Fits field idle := by
  rcases bind_eq_ok_iff.mp hCondition with
    ⟨text, _, hMatching⟩
  rcases bind_eq_ok_iff.mp hMatching with
    ⟨_, hEnsure, hSingle⟩
  cases hSingle
  cases List.mem_singleton.mp hMember
  exact ⟨rfl, kind_of_ensureString hEnsure⟩

private theorem fits_of_having
    {idle : Prop}
    {negated : Bool}
    (hCondition :
      op.having name field negated operand = .ok c)
    (hMember : p ∈ c.predicates) : p.Fits field idle := by
  rcases bind_eq_ok_iff.mp hCondition with
    ⟨_, hEnsure, hHaving⟩
  have hList := isList_of_ensureList hEnsure
  split at hHaving
  · cases hHaving
  · rcases bind_eq_ok_iff.mp hHaving with
      ⟨value, hScalar, hSingle⟩
    cases hSingle
    rw [predicates_negateIf] at hMember
    cases List.mem_singleton.mp hMember
    exact ⟨rfl, kind?_scalarValue hScalar, hList⟩

private theorem fits_of_havingMany
    {kind : Junction}
    {negated : Bool}
    (hCondition :
      op.havingMany name field kind negated operand =
        .ok c)
    (hMember : p ∈ c.predicates) :
    p.Fits field (operand = .array []) := by
  rcases bind_eq_ok_iff.mp hCondition with
    ⟨_, hEnsure, hHaving⟩
  rcases bind_eq_ok_iff.mp hHaving with
    ⟨values, hValues, hNegated⟩
  have hList := isList_of_ensureList hEnsure
  have hKinds := Coercion.kind?_list hValues
  cases hNegated
  rw [predicates_negateIf] at hMember
  cases values with
  | nil =>
      cases List.mem_singleton.mp hMember
      exact Coercion.eq_of_list_nil hValues
  | cons value rest =>
      rw [predicates_join, List.mem_flatMap] at hMember
      rcases hMember with ⟨part, hPart, hMember⟩
      rcases List.mem_map.mp hPart with ⟨v, hValue, rfl⟩
      cases List.mem_singleton.mp hMember
      exact ⟨rfl, hKinds v hValue, hList⟩

/- What an operator gives fits its field in every context. -/
theorem fits_of_condition
    {mode : MatchMode}
    {context : Context}
    (hCondition :
      op.condition name field mode context operand =
        .ok c)
    (hMember : p ∈ c.predicates) :
    p.Fits field (operand = .array []) := by
  cases op with
  | not | equals => exact fits_of_equality hCondition hMember
  | oneOf | noneOf =>
      exact fits_of_membership hCondition hMember
  | less | lessOrEqual | greater | greaterOrEqual =>
      exact fits_of_ordering hCondition hMember
  | contains | startsWith | endsWith =>
      exact fits_of_matching hCondition hMember
  | has => exact fits_of_having hCondition hMember
  | hasEvery | hasSome =>
      exact fits_of_havingMany hCondition hMember

end Operator

end Criteria

------------------------------------------------------------
-- Operator Objects
------------------------------------------------------------

namespace Criteria

namespace Filter

open Except Condition

mutual

/- Some operator of an object has nothing to test. -/
def Operators.Idle : Operators → Prop
  | ⟨_, entries⟩ => EntriesIdle entries

def EntriesIdle : List (Operator × Operand) → Prop
  | [] => False
  | (_, operand) :: rest => operand.Idle ∨ EntriesIdle rest

/- An empty array, or an object that is or holds one. -/
def Operand.Idle : Operand → Prop
  | .value v => v = .array []
  | .nested operators =>
      operators.entries = [] ∨ operators.Idle

end

/- Only operators can have nothing to test. -/
def Content.Idle : Content → Prop
  | .operators inner => inner.Idle
  | _ => False

variable {name : String}
variable {field : Field}
variable {p : Predicate}

/- An object that says nothing has no operators. -/
theorem Operators.entries_eq_nil
    {context : Context}
    {operators : Operators}
    (hCondition :
      operators.condition? name field context = .ok none) :
    operators.entries = [] := by
  rcases operators with ⟨mode, entries⟩
  rw [Operators.condition?] at hCondition
  rcases bind_eq_ok_iff.mp hCondition with
    ⟨conditions, hConditions, hCombine⟩
  cases entries with
  | nil => rfl
  | cons entry rest =>
      rcases entry with ⟨op, operand⟩
      rw [operatorConditions] at hConditions
      rcases bind_eq_ok_iff.mp hConditions with
        ⟨c, _, hRest⟩
      rcases bind_eq_ok_iff.mp hRest with ⟨cs, _, hAll⟩
      cases hAll
      cases cs <;> cases hCombine

mutual

/- What an object gives fits its field in every context. -/
theorem Operators.fits_of_condition?
    (context : Context) :
    ∀ (operators : Operators) {c? : Option Condition},
    operators.condition? name field context = .ok c? →
      p ∈ tests c? → p.Fits field operators.Idle
  | ⟨mode, entries⟩, c?, hCondition, hMember => by
      rw [Operators.condition?] at hCondition
      rcases bind_eq_ok_iff.mp hCondition with
        ⟨conditions, hConditions, hCombine⟩
      cases hCombine
      rw [tests_combine] at hMember
      exact fits_of_operatorConditions mode context entries
        hConditions hMember

theorem fits_of_operatorConditions
    (mode : MatchMode)
    (context : Context) :
    ∀ (entries : List (Operator × Operand))
      {conditions : List Condition},
    operatorConditions name field mode context entries =
        .ok conditions →
      p ∈ conditions.flatMap predicates →
      p.Fits field (EntriesIdle entries)
  | [], _, hConditions, hMember => by
      cases hConditions
      cases hMember
  | (op, operand) :: rest, _, hConditions, hMember => by
      rw [operatorConditions] at hConditions
      rcases bind_eq_ok_iff.mp hConditions with
        ⟨c, hFirst, hTail⟩
      rcases bind_eq_ok_iff.mp hTail with ⟨cs, hRest, hAll⟩
      cases hAll
      rw [List.flatMap_cons, List.mem_append] at hMember
      rcases hMember with hMember | hMember
      · exact (Operand.fits_of_condition mode context op
          operand hFirst hMember).mono .inl
      · exact (fits_of_operatorConditions mode context rest
          hRest hMember).mono .inr

theorem Operand.fits_of_condition
    (mode : MatchMode)
    (context : Context)
    (op : Operator) :
    ∀ (operand : Operand) {c : Condition},
    operand.condition name field mode context op = .ok c →
      p ∈ c.predicates → p.Fits field operand.Idle
  | .value v, c, hCondition, hMember =>
      Operator.fits_of_condition hCondition hMember
  | .nested operators, c, hCondition, hMember => by
      cases op with
      | not =>
          rcases bind_eq_ok_iff.mp hCondition with
            ⟨inner, hInner, hGiven⟩
          cases hGiven
          cases inner with
          | none =>
              cases List.mem_singleton.mp hMember
              exact .inl (Operators.entries_eq_nil hInner)
          | some c =>
              exact (Operators.fits_of_condition?
                context.flipped operators hInner
                hMember).mono .inr
      | _ => cases hCondition

end

------------------------------------------------------------
-- Filters
------------------------------------------------------------

/-
  The names of a filter are known, at every depth, and
  predicates fit the fields that it names.
-/
structure Typed
    (schema : Schema)
    (f : Filter)
    (predicates : List Predicate) : Prop where
  known : ∀ name content,
    (.field name, content) ∈ f.within →
      ∃ field, schema.find? name = some field
  fits : ∀ p ∈ predicates, ∃ name content field,
    (.field name, content) ∈ f.within ∧
    schema.find? name = some field ∧
    p.Fits field content.Idle

variable {schema : Schema}

/- A leaf with a condition is a known field of a plain form. -/
theorem fits_of_leafCondition?
    {leaf : Key × Content}
    {c? : Option Condition}
    (hLeaf : leafCondition? schema leaf = .ok c?) :
    ∃ name field,
      leaf.1 = .field name ∧ contentWithin leaf.2 = [] ∧
      schema.find? name = some field ∧
      ∀ p ∈ tests c?, p.Fits field leaf.2.Idle := by
  rcases leaf with ⟨key, content⟩
  cases key with
  | connective op => cases hLeaf
  | field name =>
      rcases bind_eq_ok_iff.mp hLeaf with
        ⟨field, hField, hContent⟩
      have hFind :=
        (schema.resolve_eq_ok_iff name field).mp hField
      cases content with
      | null =>
          cases hContent
          refine ⟨name, field, rfl, rfl, hFind, ?_⟩
          intro p hMember
          cases List.mem_singleton.mp hMember
          exact rfl
      | literal v =>
          rcases bind_eq_ok_iff.mp hContent with
            ⟨c, hEquality, hSome⟩
          cases hSome
          refine ⟨name, field, rfl, rfl, hFind, ?_⟩
          intro p hMember
          exact Operator.fits_of_equality hEquality hMember
      | operators operators =>
          refine ⟨name, field, rfl, rfl, hFind, ?_⟩
          intro p hMember
          exact Operators.fits_of_condition? _ operators
            hContent hMember
      | branches items => cases hContent
      | branch item => cases hContent

/-
  Where a filter has a condition its leaves have theirs, and
  what these test fits their fields.
-/
theorem typed_of_condition?
    {context : Context}
    {f : Filter}
    {c? : Option Condition}
    (hCondition : f.condition? schema context = .ok c?) :
    f.Typed schema (tests c?) := by
  have hAgree :
      Agree (fun c? ds => tests c? = ds.flatMap tests)
        (f.condition? schema context)
        (f.leaves.mapM (leafCondition? schema)) :=
    agree_leaves context f
  rw [hCondition] at hAgree
  rcases hAgree.exists_ok with ⟨ds, hLeaves, hTests⟩
  have hLeaf : ∀ leaf ∈ f.leaves, ∃ d?,
      leafCondition? schema leaf = .ok d? :=
    exists_mapM_eq_ok_iff.mp ⟨ds, hLeaves⟩
  constructor
  · intro name content hEntry
    have hFlat : ∀ leaf ∈ f.leaves,
        contentWithin leaf.2 = [] := by
      intro leaf hMember
      rcases hLeaf leaf hMember with ⟨d?, hGiven⟩
      rcases fits_of_leafCondition? hGiven with
        ⟨_, _, _, hNone, _⟩
      exact hNone
    have hKind : IsLeaf (.field name, content) := trivial
    have hMember := mem_leaves_of_within f hFlat hKind hEntry
    rcases hLeaf _ hMember with ⟨d?, hGiven⟩
    rcases fits_of_leafCondition? hGiven with
      ⟨_, field, hName, _, hFind, _⟩
    cases hName
    exact ⟨field, hFind⟩
  · intro p hTested
    rw [hTests, List.mem_flatMap] at hTested
    rcases hTested with ⟨d?, hGivenIn, hTested⟩
    rcases mem_of_mapM_eq_ok hLeaves hGivenIn with
      ⟨⟨key, content⟩, hMember, hGiven⟩
    rcases fits_of_leafCondition? hGiven with
      ⟨name, field, rfl, _, hFind, hFits⟩
    exact ⟨name, content, field,
      (within_of_mem_leaves f hMember).1, hFind,
      hFits p hTested⟩

end Filter

end Criteria

------------------------------------------------------------
-- Cursors
------------------------------------------------------------

namespace Criteria

namespace Cursor

open Condition

/- Joined conditions are tested one after the other. -/
theorem tests_both (c? d? : Option Condition) :
    tests (both c? d?) = tests c? ++ tests d? := by
  cases c? with
  | none => rfl
  | some c =>
      cases d? with
      | none => exact (List.append_nil _).symm
      | some d =>
          have hJoin := predicates_join .all [c, d]
          simpa [both, tests] using hJoin

/- A boundary compares keys with the values that they have. -/
theorem mem_boundary?
    {primary : Key}
    {secondary : Option Key}
    {p : Predicate}
    (hMember : p ∈ tests (boundary? primary secondary)) :
    ∃ key value,
      (key = primary ∨ secondary = some key) ∧
      key.value = some value ∧
      (p = key.past value ∨ p = key.equal value) := by
  cases hValue : primary.value with
  | none => simp [boundary?, hValue, tests] at hMember
  | some v =>
      cases hTie : secondary.bind fun key =>
          key.value.map fun value => (key, value) with
      | none =>
          have hSingle :
              tests (boundary? primary secondary) =
                [primary.past v] := by
            simp [boundary?, hValue, hTie, tests,
              predicates_single]
          rw [hSingle, List.mem_singleton] at hMember
          exact ⟨primary, v, .inl rfl, hValue, .inl hMember⟩
      | some tie =>
          rcases tie with ⟨key, w⟩
          have hPair :
              tests (boundary? primary secondary) =
                [primary.past v, primary.equal v,
                  key.past w] := by
            simp [boundary?, hValue, hTie, tests,
              predicates_join, predicates]
          rcases Option.bind_eq_some_iff.mp hTie with
            ⟨other, hSecondary, hOther⟩
          rcases Option.map_eq_some_iff.mp hOther with
            ⟨value, hGiven, hSame⟩
          cases hSame
          rw [hPair] at hMember
          simp only [List.mem_cons, List.not_mem_nil,
            or_false] at hMember
          rcases hMember with hFirst | hEqual | hSecond
          · exact ⟨primary, v, .inl rfl, hValue, .inl hFirst⟩
          · exact ⟨primary, v, .inl rfl, hValue, .inr hEqual⟩
          · exact ⟨key, w, .inr hSecondary, hGiven,
              .inl hSecond⟩

/- A key with a field: its column, and a value of its kind. -/
structure Key.IsOf
    (key : Key)
    (field : Field) : Prop where
  column : key.column = field.column
  kind : ∀ value, key.value = some value →
    value.kind? = some field.kind

theorem Key.IsOf.fits
    {key : Key}
    {field : Field}
    {value : Value}
    {p : Predicate}
    (hKey : key.IsOf field)
    (hValue : key.value = some value)
    (hCompared :
      p = key.past value ∨ p = key.equal value) :
    p.Fits field False := by
  have hKind := hKey.kind value hValue
  rcases hCompared with rfl | rfl
  · unfold Key.past
    cases key.direction with
    | ascending => exact ⟨hKey.column, hKind⟩
    | descending => exact ⟨hKey.column, hKind⟩
  · exact ⟨hKey.column, hKind⟩

end Cursor

namespace Translator

open Except Condition

variable {t : Translator}
variable {keys : List SortKey}
variable {members : Json.Members}

/- A cursor key is of the field of its name. -/
theorem isOf_of_cursorKey
    {name : String}
    {operand : Json}
    {key : Cursor.Key}
    (hKey : t.cursorKey keys name operand = .ok key) :
    ∃ field, t.schema.find? name = some field ∧
      key.IsOf field := by
  rcases cursorKey_eq_ok_iff.mp hKey with
    ⟨field, value?, hField, hValue, rfl⟩
  have hFind := (t.schema.resolve_eq_ok_iff name field).mp hField
  refine ⟨field, hFind, rfl, ?_⟩
  rintro value rfl
  by_cases hNull : operand = .null
  · rw [hNull] at hValue
    cases hValue
  · rw [cursorValue?_of_ne hNull] at hValue
    rcases map_eq_ok_iff.mp hValue with
      ⟨other, hScalar, hSome⟩
    cases hSome
    exact Coercion.kind?_scalar hScalar

/- A cursor names its members and the tiebreaker. -/
def CursorNames
    (t : Translator)
    (members : Json.Members)
    (name : String) : Prop :=
  name = t.settings.tiebreaker ∨
    ∃ operand, (name, operand) ∈ members

/-
  The names of a cursor are known, and predicates fit the
  fields that it names.
-/
structure CursorTyped
    (t : Translator)
    (members : Json.Members)
    (predicates : List Predicate) : Prop where
  known : ∀ name, t.CursorNames members name →
    ∃ field, t.schema.find? name = some field
  fits : ∀ p ∈ predicates, ∃ name field,
    t.CursorNames members name ∧
    t.schema.find? name = some field ∧
    p.Fits field False

/- A member is the first key or has the tiebreaker's name. -/
theorem eq_or_eq_of_primaryMember
    {tiebreaker name other : String}
    {operand value : Json}
    (hMember :
      primaryMember tiebreaker members =
        .ok (name, operand))
    (hOther : (other, value) ∈ members) :
    other = tiebreaker ∨ other = name := by
  by_cases hTie : other = tiebreaker
  · exact .inl hTie
  · have hKept :
        (other, value) ∈
          members.filter fun m => m.1 ≠ tiebreaker := by
      simpa using And.intro hOther hTie
    rcases primaryMember_eq_ok_iff.mp hMember with
      hOne | ⟨hNone, _⟩
    · rw [hOne, List.mem_singleton] at hKept
      exact .inr (congrArg Prod.fst hKept)
    · rw [hNone] at hKept
      cases hKept

/- What a cursor adds to a condition is about its names. -/
theorem typed_of_cursorKeys
    {primary : Cursor.Key}
    {secondary : Option Cursor.Key}
    (hKeys :
      t.cursorKeys keys members =
        .ok (primary, secondary)) :
    t.CursorTyped members
      (tests (Cursor.boundary? primary secondary)) := by
  rcases cursorKeys_eq_ok_iff.mp hKeys with
    ⟨name, operand, hMember, hFirst, hSecond⟩
  rcases isOf_of_cursorKey hFirst with
    ⟨field, hFind, hPrimary⟩
  have hNamed : t.CursorNames members name := by
    have hFound := (primaryMember_cases hMember).1
    rcases List.lookup_eq_some_iff.mp hFound with
      ⟨before, after, hMembers, _⟩
    exact .inr ⟨operand, by simp [hMembers]⟩
  have hTie : ∃ tie,
      t.schema.find? t.settings.tiebreaker = some tie ∧
      ∀ key, secondary = some key → key.IsOf tie := by
    rcases hSecond with ⟨rfl, rfl⟩ | ⟨_, key, hKey, rfl⟩
    · exact ⟨field, hFind, by simp⟩
    · rcases isOf_of_cursorKey hKey with
        ⟨tie, hTie, hSecondary⟩
      refine ⟨tie, hTie, ?_⟩
      rintro _ ⟨⟩
      exact hSecondary
  rcases hTie with ⟨tie, hTieFind, hSecondary⟩
  constructor
  · intro other hOther
    have hCase :
        other = t.settings.tiebreaker ∨ other = name := by
      rcases hOther with hTieName | ⟨value, hIn⟩
      · exact .inl hTieName
      · exact eq_or_eq_of_primaryMember hMember hIn
    rcases hCase with rfl | rfl
    · exact ⟨tie, hTieFind⟩
    · exact ⟨field, hFind⟩
  · intro p hTested
    rcases Cursor.mem_boundary? hTested with
      ⟨key, value, rfl | hKey, hValue, hCompared⟩
    · exact ⟨name, field, hNamed, hFind,
        hPrimary.fits hValue hCompared⟩
    · exact ⟨_, tie, .inl rfl, hTieFind,
        (hSecondary key hKey).fits hValue hCompared⟩

------------------------------------------------------------
-- Translations
------------------------------------------------------------

/-
  The predicates of a filter that a description may have, and
  those of a cursor that it may have.
-/
structure ConditionTyped
    (t : Translator)
    (d : Description)
    (own boundary : List Predicate) : Prop where
  unfiltered : d.filter = none → own = []
  filtered : ∀ filter, d.filter = some filter →
    ∃ f, Filter.parse t.settings.maxDepth filter = .ok f ∧
      f.Typed t.schema own
  unpaged : d.cursor = none → boundary = []
  paged : ∀ cursor, d.cursor = some cursor →
    t.CursorTyped cursor boundary

theorem typed_of_filterCondition?
    {filter? : Option Json.Members}
    {c? : Option Condition}
    (hCondition : t.filterCondition? filter? = .ok c?) :
    (filter? = none → tests c? = []) ∧
    ∀ filter, filter? = some filter →
      ∃ f, Filter.parse t.settings.maxDepth filter = .ok f ∧
        f.Typed t.schema (tests c?) := by
  cases filter? with
  | none =>
      cases hCondition
      exact ⟨fun _ => rfl, by simp⟩
  | some members =>
      rcases filterCondition?_eq_ok_iff.mp hCondition with
        ⟨f, hParsed, hCompiled⟩
      refine ⟨by simp, ?_⟩
      rintro _ ⟨⟩
      exact ⟨f, hParsed,
        Filter.typed_of_condition? hCompiled⟩

/- The condition of a query is that of both its parts. -/
theorem typed_of_translateWithin
    {levels : Nat}
    {d : Description}
    {q : Query}
    (hTranslate : t.translateWithin levels d = .ok q) :
    ∃ own boundary,
      tests q.condition = own ++ boundary ∧
      t.ConditionTyped d own boundary := by
  cases levels with
  | zero => cases hTranslate
  | succ levels =>
      rcases translateWithin_succ_eq_ok_iff.mp hTranslate with
        ⟨condition, relations, columns, keys, order, hFilter,
          _, _, _, _, hApply⟩
      have hOwn := typed_of_filterCondition? hFilter
      cases hCursor : d.cursor with
      | none =>
          rw [hCursor] at hApply
          cases hApply
          refine ⟨tests condition, [],
            (List.append_nil _).symm, ?_⟩
          exact {
            unfiltered := hOwn.1
            filtered := hOwn.2
            unpaged := fun _ => rfl
            paged := by simp [hCursor] }
      | some members =>
          rw [hCursor] at hApply
          rcases applyCursor_eq_ok_iff.mp hApply with
            ⟨primary, secondary, hKeys, rfl⟩
          refine ⟨tests condition, _,
            Cursor.tests_both condition _, ?_⟩
          exact {
            unfiltered := hOwn.1
            filtered := hOwn.2
            unpaged := by simp [hCursor]
            paged := by
              rw [hCursor]
              rintro _ ⟨⟩
              exact typed_of_cursorKeys hKeys }

/-
  Every condition suits the columns that it tests: that of a
  filter in any context, and that of a translation, in which
  a cursor comes after the filter.
-/
theorem conditions_typed :
    (∀ (schema : Schema) (context : Context) (f : Filter)
        (c? : Option Condition),
      f.condition? schema context = .ok c? →
        f.Typed schema (tests c?)) ∧
    ∀ (t : Translator) (d : Description) (q : Query),
      t.translate d = .ok q →
        ∃ own boundary,
          tests q.condition = own ++ boundary ∧
          t.ConditionTyped d own boundary :=
  ⟨fun _ _ _ _ hCondition =>
      Filter.typed_of_condition? hCondition,
    fun _ _ _ hTranslate =>
      typed_of_translateWithin hTranslate⟩

/-
  A field without operators, patterns and lists under `not`,
  and elements of a list column.
-/
def mixedOperands : Filter :=
  ⟨[(.field "views", .operators ⟨.sensitive, []⟩),
    (.connective .not, .branches
      [⟨[(.field "title", .operators ⟨.insensitive,
          [(.not, .nested ⟨.sensitive,
            [(.contains, .value (.string "5%")),
              (.oneOf, .value (.array []))]⟩)]⟩)]⟩]),
    (.connective .or, .branch
      ⟨[(.field "tags", .operators ⟨.sensitive,
          [(.hasSome, .value (.array
            [.string "u", .string "v"]))]⟩),
        (.field "id", .null)]⟩)]⟩

theorem conditions_typed_mixedOperands :
    (∃ c, mixedOperands.condition? postsTranslator.schema
        .disjunctive = .ok (some c) ∧
      c.predicates =
        [.like ⟨"title"⟩ true .sensitive "%5\\%%",
          .constant true,
          .element ⟨"tags"⟩ (.string "u"),
          .element ⟨"tags"⟩ (.string "v"),
          .null ⟨"id"⟩ false] ∧
      mixedOperands.Typed postsTranslator.schema
        c.predicates) ∧
    ∃ q own boundary,
      postsTranslator.translate pagedViews = .ok q ∧
      tests q.condition = own ++ boundary ∧
      postsTranslator.ConditionTyped pagedViews own
        boundary := by
  have hTyped := conditions_typed
  constructor
  · have hFilter := hTyped.1 postsTranslator.schema
      .disjunctive mixedOperands _ rfl
    exact ⟨_, rfl, by decide, hFilter⟩
  · rcases hTyped.2 postsTranslator pagedViews _ rfl with
      ⟨own, boundary, hTests, hBoth⟩
    exact ⟨_, own, boundary, rfl, hTests, hBoth⟩

end Translator

end Criteria
