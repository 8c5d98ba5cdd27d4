import Criteria.Proofs.FilterLeaves
import Criteria.Proofs.TranslationSteps

/-
  This file proves which values a translation binds, and that
  it binds them in the order of its description.

  What a filter binds is defined by recursion on the filter,
  apart from its condition: the values of its operands, from
  left to right. A pattern is spelled out there character by
  character. What a cursor binds is defined from its members.

  Key definitions include:
    * `Pattern.spelled`
    * `Operator.bindings?`
    * `Filter.bindings?`
    * `Translator.cursorBindings?`

  Main statements:
    * `Filter.bindings?_of_condition?`
    * `Translator.cursorBindings?_of_cursorKeys`
    * `Translator.values_in_order`
-/

------------------------------------------------------------
-- What Operators Bind
------------------------------------------------------------

namespace Criteria

/- The value of an operand of a kind, if it has one. -/
def Coercion.value?
    (op : String)
    (kind : Kind)
    (operand : Json) : Option Value :=
  (scalar op kind operand).toOption

/- The same for equality, which binds nothing for null. -/
def Coercion.equated?
    (op : String)
    (kind : Kind)
    (operand : Json) : Option (List Value) :=
  match operand with
  | .null => some []
  | _ => (value? op kind operand).map fun value => [value]

/- The values of all elements of an operand, in order. -/
def Coercion.values?
    (op : String)
    (kind : Kind) : Json → Option (List Value)
  | .array items => items.mapM (value? op kind)
  | _ => none

/-
  A text as it is spelled in a pattern, with a backslash
  before each percent sign, underscore and backslash.
-/
def Pattern.spelled : List Char → List Char
  | [] => []
  | '%' :: text => '\\' :: '%' :: spelled text
  | '_' :: text => '\\' :: '_' :: spelled text
  | '\\' :: text => '\\' :: '\\' :: spelled text
  | c :: text => c :: spelled text

/- The pattern of an operand, with what stands around it. -/
def Coercion.patternValue?
    (before after : List Char) : Json → Option Value
  | .string s =>
      some (.string (String.ofList
        (before ++ Pattern.spelled s.toList ++ after)))
  | _ => none

/-
  What an operator binds for a plain operand, if the operator
  takes it.
-/
def Operator.bindings?
    (op : Operator)
    (kind : Kind)
    (operand : Json) : Option (List Value) :=
  match op with
  | .equals | .not =>
      Coercion.equated? op.keyword kind operand
  | .less | .lessOrEqual | .greater | .greaterOrEqual
  | .has =>
      (Coercion.value? op.keyword kind operand).map
        fun value => [value]
  | .oneOf | .noneOf | .hasEvery | .hasSome =>
      Coercion.values? op.keyword kind operand
  | .contains =>
      (Coercion.patternValue? ['%'] ['%'] operand).map
        fun value => [value]
  | .startsWith =>
      (Coercion.patternValue? [] ['%'] operand).map
        fun value => [value]
  | .endsWith =>
      (Coercion.patternValue? ['%'] [] operand).map
        fun value => [value]

/- Escaped texts are spelled so. -/
theorem Pattern.escapeChars_eq_spelled (text : List Char) :
    escapeChars text = spelled text := by
  fun_induction spelled text with
  | case1 => rfl
  | case2 text ih | case3 text ih | case4 text ih =>
      rw [← ih]
      rfl
  | case5 c text hPercent hUnderscore hBackslash ih =>
      have hPlain : ¬ isSpecial c = true := by
        simp only [isSpecial, Bool.or_eq_true,
          decide_eq_true_eq]
        rintro ((hChar | hChar) | hChar)
        · exact hPercent hChar
        · exact hUnderscore hChar
        · exact hBackslash hChar
      rw [← ih, escapeChars, List.flatMap_cons, escapeChar,
        if_neg hPlain]
      rfl

namespace Coercion

open Except

theorem value?_of_scalar
    {op : String}
    {kind : Kind}
    {operand : Json}
    {value : Value}
    (hScalar : scalar op kind operand = .ok value) :
    value? op kind operand = some value := by
  rw [value?, hScalar]
  rfl

theorem values?_of_list
    {op : String}
    {kind : Kind}
    {operand : Json}
    {values : List Value}
    (hList : list op kind operand = .ok values) :
    values? op kind operand = some values := by
  cases operand with
  | array items =>
      have hItems := mapM_eq_ok_iff.mp hList
      change items.mapM (value? op kind) = some values
      induction hItems with
      | nil => rfl
      | @cons item value items values hItem hRest ih =>
          rw [List.mapM_cons, value?_of_scalar hItem,
            ih (mapM_eq_ok_iff.mpr hRest)]
          rfl
  | _ => cases hList

end Coercion

namespace Operator

open Except Condition

variable {op : Operator}
variable {name : String}
variable {field : Field}
variable {operand : Json}
variable {c : Condition}

theorem value?_of_scalarValue
    {value : Value}
    (hScalar :
      op.scalarValue field.kind operand = .ok value) :
    Coercion.value? op.keyword field.kind operand =
      some value := by
  cases operand with
  | array items => cases hScalar
  | object members => cases hScalar
  | _ => exact Coercion.value?_of_scalar hScalar

private theorem equated?_of_equality
    {positive : Bool}
    (hCondition :
      op.equality field positive operand = .ok c) :
    Coercion.equated? op.keyword field.kind operand =
      some c.values := by
  unfold equality at hCondition
  split at hCondition
  · cases hCondition
    rw [values_single]
    rfl
  · rename_i hNotNull
    rcases bind_eq_ok_iff.mp hCondition with
      ⟨value, hScalar, hSingle⟩
    cases hSingle
    have hValue := value?_of_scalarValue hScalar
    unfold Coercion.equated?
    split
    · exact absurd rfl hNotNull
    · rw [hValue, values_single]
      rfl

private theorem values?_of_membership
    {positive : Bool}
    (hCondition :
      op.membership field positive operand = .ok c) :
    Coercion.values? op.keyword field.kind operand =
      some c.values := by
  rcases bind_eq_ok_iff.mp hCondition with
    ⟨values, hList, hSingle⟩
  rw [Coercion.values?_of_list hList]
  cases values with
  | nil =>
      cases hSingle
      rw [values_single]
      rfl
  | cons value rest =>
      cases hSingle
      rw [values_single]
      rfl

private theorem value?_of_ordering
    {comparison : Comparison}
    {negated : Bool}
    (hCondition :
      op.ordering field comparison negated operand =
        .ok c) :
    (Coercion.value? op.keyword field.kind operand).map
        (fun value => [value]) =
      some c.values := by
  rcases bind_eq_ok_iff.mp hCondition with
    ⟨value, hValue, hSingle⟩
  cases hSingle
  rw [values_negateIf, values_single,
    Coercion.value?_of_scalar hValue]
  rfl

private theorem patternValue?_of_matching
    {build : String → String}
    {before after : List Char}
    {mode : MatchMode}
    {negated : Bool}
    (hBuild : ∀ s,
      build s =
        String.ofList
          (before ++ Pattern.escapeChars s.toList ++ after))
    (hCondition :
      op.matching field build mode negated operand =
        .ok c) :
    (Coercion.patternValue? before after operand).map
        (fun value => [value]) =
      some c.values := by
  rcases bind_eq_ok_iff.mp hCondition with
    ⟨text, hText, hMatching⟩
  rcases bind_eq_ok_iff.mp hMatching with
    ⟨_, _, hSingle⟩
  cases hSingle
  cases operand with
  | string s =>
      cases hText
      rw [values_single, hBuild,
        Pattern.escapeChars_eq_spelled]
      rfl
  | _ => cases hText

private theorem value?_of_having
    {negated : Bool}
    (hCondition :
      op.having name field negated operand = .ok c) :
    (Coercion.value? op.keyword field.kind operand).map
        (fun value => [value]) =
      some c.values := by
  rcases bind_eq_ok_iff.mp hCondition with
    ⟨_, _, hHaving⟩
  split at hHaving
  · cases hHaving
  · rcases bind_eq_ok_iff.mp hHaving with
      ⟨value, hValue, hSingle⟩
    cases hSingle
    rw [values_negateIf, values_single,
      value?_of_scalarValue hValue]
    rfl

private theorem values?_of_havingMany
    {kind : Junction}
    {negated : Bool}
    (hCondition :
      op.havingMany name field kind negated operand =
        .ok c) :
    Coercion.values? op.keyword field.kind operand =
      some c.values := by
  rcases bind_eq_ok_iff.mp hCondition with
    ⟨_, _, hHaving⟩
  rcases bind_eq_ok_iff.mp hHaving with
    ⟨values, hList, hNegated⟩
  cases hNegated
  rw [Coercion.values?_of_list hList, values_negateIf]
  cases values with
  | nil =>
      rw [values_single]
      rfl
  | cons value rest =>
      rw [values_join, List.flatMap_map]
      simp only [values_predicate, Predicate.values,
        List.flatMap_singleton']

/- The condition of an operator binds what the operator does. -/
theorem bindings?_of_condition
    {mode : MatchMode}
    {context : Context}
    (hCondition :
      op.condition name field mode context operand =
        .ok c) :
    op.bindings? field.kind operand = some c.values := by
  cases op with
  | not | equals => exact equated?_of_equality hCondition
  | oneOf | noneOf => exact values?_of_membership hCondition
  | less | lessOrEqual | greater | greaterOrEqual =>
      exact value?_of_ordering hCondition
  | contains | startsWith =>
      exact patternValue?_of_matching (fun _ => rfl) hCondition
  | endsWith =>
      refine patternValue?_of_matching (fun s => ?_) hCondition
      rw [List.append_nil]
      rfl
  | has => exact value?_of_having hCondition
  | hasEvery | hasSome =>
      exact values?_of_havingMany hCondition

end Operator

------------------------------------------------------------
-- What Filters Bind
------------------------------------------------------------

namespace Filter

mutual

/- What the operators of an object bind, in order. -/
def Operators.bindings?
    (kind : Kind) : Operators → Option (List Value)
  | ⟨_, entries⟩ => operandBindings? kind entries

def operandBindings?
    (kind : Kind) :
    List (Operator × Operand) → Option (List Value)
  | [] => some []
  | (op, operand) :: rest => do
      let first ← operand.bindings? kind op
      let others ← operandBindings? kind rest
      return first ++ others

/- Objects are operands of `not` only. -/
def Operand.bindings?
    (kind : Kind)
    (op : Operator) : Operand → Option (List Value)
  | .value v => op.bindings? kind v
  | .nested operators =>
      match op with
      | .not => operators.bindings? kind
      | _ => none

end

/- A literal binds what equality with it binds. -/
def fieldBindings?
    (schema : Schema)
    (name : String)
    (content : Content) : Option (List Value) := do
  let field ← schema.find? name
  match content with
  | .null => some []
  | .literal v => Operator.equals.bindings? field.kind v
  | .operators operators => operators.bindings? field.kind
  | _ => none

mutual

/- What the entries of a filter bind, in order. -/
def bindings?
    (schema : Schema) : Filter → Option (List Value)
  | ⟨entries⟩ => entryBindings? schema entries

def entryBindings?
    (schema : Schema) :
    List (Key × Content) → Option (List Value)
  | [] => some []
  | (key, content) :: rest => do
      let first ← contentBindings? schema key content
      let others ← entryBindings? schema rest
      return first ++ others

/- Under a connective it does not matter which one it is. -/
def contentBindings?
    (schema : Schema)
    (key : Key) : Content → Option (List Value)
  | .branches items =>
      match key with
      | .connective _ => itemBindings? schema items
      | .field _ => none
  | .branch item =>
      match key with
      | .connective _ => item.bindings? schema
      | .field _ => none
  | content =>
      match key with
      | .connective _ => none
      | .field name => fieldBindings? schema name content

def itemBindings?
    (schema : Schema) :
    List Filter → Option (List Value)
  | [] => some []
  | item :: rest => do
      let first ← item.bindings? schema
      let others ← itemBindings? schema rest
      return first ++ others

end

------------------------------------------------------------
-- What Compiled Filters Bind
------------------------------------------------------------

theorem bound_connect
    (op : Connective)
    (context : Context)
    (conditions : List Condition) :
    Condition.bound (connect op context conditions) =
      conditions.flatMap Condition.values := by
  rw [Condition.bound_eq_tests, tests_connect,
    List.flatMap_assoc]
  rfl

open Except Condition

variable {schema : Schema}
variable {name : String}
variable {field : Field}

mutual

/- The condition of an object binds what the object does. -/
theorem Operators.bindings?_of_condition?
    (context : Context) :
    ∀ (operators : Operators) {c? : Option Condition},
    operators.condition? name field context = .ok c? →
      operators.bindings? field.kind = some (bound c?)
  | ⟨mode, entries⟩, c?, hCondition => by
      rw [Operators.condition?, bind_eq_ok_iff]
        at hCondition
      rcases hCondition with
        ⟨conditions, hEntries, hCombine⟩
      cases hCombine
      rw [Operators.bindings?, bound_combine]
      exact operandBindings?_of_operatorConditions mode
        context entries hEntries

theorem operandBindings?_of_operatorConditions
    (mode : MatchMode)
    (context : Context) :
    ∀ (entries : List (Operator × Operand))
      {conditions : List Condition},
    operatorConditions name field mode context entries =
        .ok conditions →
      operandBindings? field.kind entries =
        some (conditions.flatMap values)
  | [], _, hEntries => by
      cases hEntries
      rfl
  | (op, operand) :: rest, _, hEntries => by
      rw [operatorConditions, bind_eq_ok_iff] at hEntries
      rcases hEntries with ⟨c, hFirst, hTail⟩
      rcases bind_eq_ok_iff.mp hTail with
        ⟨conditions, hRest, hAll⟩
      cases hAll
      rw [operandBindings?,
        Operand.bindings?_of_condition mode context op operand
          hFirst,
        operandBindings?_of_operatorConditions mode context
          rest hRest]
      rfl

theorem Operand.bindings?_of_condition
    (mode : MatchMode)
    (context : Context)
    (op : Operator) :
    ∀ (operand : Operand) {c : Condition},
    operand.condition name field mode context op = .ok c →
      operand.bindings? field.kind op = some c.values
  | .value v, c, hCondition =>
      Operator.bindings?_of_condition hCondition
  | .nested operators, c, hCondition => by
      cases op with
      | not =>
          rw [Operand.condition, bind_eq_ok_iff]
            at hCondition
          rcases hCondition with ⟨c?, hInner, hDefault⟩
          cases hDefault
          rw [Operand.bindings?,
            Operators.bindings?_of_condition? context.flipped
              operators hInner]
          cases c? with
          | none => rfl
          | some inner => exact congrArg some (bound_some inner)
      | _ => cases hCondition

end

theorem fieldBindings?_of_fieldCondition?
    {context : Context}
    {content : Content}
    {c? : Option Condition}
    (hCondition :
      fieldCondition? schema context name content =
        .ok c?) :
    fieldBindings? schema name content =
      some (bound c?) := by
  rcases bind_eq_ok_iff.mp hCondition with
    ⟨field, hField, hContent⟩
  have hFind := (schema.resolve_eq_ok_iff name field).mp hField
  rw [fieldBindings?, hFind]
  cases content with
  | null =>
      cases hContent
      rw [bound_some, values_single]
      rfl
  | literal v =>
      rcases bind_eq_ok_iff.mp hContent with
        ⟨c, hLiteral, hSome⟩
      cases hSome
      rw [bound_some]
      exact Operator.bindings?_of_condition hLiteral
  | operators operators =>
      exact operators.bindings?_of_condition? context.positive
        hContent
  | branches items => cases hContent
  | branch item => cases hContent

mutual

/- The condition of a filter binds what the filter does. -/
theorem bindings?_of_condition?
    (context : Context) :
    ∀ (f : Filter) {c? : Option Condition},
    f.condition? schema context = .ok c? →
      f.bindings? schema = some (bound c?)
  | ⟨entries⟩, c?, hCondition => by
      rw [condition?, bind_eq_ok_iff] at hCondition
      rcases hCondition with ⟨conditions, hEntries, hWrap⟩
      cases hWrap
      rw [bindings?, bound_wrap]
      exact entryBindings?_of_entryConditions context entries
        hEntries

theorem entryBindings?_of_entryConditions
    (context : Context) :
    ∀ (entries : List (Key × Content))
      {conditions : List Condition},
    entryConditions schema context entries =
        .ok conditions →
      entryBindings? schema entries =
        some (conditions.flatMap values)
  | [], _, hEntries => by
      cases hEntries
      rfl
  | (key, content) :: rest, _, hEntries => by
      rw [entryConditions, bind_eq_ok_iff] at hEntries
      rcases hEntries with ⟨c?, hEntry, hTail⟩
      rcases bind_eq_ok_iff.mp hTail with
        ⟨conditions, hRest, hAll⟩
      cases hAll
      rw [List.flatMap_append, ← bound_eq_flatMap,
        entryBindings?,
        contentBindings?_of_entryCondition? context key
          content hEntry,
        entryBindings?_of_entryConditions context rest hRest]
      rfl

theorem contentBindings?_of_entryCondition?
    (context : Context) :
    ∀ (key : Key) (content : Content)
      {c? : Option Condition},
    entryCondition? schema context key content = .ok c? →
      contentBindings? schema key content = some (bound c?)
  | .field name, content, c?, hEntry => by
      rw [entryCondition?_field] at hEntry
      have hField := fieldBindings?_of_fieldCondition? hEntry
      cases content with
      | branches items =>
          rcases bind_eq_ok_iff.mp hEntry with ⟨_, _, hNone⟩
          cases hNone
      | branch item =>
          rcases bind_eq_ok_iff.mp hEntry with ⟨_, _, hNone⟩
          cases hNone
      | _ => exact hField
  | .connective op, .branches items, c?, hEntry => by
      rw [entryCondition?, bind_eq_ok_iff] at hEntry
      rcases hEntry with ⟨conditions, hItems, hConnect⟩
      cases hConnect
      rw [bound_connect]
      exact itemBindings?_of_itemConditions items hItems
  | .connective .or, .branch item, c?, hEntry =>
      bindings?_of_condition? .disjunctive item hEntry
  | .connective .and, .branch item, c?, hEntry => by
      rcases bind_eq_ok_iff.mp hEntry with
        ⟨d?, hItem, hConnect⟩
      cases hConnect
      rw [bound_connect, ← bound_eq_flatMap]
      exact bindings?_of_condition? .conjunctive item hItem
  | .connective .not, .branch item, c?, hEntry => by
      rcases bind_eq_ok_iff.mp hEntry with
        ⟨d?, hItem, hConnect⟩
      cases hConnect
      rw [bound_connect, ← bound_eq_flatMap]
      exact bindings?_of_condition? .conjunctive item hItem
  | .connective op, .null, c?, hEntry => by
      cases hEntry
  | .connective op, .literal v, c?, hEntry => by
      cases hEntry
  | .connective op, .operators operators, c?, hEntry => by
      cases hEntry

theorem itemBindings?_of_itemConditions :
    ∀ (items : List Filter) {conditions : List Condition},
    itemConditions schema items = .ok conditions →
      itemBindings? schema items =
        some (conditions.flatMap values)
  | [], _, hItems => by
      cases hItems
      rfl
  | item :: rest, _, hItems => by
      rw [itemConditions, bind_eq_ok_iff] at hItems
      rcases hItems with ⟨c?, hItem, hTail⟩
      rcases bind_eq_ok_iff.mp hTail with
        ⟨conditions, hRest, hAll⟩
      cases hAll
      rw [List.flatMap_append, ← bound_eq_flatMap,
        itemBindings?,
        bindings?_of_condition? .conjunctive item hItem,
        itemBindings?_of_itemConditions rest hRest]
      rfl

end

end Filter

------------------------------------------------------------
-- What Cursors Bind
------------------------------------------------------------

namespace Translator

/-
  The value that a cursor gives to a field. It is none where
  the field is left out or null.
-/
def cursorBinding?
    (t : Translator)
    (members : Json.Members)
    (name : String) : Option (Option Value) :=
  match (members.lookup name).getD .null with
  | .null => some none
  | operand => do
      let field ← t.schema.find? name
      return some
        (← Coercion.value? "cursor" field.kind operand)

/-
  What a cursor binds: the value of its field, which is bound
  twice where the tiebreaker has a value as well. Without the
  value of the field it binds nothing.
-/
def cursorBindings?
    (t : Translator) :
    Option Json.Members → Option (List Value)
  | none => some []
  | some members =>
      let tiebreaker := t.settings.tiebreaker
      match members.find? fun m => m.1 ≠ tiebreaker with
      | none => do
          let v? ← t.cursorBinding? members tiebreaker
          return v?.toList
      | some (name, _) => do
          let v? ← t.cursorBinding? members name
          let w? ← t.cursorBinding? members tiebreaker
          return match v?, w? with
            | none, _ => []
            | some v, none => [v]
            | some v, some w => [v, v, w]

/- What a filter binds that is read first. -/
def filterBindings?
    (t : Translator) :
    Option Json.Members → Option (List Value)
  | none => some []
  | some members => do
      let f ←
        (Filter.parse t.settings.maxDepth members).toOption
      f.bindings? t.schema

/- The filter of a description is bound before its cursor. -/
def bindings?
    (t : Translator)
    (d : Description) : Option (List Value) := do
  let first ← t.filterBindings? d.filter
  let others ← t.cursorBindings? d.cursor
  return first ++ others

open Except Condition

variable {t : Translator}
variable {keys : List SortKey}
variable {members : Json.Members}

/- A key holds the value that the cursor gives to its field. -/
theorem cursorBinding?_of_cursorKey
    {name : String}
    {key : Cursor.Key}
    (hKey :
      t.cursorKey keys name
          ((members.lookup name).getD .null) =
        .ok key) :
    t.cursorBinding? members name = some key.value := by
  rcases cursorKey_eq_ok_iff.mp hKey with
    ⟨field, value?, hField, hValue, rfl⟩
  have hFind := (t.schema.resolve_eq_ok_iff name field).mp hField
  unfold cursorBinding?
  split
  · rename_i hNull
    rw [hNull, cursorValue?_null] at hValue
    cases hValue
    rfl
  · rename_i hNotNull
    rw [cursorValue?_of_ne hNotNull, map_eq_ok_iff] at hValue
    rcases hValue with ⟨value, hScalar, rfl⟩
    rw [hFind, Option.bind_eq_bind, Option.bind_some,
      Coercion.value?_of_scalar hScalar]
    rfl

/- The boundary of the keys binds what the cursor does. -/
theorem cursorBindings?_of_cursorKeys
    {primary : Cursor.Key}
    {secondary : Option Cursor.Key}
    (hKeys :
      t.cursorKeys keys members =
        .ok (primary, secondary)) :
    t.cursorBindings? (some members) =
      some (bound (Cursor.boundary? primary secondary)) := by
  rcases cursorKeys_eq_ok_iff.mp hKeys with
    ⟨name, operand, hMember, hPrimary, hSecondary⟩
  rcases primaryMember_cases hMember with ⟨hLookup, hFirst⟩
  have hOperand :
      (members.lookup name).getD .null = operand := by
    rw [hLookup]
    rfl
  rw [← hOperand] at hPrimary
  have hValue := cursorBinding?_of_cursorKey hPrimary
  rcases hFirst with ⟨hName, hNone⟩ | ⟨hName, hSome⟩
  · rcases hSecondary with ⟨_, rfl⟩ | ⟨hOther, _⟩
    · rw [hName] at hValue
      rw [cursorBindings?, hNone]
      simp only [hValue, Option.bind_eq_bind,
        Option.bind_some, Cursor.bound_boundary?_none]
      rfl
    · exact absurd hName hOther
  · rcases hSecondary with ⟨hTie, _⟩ | ⟨_, key, hKey, rfl⟩
    · exact absurd hTie hName
    · have hTie := cursorBinding?_of_cursorKey hKey
      rw [cursorBindings?, hSome]
      simp only [hValue, hTie, Option.bind_eq_bind,
        Option.bind_some, Cursor.bound_boundary?_some]
      rfl

/- A filter that compiles binds what it was read to bind. -/
theorem filterBindings?_of_filterCondition?
    {filter? : Option Json.Members}
    {c? : Option Condition}
    (hCondition : t.filterCondition? filter? = .ok c?) :
    t.filterBindings? filter? = some (bound c?) := by
  cases filter? with
  | none =>
      cases hCondition
      rfl
  | some members =>
      rcases filterCondition?_eq_ok_iff.mp hCondition with
        ⟨f, hRead, hCompiled⟩
      rw [filterBindings?, hRead]
      exact f.bindings?_of_condition? .conjunctive hCompiled

/- At every level a query binds what its description does. -/
theorem bindings?_of_translateWithin
    {levels : Nat}
    {d : Description}
    {q : Query}
    (hQuery : t.translateWithin levels d = .ok q) :
    t.bindings? d = some (bound q.condition) ∧
    q.limit = d.take ∧ q.offset = d.skip := by
  cases levels with
  | zero => cases hQuery
  | succ levels =>
      rcases translateWithin_succ_eq_ok_iff.mp hQuery with
        ⟨condition, relations, columns, keys, order,
          hCondition, _, _, _, _, hCursor⟩
      have hFilter :=
        filterBindings?_of_filterCondition? hCondition
      cases hMembers : d.cursor with
      | none =>
          rw [hMembers] at hCursor
          cases hCursor
          refine ⟨?_, rfl, rfl⟩
          rw [bindings?, hFilter, hMembers]
          exact congrArg some (List.append_nil _)
      | some members =>
          rw [hMembers, applyCursor_eq_ok_iff] at hCursor
          rcases hCursor with
            ⟨primary, secondary, hKeys, rfl⟩
          refine ⟨?_, rfl, rfl⟩
          rw [bindings?, hFilter, hMembers,
            cursorBindings?_of_cursorKeys hKeys, pagedQuery,
            Cursor.bound_both]
          rfl

end Translator

------------------------------------------------------------
-- What Statements Bind
------------------------------------------------------------

namespace Translator

open Condition Statement

/-
  A compiled filter binds what the filter binds, in the order
  of its operands. A translated query binds the operands of
  its filter and then the values of its cursor, and statements
  bind the limit and the offset after these.
-/
theorem values_in_order
    (t : Translator) :
    (∀ (context : Context) (f : Filter)
        (c? : Option Condition),
      f.condition? t.schema context = .ok c? →
        f.bindings? t.schema = some (bound c?)) ∧
    (∀ (d : Description) (q : Query),
      t.translate d = .ok q →
        t.bindings? d = some (bound q.condition) ∧
        ∀ (table : Table) (schema : Schema) (s : Statement),
          q.statement table schema = .ok s →
            Sql.values s.sql =
              bound q.condition ++ countValues d.take ++
                countValues d.skip) := by
  constructor
  · intro context f c? hCondition
    exact f.bindings?_of_condition? context hCondition
  · intro d q hQuery
    rcases bindings?_of_translateWithin hQuery with
      ⟨hBindings, hLimit, hOffset⟩
    refine ⟨hBindings, ?_⟩
    intro table schema s hStatement
    rcases Query.statement_eq_ok_iff.mp hStatement with
      ⟨selected, _, rfl⟩
    rw [Statement.values_sql, ← hLimit, ← hOffset]

/- Texts, lists of texts and integers. -/
def postsTranslator : Translator :=
  { schema :=
      ⟨[("id", ⟨⟨"id"⟩, .integer, false⟩),
        ("title", ⟨⟨"title"⟩, .string, false⟩),
        ("views", ⟨⟨"views"⟩, .integer, false⟩),
        ("tags", ⟨⟨"tags"⟩, .string, true⟩)]⟩
    settings := ⟨32, "id"⟩ }

/- Operands under connectives, under `not` and in lists. -/
def nestedOperands : Filter :=
  ⟨[(.connective .not, .branches
      [⟨[(.field "title", .operators ⟨.insensitive,
          [(.contains, .value (.string "5%")),
            (.startsWith, .value (.string "a_b")),
            (.not, .nested ⟨.sensitive,
              [(.endsWith, .value (.string "c\\")),
                (.oneOf, .value (.array
                  [.string "x", .string "y"]))]⟩)]⟩)]⟩,
        ⟨[(.field "views", .null)]⟩]),
    (.field "tags", .operators ⟨.sensitive,
      [(.hasSome, .value (.array
        [.string "u", .string "v"]))]⟩)]⟩

/- Views other than three, after the row of seven and nine. -/
def pagedViews : Description :=
  { Description.empty with
    filter := some
      [("views", .object [("not", .number (.integer 3))])]
    take := some 20
    skip := some 40
    cursor := some
      [("id", .number (.integer 9)),
        ("views", .number (.integer 7))] }

theorem values_in_order_nestedOperands :
    (∃ c, nestedOperands.condition? postsTranslator.schema
        .disjunctive = .ok (some c) ∧
      Sql.values c.sql =
        [.string "%5\\%%", .string "a\\_b%",
          .string "%c\\\\", .string "x", .string "y",
          .string "u", .string "v"]) ∧
    ∃ q s, postsTranslator.translate pagedViews = .ok q ∧
      q.statement ⟨"posts", []⟩ postsTranslator.schema =
        .ok s ∧
      Sql.values s.sql =
        [.integer 3, .integer 7, .integer 7, .integer 9,
          .unsigned 20, .unsigned 40] := by
  have hOrder := postsTranslator.values_in_order
  constructor
  · refine ⟨_, rfl, ?_⟩
    have hBindings :=
      hOrder.1 .disjunctive nestedOperands _ rfl
    have hValues :
        nestedOperands.bindings? postsTranslator.schema =
          some [.string "%5\\%%", .string "a\\_b%",
            .string "%c\\\\", .string "x", .string "y",
            .string "u", .string "v"] := by
      decide
    exact Option.some.inj (hBindings.symm.trans hValues)
  · refine ⟨_, _, rfl, rfl, ?_⟩
    rcases hOrder.2 pagedViews _ rfl with
      ⟨hBindings, hStatement⟩
    have hValues :
        postsTranslator.bindings? pagedViews =
          some [.integer 3, .integer 7, .integer 7,
            .integer 9] := by
      decide
    rw [hStatement ⟨"posts", []⟩ postsTranslator.schema _ rfl,
      Option.some.inj (hBindings.symm.trans hValues)]
    rfl

end Translator

end Criteria
