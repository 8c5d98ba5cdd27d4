import Criteria.Proofs.CursorWalk
import Criteria.Proofs.FilterGrammar
import Criteria.Proofs.FilterMeaning
import Criteria.Proofs.Permutation

/-
  This file relates filters that are written in another
  order.

  The entries of filter and operator objects, the elements of
  connectives and those of lists can be moved, at any depth.
  If one of two such filters is read and compiled, so is the
  other, and what they say is as true in every row. Errors
  are raised one at a time, so they can differ.

  Key definitions include:
    * `Json.OperatorReordered`
    * `Json.FilterReordered`
    * `Filter.Reordered`
    * `Condition.SameTruth`

  Main statements:
    * `Operator.parallel_condition`
    * `Filter.parallel_ofMembers`
    * `Filter.parallel_condition?`
-/

------------------------------------------------------------
-- Values in Another Order
------------------------------------------------------------

namespace Criteria

/- Operators whose operand is a list of values. -/
def Operator.TakesList : Operator → Prop
  | .oneOf | .noneOf | .hasEvery | .hasSome => True
  | _ => False

namespace Json

/-
  Members of operator objects that differ in the order of a
  list, or of what stands in an object under `not`.
-/
inductive OperatorReordered :
    String × Json → String × Json → Prop where
  | same (member : String × Json) :
      OperatorReordered member member
  | list
      {op : Operator}
      {items others : List Json}
      (hList : op.TakesList)
      (hPerm : items.Perm others) :
      OperatorReordered (op.keyword, .array items)
        (op.keyword, .array others)
  | nested
      {members middle others : Members}
      (hDistinct : NameMap.Distinct members)
      (hPerm : members.Perm middle)
      (hMembers :
        List.Forall₂ OperatorReordered middle others) :
      OperatorReordered
        (Operator.not.keyword, .object members)
        (Operator.not.keyword, .object others)

mutual

/- Filter objects with the same members in another order. -/
inductive FilterReordered : Json → Json → Prop where
  | same (value : Json) : FilterReordered value value
  | object
      {members middle others : Members}
      (hPerm : members.Perm middle)
      (hMembers :
        List.Forall₂ EntryReordered middle others) :
      FilterReordered (.object members) (.object others)

/- Members of filter objects under the same key. -/
inductive EntryReordered :
    String × Json → String × Json → Prop where
  | same (member : String × Json) :
      EntryReordered member member
  | operators
      {name : String}
      {members middle others : Members}
      (hField : Filter.IsFieldName name)
      (hDistinct : NameMap.Distinct members)
      (hPerm : members.Perm middle)
      (hMembers :
        List.Forall₂ OperatorReordered middle others) :
      EntryReordered (name, .object members)
        (name, .object others)
  | branch
      {v w : Json}
      (op : Connective)
      (hItem : FilterReordered v w) :
      EntryReordered (op.word, v) (op.word, w)
  | branches
      {items middle others : List Json}
      (op : Connective)
      (hPerm : items.Perm middle)
      (hItems : List.Forall₂ FilterReordered middle others) :
      EntryReordered (op.word, .array items)
        (op.word, .array others)

end

end Json

------------------------------------------------------------
-- Parsed Filters in Another Order
------------------------------------------------------------

namespace Filter

mutual

/- Operator objects of the same mode and operators. -/
inductive OperatorsReordered :
    Operators → Operators → Prop where
  | mk
      {entries middle others : List (Operator × Operand)}
      (mode : MatchMode)
      (hPerm : entries.Perm middle)
      (hEntries :
        List.Forall₂ OperandReordered middle others) :
      OperatorsReordered ⟨mode, entries⟩ ⟨mode, others⟩

inductive OperandReordered :
    Operator × Operand → Operator × Operand → Prop where
  | same (entry : Operator × Operand) :
      OperandReordered entry entry
  | list
      {op : Operator}
      {items others : List Json}
      (hList : op.TakesList)
      (hPerm : items.Perm others) :
      OperandReordered (op, .value (.array items))
        (op, .value (.array others))
  | nested
      {operators others : Operators}
      (op : Operator)
      (hOperators : OperatorsReordered operators others) :
      OperandReordered (op, .nested operators)
        (op, .nested others)

end

mutual

/- Filters with the same entries in another order. -/
inductive Reordered : Filter → Filter → Prop where
  | mk
      {entries middle others : List (Key × Content)}
      (hPerm : entries.Perm middle)
      (hEntries :
        List.Forall₂ EntryReordered middle others) :
      Reordered ⟨entries⟩ ⟨others⟩

inductive EntryReordered :
    Key × Content → Key × Content → Prop where
  | same (entry : Key × Content) :
      EntryReordered entry entry
  | operators
      {operators others : Operators}
      (key : Key)
      (hOperators : OperatorsReordered operators others) :
      EntryReordered (key, .operators operators)
        (key, .operators others)
  | branches
      {items middle others : List Filter}
      (key : Key)
      (hPerm : items.Perm middle)
      (hItems : List.Forall₂ Reordered middle others) :
      EntryReordered (key, .branches items)
        (key, .branches others)
  | branch
      {item other : Filter}
      (key : Key)
      (hItem : Reordered item other) :
      EntryReordered (key, .branch item) (key, .branch other)

end

theorem Reordered.refl (f : Filter) : Reordered f f := by
  rcases f with ⟨entries⟩
  exact .mk (.refl entries)
    (List.forall₂_same.mpr fun entry _ => .same entry)

end Filter

end Criteria

------------------------------------------------------------
-- Reading Operators
------------------------------------------------------------

namespace Criteria

namespace Filter

open Except

namespace Operators

variable {members middle others : Json.Members}

/- The mode is found wherever it stands. -/
theorem lookup_mode_of_reordered
    (hMembers :
      List.Forall₂ Json.OperatorReordered middle others) :
    middle.lookup MatchMode.key =
      others.lookup MatchMode.key := by
  induction hMembers with
  | nil => rfl
  | @cons member _ _ _ hFirst _ ih =>
      cases hFirst with
      | same =>
          rcases member with ⟨key, value⟩
          rw [NameMap.lookup_cons_eq_if,
            NameMap.lookup_cons_eq_if, ih]
      | @list op items more hList hPerm =>
          have hKey : MatchMode.key ≠ op.keyword := by
            cases op <;> decide
          rw [NameMap.lookup_cons_eq_if,
            NameMap.lookup_cons_eq_if, if_neg hKey,
            if_neg hKey, ih]
      | nested _ _ _ =>
          have hKey :
              MatchMode.key ≠ Operator.not.keyword := by
            decide
          rw [NameMap.lookup_cons_eq_if,
            NameMap.lookup_cons_eq_if, if_neg hKey,
            if_neg hKey, ih]

theorem modeIn_of_reordered
    (inherited : MatchMode)
    (hDistinct : NameMap.Distinct members)
    (hPerm : members.Perm middle)
    (hMembers :
      List.Forall₂ Json.OperatorReordered middle others) :
    modeIn inherited members = modeIn inherited others := by
  unfold modeIn
  rw [NameMap.lookup_perm hDistinct hPerm,
    lookup_mode_of_reordered hMembers]

section Entries

variable {read : Json.Members → Except Error Operators}

theorem parallel_entryOf
    (hRead : ∀ {inner middle other : Json.Members},
      NameMap.Distinct inner → inner.Perm middle →
      List.Forall₂ Json.OperatorReordered middle other →
        Parallel OperatorsReordered (read inner)
          (read other))
    {member other : String × Json}
    (hMember : Json.OperatorReordered member other) :
    Parallel OperandReordered (entryOf read member)
      (entryOf read other) := by
  cases hMember with
  | same => exact .refl _ fun entry => .same entry
  | list hList hPerm =>
      rw [entryOf_value read (by simp),
        entryOf_value read (by simp)]
      exact .ok (.list hList hPerm)
  | nested hDistinct hPerm hMembers =>
      have hInner := hRead hDistinct hPerm hMembers
      rw [entryOf_nested, entryOf_nested]
      exact hInner.map fun operators others hOperators =>
        .nested .not hOperators

/- What is not the mode stays what it is. -/
theorem operatorMembers_of_reordered
    (hMembers :
      List.Forall₂ Json.OperatorReordered middle others) :
    List.Forall₂ Json.OperatorReordered
      (operatorMembers middle) (operatorMembers others) := by
  have hKey : ∀ {member other : String × Json},
      Json.OperatorReordered member other →
        member.1 = other.1 := by
    intro member other hMember
    cases hMember <;> rfl
  unfold operatorMembers
  induction hMembers with
  | nil => exact .nil
  | @cons member other rest more hFirst _ ih =>
      have hSame := hKey hFirst
      rw [List.filter_cons, List.filter_cons, hSame]
      split
      · exact .cons hFirst ih
      · exact ih

end Entries

/- Operator objects can be read in any order. -/
theorem parallel_ofMembers
    (most levels : Nat)
    (inherited : MatchMode)
    (hDistinct : NameMap.Distinct members)
    (hPerm : members.Perm middle)
    (hMembers :
      List.Forall₂ Json.OperatorReordered middle others) :
    Parallel OperatorsReordered
      (ofMembers most levels inherited members)
      (ofMembers most levels inherited others) := by
  induction levels generalizing inherited members middle
    others with
  | zero => exact .error _ _
  | succ levels ih =>
      unfold ofMembers
      rw [modeIn_of_reordered inherited hDistinct hPerm
        hMembers]
      refine .after _ fun mode => ?_
      have hMoved :
          (operatorMembers members).Perm
            (operatorMembers middle) :=
        hPerm.filter _
      have hEach :=
        (operatorMembers_of_reordered hMembers).imp
          fun _ _ hMember =>
            parallel_entryOf (ih mode) hMember
      refine (Parallel.mapM_moved hMoved hEach).map ?_
      rintro entries more ⟨moved, hEntries, hMore⟩
      exact .mk mode hEntries hMore

end Operators

------------------------------------------------------------
-- Reading Filters
------------------------------------------------------------

section Entries

variable {readOperators :
  Json.Members → Except Error Operators}
variable {readFilter : Json.Members → Except Error Filter}
variable
  (hOperators : ∀ {inner middle other : Json.Members},
    NameMap.Distinct inner → inner.Perm middle →
    List.Forall₂ Json.OperatorReordered middle other →
      Parallel OperatorsReordered (readOperators inner)
        (readOperators other))
variable
  (hFilter : ∀ {inner middle other : Json.Members},
    inner.Perm middle →
    List.Forall₂ Json.EntryReordered middle other →
      Parallel Reordered (readFilter inner)
        (readFilter other))

include hFilter in
theorem parallel_element
    (op : Connective)
    {v w : Json}
    (hItem : Json.FilterReordered v w) :
    Parallel Reordered (element readFilter op v)
      (element readFilter op w) := by
  cases hItem with
  | same => exact .refl _ Reordered.refl
  | object hPerm hMembers => exact hFilter hPerm hMembers

include hFilter in
theorem parallel_branch
    (op : Connective)
    {v w : Json}
    (hItem : Json.FilterReordered v w) :
    Parallel
      (fun content other =>
        EntryReordered (.connective op, content)
          (.connective op, other))
      (connectiveContent readFilter op v)
      (connectiveContent readFilter op w) := by
  cases hItem with
  | same => exact .refl _ fun content => .same _
  | object hPerm hMembers =>
      exact (hFilter hPerm hMembers).map fun f g hReordered =>
        .branch (.connective op) hReordered

include hFilter in
theorem parallel_branches
    (op : Connective)
    {items middle others : List Json}
    (hPerm : items.Perm middle)
    (hItems :
      List.Forall₂ Json.FilterReordered middle others) :
    Parallel
      (fun content other =>
        EntryReordered (.connective op, content)
          (.connective op, other))
      (connectiveContent readFilter op (.array items))
      (connectiveContent readFilter op (.array others)) := by
  have hEach := hItems.imp fun v w hItem =>
    parallel_element hFilter op hItem
  refine (Parallel.mapM_moved hPerm hEach).map ?_
  rintro filters more ⟨moved, hFilters, hMore⟩
  exact .branches (.connective op) hFilters hMore

include hOperators hFilter in
theorem parallel_entryOf
    {member other : String × Json}
    (hEntry : Json.EntryReordered member other) :
    Parallel EntryReordered
      (entryOf readOperators readFilter member)
      (entryOf readOperators readFilter other) := by
  cases hEntry with
  | same => exact .refl _ fun entry => .same entry
  | @operators name inner _ more hField hDistinct hPerm
      hMembers =>
      have hRead := hOperators hDistinct hPerm hMembers
      rw [entryOf_field _ _ hField, entryOf_field _ _ hField]
      have hContent :
          Parallel
            (fun content other =>
              EntryReordered (.field name, content)
                (.field name, other))
            (fieldContent readOperators name (.object inner))
            (fieldContent readOperators name
              (.object more)) :=
        hRead.map fun _ _ hReordered =>
          .operators (.field name) hReordered
      exact hContent.map fun _ _ hReordered => hReordered
  | branch op hItem =>
      have hContent := parallel_branch hFilter op hItem
      rw [entryOf_connective, entryOf_connective]
      exact hContent.map fun _ _ hReordered => hReordered
  | branches op hPerm hItems =>
      have hContent :=
        parallel_branches hFilter op hPerm hItems
      rw [entryOf_connective, entryOf_connective]
      exact hContent.map fun _ _ hReordered => hReordered

end Entries

/- Filter objects can be read in any order. -/
theorem parallel_ofMembers
    (most levels : Nat)
    {members middle others : Json.Members}
    (hPerm : members.Perm middle)
    (hMembers :
      List.Forall₂ Json.EntryReordered middle others) :
    Parallel Reordered (ofMembers most levels members)
      (ofMembers most levels others) := by
  induction levels generalizing members middle others with
  | zero => exact .error _ _
  | succ levels ih =>
      unfold ofMembers
      have hEach := hMembers.imp fun _ _ hEntry =>
        parallel_entryOf
          (Operators.parallel_ofMembers most levels
            .sensitive) ih hEntry
      refine (Parallel.mapM_moved hPerm hEach).map ?_
      rintro entries more ⟨moved, hEntries, hMore⟩
      exact .mk hEntries hMore

end Filter

end Criteria

------------------------------------------------------------
-- Conditions of the Same Truth
------------------------------------------------------------

namespace Criteria

/- Whether a value is in a list does not depend on its order. -/
structure Predicate.Unordered
    (assign : Predicate → Truth) : Prop where
  member
    (column : Column)
    (negated : Bool)
    {values others : List Value}
    (hPerm : values.Perm others) :
    assign (.member column negated values) =
      assign (.member column negated others)

/- In a row of integers it does not. -/
theorem IntegerRow.unordered
    (row : IntegerRow) :
    Predicate.Unordered row.truth where
  member column negated values others hPerm := by
    have hTruths :
        (values.map fun value =>
          Comparison.equal.test (row.cell column)
            (meaning value)).Perm
          (others.map fun value =>
            Comparison.equal.test (row.cell column)
              (meaning value)) :=
      hPerm.map _
    rw [truth, truth, Truth.any_perm hTruths]

theorem Junction.truth_perm
    (kind : Junction)
    {values others : List Truth}
    (hPerm : values.Perm others) :
    kind.truth values = kind.truth others := by
  cases kind with
  | all => exact Truth.all_perm hPerm
  | any => exact Truth.any_perm hPerm

theorem Junction.truth?_perm
    (kind : Junction)
    {values others : List Truth}
    (hPerm : values.Perm others) :
    kind.truth? values = kind.truth? others := by
  cases values with
  | nil => rw [List.nil_perm.mp hPerm]
  | cons a rest =>
      cases others with
      | nil => cases List.perm_nil.mp hPerm
      | cons b more =>
          exact congrArg some (kind.truth_perm hPerm)

namespace Condition

/- Both say nothing, or both are as true in every row. -/
def SameTruth (c? d? : Option Condition) : Prop :=
  ∀ assign, Predicate.Unordered assign →
    c?.map (truth assign) = d?.map (truth assign)

/- Conditions that are as true, one by one, in some order. -/
def SameTruths (cs ds : List Condition) : Prop :=
  ∀ assign, Predicate.Unordered assign →
    (cs.map (truth assign)).Perm (ds.map (truth assign))

theorem SameTruth.toList
    {c? d? : Option Condition}
    (hSame : SameTruth c? d?) :
    SameTruths c?.toList d?.toList := by
  intro assign hAssign
  rw [← Option.toList_map, ← Option.toList_map,
    hSame assign hAssign]

theorem sameTruth_some
    {c d : Condition}
    (hSame : ∀ assign, Predicate.Unordered assign →
      c.truth assign = d.truth assign) :
    SameTruth (some c) (some d) :=
  fun assign hAssign => congrArg some (hSame assign hAssign)

theorem SameTruth.truth_eq
    {c d : Condition}
    {assign : Predicate → Truth}
    (hSame : SameTruth (some c) (some d))
    (hAssign : Predicate.Unordered assign) :
    c.truth assign = d.truth assign :=
  Option.some.inj (hSame assign hAssign)

namespace SameTruths

variable {cs ds : List Condition}

theorem of_perm (hPerm : cs.Perm ds) : SameTruths cs ds :=
  fun _ _ => hPerm.map _

theorem trans
    {es : List Condition}
    (hFirst : SameTruths cs ds)
    (hSecond : SameTruths ds es) : SameTruths cs es :=
  fun assign hAssign =>
    (hFirst assign hAssign).trans (hSecond assign hAssign)

theorem append
    {others more : List Condition}
    (hFirst : SameTruths cs ds)
    (hRest : SameTruths others more) :
    SameTruths (cs ++ others) (ds ++ more) := by
  intro assign hAssign
  rw [List.map_append, List.map_append]
  exact (hFirst assign hAssign).append (hRest assign hAssign)

theorem combine
    (kind : Junction)
    (hSame : SameTruths cs ds) :
    SameTruth (combine kind cs)
      (Condition.combine kind ds) := by
  intro assign hAssign
  rw [truth_combine, truth_combine]
  exact kind.truth?_perm (hSame assign hAssign)

theorem wrap
    (kind : Junction)
    (hSame : SameTruths cs ds) :
    SameTruth (wrap kind cs) (Condition.wrap kind ds) := by
  intro assign hAssign
  rw [truth_wrap, truth_wrap]
  exact kind.truth?_perm (hSame assign hAssign)

theorem connect
    (op : Connective)
    (context : Context)
    (hSame : SameTruths cs ds) :
    SameTruth (Filter.connect op context cs)
      (Filter.connect op context ds) := by
  intro assign hAssign
  have hTruths := hSame assign hAssign
  rw [Filter.truth_connect, Filter.truth_connect]
  cases op with
  | and => exact Junction.all.truth?_perm hTruths
  | or => exact Junction.any.truth?_perm hTruths
  | not =>
      exact context.junction.truth?_perm (hTruths.map _)

end SameTruths

end Condition

end Criteria

------------------------------------------------------------
-- Operators
------------------------------------------------------------

namespace Criteria

open Except Condition

namespace Operator

variable {op : Operator}
variable {field : Field}
variable {items others : List Json}

private theorem parallel_membership
    (positive : Bool)
    (hPerm : items.Perm others) :
    Parallel (fun c d => SameTruth (some c) (some d))
      (op.membership field positive (.array items))
      (op.membership field positive (.array others)) := by
  have hValues :=
    Parallel.mapM_perm
      (Coercion.scalar op.keyword field.kind) hPerm
  refine hValues.bind fun values more hMoved => ?_
  cases values with
  | nil =>
      rw [List.nil_perm.mp hMoved]
      exact .ok fun _ _ => rfl
  | cons value rest =>
      cases more with
      | nil => cases List.perm_nil.mp hMoved
      | cons other remaining =>
          refine .ok (sameTruth_some fun assign hAssign => ?_)
          rw [truth_single, truth_single]
          exact hAssign.member field.column (!positive) hMoved

private theorem parallel_havingMany
    (name : String)
    (kind : Junction)
    (negated : Bool)
    (hPerm : items.Perm others) :
    Parallel (fun c d => SameTruth (some c) (some d))
      (op.havingMany name field kind negated (.array items))
      (op.havingMany name field kind negated
        (.array others)) := by
  have hValues :=
    Parallel.mapM_perm
      (Coercion.scalar op.keyword field.kind) hPerm
  have hNegated : ∀ {c d : Condition},
      SameTruth (some c) (some d) →
        SameTruth (some (c.negateIf negated))
          (some (d.negateIf negated)) := by
    intro c d hSame
    refine sameTruth_some fun assign hAssign => ?_
    have hTruth := hSame.truth_eq hAssign
    cases negated with
    | false => exact hTruth
    | true =>
        exact (truth_negate assign c).trans
          ((congrArg Truth.not hTruth).trans
            (truth_negate assign d).symm)
  refine .after _ fun _ => ?_
  refine hValues.map fun values more hMoved => ?_
  apply hNegated
  cases values with
  | nil =>
      rw [List.nil_perm.mp hMoved]
      exact fun _ _ => rfl
  | cons value rest =>
      cases more with
      | nil => cases List.perm_nil.mp hMoved
      | cons other remaining =>
          refine sameTruth_some fun assign _ => ?_
          rw [truth_join, truth_join]
          exact kind.truth_perm ((hMoved.map _).map _)

/- A list of values can be given in any order. -/
theorem parallel_condition
    (name : String)
    (mode : MatchMode)
    (context : Context)
    (hList : op.TakesList)
    (hPerm : items.Perm others) :
    Parallel (fun c d => SameTruth (some c) (some d))
      (op.condition name field mode context (.array items))
      (op.condition name field mode context
        (.array others)) := by
  cases op with
  | oneOf | noneOf => exact parallel_membership _ hPerm
  | hasEvery | hasSome =>
      exact parallel_havingMany name _ _ hPerm
  | _ => exact hList.elim

end Operator

namespace Filter

section Operators

variable {name : String}
variable {field : Field}

/- Operators are resolved one by one. -/
theorem operatorConditions_eq_mapM
    (mode : MatchMode)
    (context : Context)
    (entries : List (Operator × Operand)) :
    operatorConditions name field mode context entries =
      entries.mapM fun entry =>
        entry.2.condition name field mode context entry.1 := by
  induction entries with
  | nil => rfl
  | cons entry rest ih =>
      rw [operatorConditions, List.mapM_cons, ih]

theorem operatorConditions_perm
    (mode : MatchMode)
    (context : Context)
    {entries middle : List (Operator × Operand)}
    (hPerm : entries.Perm middle) :
    Parallel SameTruths
      (operatorConditions name field mode context entries)
      (operatorConditions name field mode context
        middle) := by
  rw [operatorConditions_eq_mapM, operatorConditions_eq_mapM]
  exact (Parallel.mapM_perm _ hPerm).mono
    fun _ _ hMoved => .of_perm hMoved

mutual

/- Operators say the same in any order. -/
theorem parallel_operators_condition?
    (context : Context) :
    ∀ {operators others : Operators},
      OperatorsReordered operators others →
      Parallel SameTruth
        (operators.condition? name field context)
        (others.condition? name field context)
  | ⟨_, _⟩, ⟨_, _⟩, .mk mode hPerm hEntries => by
      have hMoved :
          Parallel SameTruths
            (operatorConditions name field mode context _)
            (operatorConditions name field mode context _) :=
        operatorConditions_perm mode context hPerm
      have hEach :=
        parallel_operatorConditions mode context hEntries
      unfold Operators.condition?
      exact (hMoved.trans hEach fun _ _ _ hFirst hSecond =>
        hFirst.trans hSecond).map fun _ _ hSame =>
          hSame.combine context.operatorJunction

theorem parallel_operatorConditions
    (mode : MatchMode)
    (context : Context) :
    ∀ {entries others : List (Operator × Operand)},
      List.Forall₂ OperandReordered entries others →
      Parallel SameTruths
        (operatorConditions name field mode context entries)
        (operatorConditions name field mode context others)
  | [], [], .nil => .ok (.of_perm (.refl _))
  | (_, _) :: _, (_, _) :: _, .cons hFirst hRest => by
      unfold operatorConditions
      refine (parallel_operand_condition mode context
        hFirst).bind fun c d hCondition => ?_
      refine (parallel_operatorConditions mode context
        hRest).map fun cs ds hConditions => ?_
      exact hCondition.toList.append hConditions

theorem parallel_operand_condition
    (mode : MatchMode)
    (context : Context) :
    ∀ {entry other : Operator × Operand},
      OperandReordered entry other →
      Parallel (fun c d => SameTruth (some c) (some d))
        (entry.2.condition name field mode context entry.1)
        (other.2.condition name field mode context other.1)
  | _, _, .same _ => .refl _ fun _ _ _ => rfl
  | _, _, .list hList hPerm =>
      Operator.parallel_condition name mode context hList
        hPerm
  | _, _, .nested op hOperators => by
      cases op with
      | not =>
          refine (parallel_operators_condition?
            context.flipped hOperators).map
              fun c? d? hSame => ?_
          refine sameTruth_some fun assign hAssign => ?_
          have hTruth := hSame assign hAssign
          cases c? with
          | none =>
              cases d? with
              | none => rfl
              | some d => cases hTruth
          | some c =>
              cases d? with
              | none => cases hTruth
              | some d => exact Option.some.inj hTruth
      | _ => exact .error _ _

end

end Operators

------------------------------------------------------------
-- Filters
------------------------------------------------------------

variable {schema : Schema}

theorem entryConditions_eq_mapM
    (context : Context)
    (entries : List (Key × Content)) :
    entryConditions schema context entries =
      (fun conditions => conditions.flatMap Option.toList) <$>
        entries.mapM fun entry =>
          entryCondition? schema context entry.1 entry.2 := by
  induction entries with
  | nil => rfl
  | cons entry rest ih =>
      rw [entryConditions, List.mapM_cons, ih]
      cases entryCondition? schema context entry.1 entry.2 with
      | error e => rfl
      | ok c? =>
          cases rest.mapM fun entry =>
            entryCondition? schema context entry.1 entry.2
          all_goals rfl

theorem itemConditions_eq_mapM
    (items : List Filter) :
    itemConditions schema items =
      (fun conditions => conditions.flatMap Option.toList) <$>
        items.mapM (condition? schema .conjunctive) := by
  induction items with
  | nil => rfl
  | cons item rest ih =>
      rw [itemConditions, List.mapM_cons, ih]
      cases condition? schema .conjunctive item with
      | error e => rfl
      | ok c? =>
          cases rest.mapM (condition? schema .conjunctive)
          all_goals rfl

theorem entryConditions_perm
    (context : Context)
    {entries middle : List (Key × Content)}
    (hPerm : entries.Perm middle) :
    Parallel SameTruths
      (entryConditions schema context entries)
      (entryConditions schema context middle) := by
  rw [entryConditions_eq_mapM, entryConditions_eq_mapM]
  exact (Parallel.mapM_perm _ hPerm).map
    fun _ _ hMoved => .of_perm (hMoved.flatMap_right _)

theorem itemConditions_perm
    {items middle : List Filter}
    (hPerm : items.Perm middle) :
    Parallel SameTruths (itemConditions schema items)
      (itemConditions schema middle) := by
  rw [itemConditions_eq_mapM, itemConditions_eq_mapM]
  exact (Parallel.mapM_perm _ hPerm).map
    fun _ _ hMoved => .of_perm (hMoved.flatMap_right _)

mutual

/- Filters say the same in any order. -/
theorem parallel_condition?
    (context : Context) :
    ∀ {f g : Filter}, Reordered f g →
      Parallel SameTruth (f.condition? schema context)
        (g.condition? schema context)
  | ⟨_⟩, ⟨_⟩, .mk hPerm hEntries => by
      have hMoved :
          Parallel SameTruths
            (entryConditions schema context _)
            (entryConditions schema context _) :=
        entryConditions_perm context hPerm
      have hEach := parallel_entryConditions context hEntries
      unfold condition?
      exact (hMoved.trans hEach fun _ _ _ hFirst hSecond =>
        hFirst.trans hSecond).map fun _ _ hSame =>
          hSame.wrap context.junction
termination_by structural _ g => g

theorem parallel_entryConditions
    (context : Context) :
    ∀ {entries others : List (Key × Content)},
      List.Forall₂ EntryReordered entries others →
      Parallel SameTruths
        (entryConditions schema context entries)
        (entryConditions schema context others)
  | [], [], .nil => .ok (.of_perm (.refl _))
  | (_, _) :: _, (_, _) :: _, .cons hFirst hRest => by
      unfold entryConditions
      refine (parallel_entryCondition? context hFirst).bind
        fun c? d? hCondition => ?_
      refine (parallel_entryConditions context hRest).map
        fun cs ds hConditions => ?_
      exact hCondition.toList.append hConditions
termination_by structural _ others => others

theorem parallel_entryCondition?
    (context : Context) :
    ∀ {entry other : Key × Content},
      EntryReordered entry other →
      Parallel SameTruth
        (entryCondition? schema context entry.1 entry.2)
        (entryCondition? schema context other.1 other.2)
  | _, _, .same _ => .refl _ fun _ _ _ => rfl
  | _, _, .operators key hOperators => by
      cases key with
      | field name =>
          refine .after _ fun field => ?_
          exact parallel_operators_condition?
            context.positive hOperators
      | connective op => exact .error _ _
  | _, _, .branches key hPerm hItems => by
      cases key with
      | field name => exact .after _ fun _ => .error _ _
      | connective op =>
          have hMoved :
              Parallel SameTruths (itemConditions schema _)
                (itemConditions schema _) :=
            itemConditions_perm hPerm
          have hEach := parallel_itemConditions hItems
          unfold entryCondition?
          exact (hMoved.trans hEach
            fun _ _ _ hFirst hSecond =>
              hFirst.trans hSecond).map fun _ _ hSame =>
                hSame.connect op context
  | _, _, .branch key hItem => by
      have hSingle : ∀ op : Connective,
          Parallel SameTruth
            ((fun c? => connect op context c?.toList) <$>
              condition? schema .conjunctive _)
            ((fun c? => connect op context c?.toList) <$>
              condition? schema .conjunctive _) :=
        fun op => (parallel_condition? .conjunctive hItem).map
          fun _ _ hSame => hSame.toList.connect op context
      cases key with
      | field name => exact .after _ fun _ => .error _ _
      | connective op =>
          cases op with
          | or => exact parallel_condition? .disjunctive hItem
          | and => exact hSingle .and
          | not => exact hSingle .not
termination_by structural _ other => other

theorem parallel_itemConditions :
    ∀ {items others : List Filter},
      List.Forall₂ Reordered items others →
      Parallel SameTruths (itemConditions schema items)
        (itemConditions schema others)
  | [], [], .nil => .ok (.of_perm (.refl _))
  | _ :: _, _ :: _, .cons hFirst hRest => by
      unfold itemConditions
      refine (parallel_condition? .conjunctive hFirst).bind
        fun c? d? hCondition => ?_
      refine (parallel_itemConditions hRest).map
        fun cs ds hConditions => ?_
      exact hCondition.toList.append hConditions
termination_by structural _ others => others

end

end Filter

end Criteria
