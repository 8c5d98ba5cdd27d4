import Criteria.Proofs.FilterGrammar
import Criteria.Proofs.TranslationSteps

/-
  This file proves that the bound on levels only rejects, and
  at which depth it does.

  The depth of a filter counts the objects of the filter and
  of its operators that lie in one another, and the depth of
  the relations of a description counts the descriptions that
  do. Both are bounded by the same number, each on its own.

  Key definitions include:
    * `Json.operatorDepth`
    * `Json.filterDepth`
    * `Json.relationDepth`
    * `Translator.withMaxDepth`

  Main statements:
    * `Filter.Operators.cutOff_ofMembers`
    * `Filter.cutOff_ofMembers`
    * `Translator.cutOff_translateWithin`
    * `Translator.depth_bound`
-/

------------------------------------------------------------
-- Depths
------------------------------------------------------------

namespace Criteria

namespace Json

mutual

/- The levels of an operator object, its own included. -/
def operatorDepth : Json → Nat
  | .object members => operatorDepths members + 1
  | _ => 0

/- The levels below an operator object, those under `not`. -/
def operatorDepths : List (String × Json) → Nat
  | [] => 0
  | (key, value) :: rest =>
      max
        (if key = Operator.not.keyword then
          value.operatorDepth
        else 0)
        (operatorDepths rest)

end

mutual

/- The levels of a filter object, its own included. -/
def filterDepth : Json → Nat
  | .object members => entryDepths members + 1
  | _ => 0

/- The levels below a filter object. -/
def entryDepths : List (String × Json) → Nat
  | [] => 0
  | (key, value) :: rest =>
      max (entryDepth key value) (entryDepths rest)

/- An array under a connective is no level of its own. -/
def entryDepth (key : String) : Json → Nat
  | .object members =>
      if (Connective.ofWord? key).isSome then
        entryDepths members + 1
      else operatorDepths members + 1
  | .array items =>
      if (Connective.ofWord? key).isSome then
        itemDepths items
      else 0
  | _ => 0

def itemDepths : List Json → Nat
  | [] => 0
  | item :: rest => max item.filterDepth (itemDepths rest)

end

mutual

/- The levels of a description, its own included. -/
def relationDepth : Json → Nat
  | .object members =>
      (includeDepth? members).getD 0 + 1
  | _ => 0

/- The levels below a description. The last value counts. -/
def includeDepth? :
    List (String × Json) → Option Nat
  | [] => none
  | (key, value) :: rest =>
      (includeDepth? rest).or
        (if key = Description.Member.relations.name then
          value.relationsDepth?
        else none)

def relationsDepth? : Json → Option Nat
  | .object members => some (relationDepths members)
  | _ => none

def relationDepths : List (String × Json) → Nat
  | [] => 0
  | (_, value) :: rest =>
      max value.relationDepth (relationDepths rest)

end

end Json

namespace Description

/- The levels of the filter, none where there is none. -/
def filterDepth (d : Description) : Nat :=
  match d.filter with
  | none => 0
  | some members => Json.entryDepths members + 1

/- The levels of the relations, the description included. -/
def relationDepth (d : Description) : Nat :=
  match d.relations with
  | none => 1
  | some members => Json.relationDepths members + 1

end Description

end Criteria

------------------------------------------------------------
-- Filters
------------------------------------------------------------

namespace Criteria

namespace Json

theorem operatorDepths_le_iff
    (members : Members)
    (levels : Nat) :
    operatorDepths members ≤ levels ↔
      ∀ member ∈ members,
        member.1 = Operator.not.keyword →
          member.2.operatorDepth ≤ levels := by
  induction members with
  | nil => simp [operatorDepths]
  | cons member rest ih =>
      rcases member with ⟨key, value⟩
      rw [operatorDepths, Nat.max_le, ih,
        List.forall_mem_cons]
      by_cases hKey : key = Operator.not.keyword
      · simp [hKey]
      · simp [hKey]

theorem entryDepths_le_iff
    (members : Members)
    (levels : Nat) :
    entryDepths members ≤ levels ↔
      ∀ member ∈ members,
        entryDepth member.1 member.2 ≤ levels := by
  induction members with
  | nil => simp [entryDepths]
  | cons member rest ih =>
      rw [entryDepths, Nat.max_le, ih,
        List.forall_mem_cons]

theorem itemDepths_le_iff
    (items : List Json)
    (levels : Nat) :
    itemDepths items ≤ levels ↔
      ∀ item ∈ items, item.filterDepth ≤ levels := by
  induction items with
  | nil => simp [itemDepths]
  | cons item rest ih =>
      rw [itemDepths, Nat.max_le, ih, List.forall_mem_cons]

theorem relationDepths_le_iff
    (members : Members)
    (levels : Nat) :
    relationDepths members ≤ levels ↔
      ∀ member ∈ members,
        member.2.relationDepth ≤ levels := by
  induction members with
  | nil => simp [relationDepths]
  | cons member rest ih =>
      rw [relationDepths, Nat.max_le, ih,
        List.forall_mem_cons]

end Json

namespace Filter

open Except

variable {low high : Nat}

namespace Operators

variable {levels : Nat}
variable {read other : Json.Members → Except Error Operators}

/- The objects under `not` have to fit. -/
theorem cutOff_entryOf
    (hRead : ∀ inner,
      CutOff (.nestingTooDeep low)
        (Json.operatorDepths inner + 1 ≤ levels)
        (read inner) (other inner))
    (member : String × Json) :
    CutOff (.nestingTooDeep low)
      (member.1 = Operator.not.keyword →
        member.2.operatorDepth ≤ levels)
      (entryOf read member) (entryOf other member) := by
  rcases member with ⟨key, value⟩
  cases hFound : Operator.ofKeyword? key with
  | none =>
      have hRefused : ∀ read,
          entryOf read (key, value) =
            .error (.unsupportedOperator key) := by
        intro read
        simp [entryOf, operatorOf, hFound, bind, Except.bind]
      rw [hRefused, hRefused]
      exact .failed _
  | some op =>
      rw [Operator.ofKeyword?_eq_some_iff] at hFound
      subst hFound
      by_cases hObject :
          ∃ inner, op = .not ∧ value = .object inner
      · rcases hObject with ⟨inner, rfl, rfl⟩
        rw [entryOf_nested, entryOf_nested]
        refine ((hRead inner).map _).congr ?_
        simp [Json.operatorDepth]
      · have hPlain :
            ∀ inner, op = .not → value ≠ .object inner :=
          fun inner hNot hValue =>
            hObject ⟨inner, hNot, hValue⟩
        rw [entryOf_value read hPlain,
          entryOf_value other hPlain]
        refine .refl _ fun hKey => ?_
        have hNot := Operator.keyword_injective hKey
        cases value with
        | object inner => exact absurd rfl (hPlain inner hNot)
        | _ => exact Nat.zero_le levels

/- Operator objects have to fit into the levels left. -/
theorem cutOff_ofMembers :
    ∀ (levels others : Nat) (inherited : MatchMode)
      (members : Json.Members),
    levels ≤ others →
      CutOff (.nestingTooDeep low)
        (Json.operatorDepths members + 1 ≤ levels)
        (ofMembers low levels inherited members)
        (ofMembers high others inherited members) := by
  intro levels
  -- The other bound only has to leave as many levels.
  induction levels with
  | zero =>
      intro others inherited members _
      exact .stopped _ (by omega)
  | succ levels ih =>
      intro others inherited members hLevels
      rcases Nat.exists_eq_add_of_le' hLevels with
        ⟨extra, rfl⟩
      have hRest : levels ≤ extra + levels :=
        Nat.le_add_left levels extra
      unfold ofMembers
      refine .after _ fun mode _ => ?_
      have hEntry : ∀ member ∈ operatorMembers members,
          CutOff (.nestingTooDeep low)
            (member.1 = Operator.not.keyword →
              member.2.operatorDepth ≤ levels)
            (entryOf (ofMembers low levels mode) member)
            (entryOf (ofMembers high (extra + levels) mode)
              member) :=
        fun member _ => cutOff_entryOf
          (fun inner => ih (extra + levels) mode inner hRest)
          member
      refine ((CutOff.mapM hEntry).map fun entries =>
        (⟨mode, entries⟩ : Operators)).congr ?_
      rw [Nat.succ_le_succ_iff, Json.operatorDepths_le_iff]
      constructor
      · intro hFits member hMember hKey
        refine hFits member ?_ hKey
        refine mem_operatorMembers_iff.mpr ⟨hMember, ?_⟩
        rw [hKey]
        decide
      · intro hFits member hMember
        exact hFits member
          (mem_operatorMembers_iff.mp hMember).1

end Operators

variable {levels : Nat}

section Entries

variable {readOperators otherOperators :
  Json.Members → Except Error Operators}
variable {readFilter otherFilter :
  Json.Members → Except Error Filter}

theorem cutOff_element
    (hFilter : ∀ inner,
      CutOff (.nestingTooDeep low)
        (Json.entryDepths inner + 1 ≤ levels)
        (readFilter inner) (otherFilter inner))
    (op : Connective)
    (item : Json) :
    CutOff (.nestingTooDeep low)
      (item.filterDepth ≤ levels)
      (element readFilter op item)
      (element otherFilter op item) := by
  cases item with
  | object inner => exact hFilter inner
  | _ => exact .failed _

/- Elements under a connective have to fit one by one. -/
theorem cutOff_connectiveContent
    (hFilter : ∀ inner,
      CutOff (.nestingTooDeep low)
        (Json.entryDepths inner + 1 ≤ levels)
        (readFilter inner) (otherFilter inner))
    (op : Connective)
    (value : Json) :
    CutOff (.nestingTooDeep low)
      (Json.entryDepth op.word value ≤ levels)
      (connectiveContent readFilter op value)
      (connectiveContent otherFilter op value) := by
  have hWord : (Connective.ofWord? op.word).isSome := by
    rw [Connective.ofWord?_word]
    rfl
  cases value with
  | object inner =>
      refine ((hFilter inner).map _).congr ?_
      rw [Json.entryDepth, if_pos hWord]
  | array items =>
      have hItem : ∀ item ∈ items,
          CutOff (.nestingTooDeep low)
            (item.filterDepth ≤ levels)
            (element readFilter op item)
            (element otherFilter op item) :=
        fun item _ => cutOff_element hFilter op item
      refine ((CutOff.mapM hItem).map _).congr ?_
      rw [Json.entryDepth, if_pos hWord,
        Json.itemDepths_le_iff]
  | _ => exact .failed _

theorem cutOff_fieldContent
    (hOperators : ∀ inner,
      CutOff (.nestingTooDeep low)
        (Json.operatorDepths inner + 1 ≤ levels)
        (readOperators inner) (otherOperators inner))
    {name : String}
    (hField : IsFieldName name)
    (value : Json) :
    CutOff (.nestingTooDeep low)
      (Json.entryDepth name value ≤ levels)
      (fieldContent readOperators name value)
      (fieldContent otherOperators name value) := by
  have hWord : ¬ (Connective.ofWord? name).isSome := by
    rw [(isFieldName_iff name).mp hField]
    decide
  cases value with
  | object inner =>
      refine ((hOperators inner).map _).congr ?_
      rw [Json.entryDepth, if_neg hWord]
  | array items => exact .failed _
  | _ => exact .refl _ (Nat.zero_le levels)

theorem cutOff_entryOf
    (hOperators : ∀ inner,
      CutOff (.nestingTooDeep low)
        (Json.operatorDepths inner + 1 ≤ levels)
        (readOperators inner) (otherOperators inner))
    (hFilter : ∀ inner,
      CutOff (.nestingTooDeep low)
        (Json.entryDepths inner + 1 ≤ levels)
        (readFilter inner) (otherFilter inner))
    (member : String × Json) :
    CutOff (.nestingTooDeep low)
      (Json.entryDepth member.1 member.2 ≤ levels)
      (entryOf readOperators readFilter member)
      (entryOf otherOperators otherFilter member) := by
  rcases member with ⟨key, value⟩
  cases hWord : Connective.ofWord? key with
  | some op =>
      rw [Connective.ofWord?_eq_some_iff] at hWord
      subst hWord
      rw [entryOf_connective, entryOf_connective]
      exact (cutOff_connectiveContent hFilter op value).map _
  | none =>
      have hField := (isFieldName_iff key).mpr hWord
      rw [entryOf_field _ _ hField, entryOf_field _ _ hField]
      exact (cutOff_fieldContent hOperators hField value).map _

end Entries

/- Filter objects have to fit into the levels left. -/
theorem cutOff_ofMembers :
    ∀ (levels others : Nat) (members : Json.Members),
    levels ≤ others →
      CutOff (.nestingTooDeep low)
        (Json.entryDepths members + 1 ≤ levels)
        (ofMembers low levels members)
        (ofMembers high others members) := by
  intro levels
  induction levels with
  | zero =>
      intro others members _
      exact .stopped _ (by omega)
  | succ levels ih =>
      intro others members hLevels
      rcases Nat.exists_eq_add_of_le' hLevels with
        ⟨extra, rfl⟩
      have hRest : levels ≤ extra + levels :=
        Nat.le_add_left levels extra
      have hOperators : ∀ inner : Json.Members,
          CutOff (.nestingTooDeep low)
            (Json.operatorDepths inner + 1 ≤ levels)
            (Operators.ofMembers low levels .sensitive inner)
            (Operators.ofMembers high (extra + levels)
              .sensitive inner) :=
        fun inner => Operators.cutOff_ofMembers levels
          (extra + levels) .sensitive inner hRest
      have hEntry : ∀ member ∈ members,
          CutOff (.nestingTooDeep low)
            (Json.entryDepth member.1 member.2 ≤ levels)
            (entryOf
              (Operators.ofMembers low levels .sensitive)
              (ofMembers low levels) member)
            (entryOf
              (Operators.ofMembers high (extra + levels)
                .sensitive)
              (ofMembers high (extra + levels)) member) :=
        fun member _ => cutOff_entryOf hOperators
          (fun inner => ih (extra + levels) inner hRest)
          member
      refine ((CutOff.mapM hEntry).map Filter.mk).congr ?_
      rw [Nat.succ_le_succ_iff, Json.entryDepths_le_iff]

end Filter

end Criteria

------------------------------------------------------------
-- Descriptions
------------------------------------------------------------

namespace Criteria

namespace Description

open Except

/- Of the members only that of the relations sets them. -/
theorem relations_setMember
    {d read : Description}
    {member : Member}
    {value : Json}
    (hRead : d.setMember member value = .ok read) :
    read.relations.map Json.relationDepths =
      (if member = .relations then value.relationsDepth?
        else none).or
        (d.relations.map Json.relationDepths) := by
  by_cases hNull : value = .null
  · subst hNull
    cases hRead
    by_cases hMember : member = .relations <;>
      simp [hMember, Json.relationsDepth?]
  · rw [setMember_of_ne hNull] at hRead
    cases member with
    | relations =>
        rcases map_eq_ok_iff.mp hRead with
          ⟨members, hMembers, rfl⟩
        cases value with
        | object inner =>
            cases hMembers
            rfl
        | _ => cases hMembers
    | _ =>
        rcases map_eq_ok_iff.mp hRead with ⟨_, _, rfl⟩
        rfl

theorem relations_foldlM
    {members : Json.Members}
    {d read : Description}
    (hRead : members.foldlM setNamed d = .ok read) :
    read.relations.map Json.relationDepths =
      (Json.includeDepth? members).or
        (d.relations.map Json.relationDepths) := by
  induction members generalizing d with
  | nil =>
      cases hRead
      rfl
  | cons entry rest ih =>
      rcases entry with ⟨key, value⟩
      rw [List.foldlM_cons, bind_eq_ok_iff] at hRead
      rcases hRead with ⟨next, hFirst, hRest⟩
      rcases setNamed_eq_ok_iff.mp hFirst with
        ⟨member, rfl, hMember⟩
      rw [Json.includeDepth?, Option.or_assoc, ih hRest,
        relations_setMember hMember]
      congr 1
      cases member <;> rfl

/- The depth of an object is that of its description. -/
theorem relationDepth_ofMembers
    {members : Json.Members}
    {d : Description}
    (hRead : ofMembers members = .ok d) :
    (Json.object members).relationDepth =
      d.relationDepth := by
  have hRelations := relations_foldlM hRead
  have hEmpty :
      empty.relations.map Json.relationDepths = none :=
    rfl
  rw [hEmpty, Option.or_none] at hRelations
  rw [Json.relationDepth, ← hRelations, relationDepth]
  cases d.relations <;> rfl

end Description

------------------------------------------------------------
-- Translations
------------------------------------------------------------

namespace Translator

open Except

/- The same translator with another bound on levels. -/
def withMaxDepth
    (t : Translator)
    (most : Nat) : Translator :=
  { t with settings := { t.settings with maxDepth := most } }

variable {t : Translator}
variable {low high : Nat}

/- A filter has to fit into the bound by itself. -/
theorem cutOff_filterCondition?
    (hBound : low ≤ high)
    (d : Description) :
    CutOff (.nestingTooDeep low) (d.filterDepth ≤ low)
      ((t.withMaxDepth low).filterCondition? d.filter)
      ((t.withMaxDepth high).filterCondition? d.filter) := by
  unfold Description.filterDepth
  cases d.filter with
  | none => exact .refl _ (Nat.zero_le low)
  | some members =>
      have hRead :
          CutOff (.nestingTooDeep low)
            (Json.entryDepths members + 1 ≤ low)
            (Filter.parse low members)
            (Filter.parse high members) :=
        Filter.cutOff_ofMembers low high members hBound
      refine (hRead.bind fun f _ =>
        CutOff.refl (P := True) _ trivial).congr ?_
      exact and_iff_left trivial

section Relations

variable {levels : Nat}
variable {translate other :
  Description → Except Error Query}

theorem cutOff_relation
    (hTranslate : ∀ d : Description, d.filter = none →
      CutOff (.nestingTooDeep low)
        (d.relationDepth ≤ levels)
        (translate d) (other d))
    (member : String × Json) :
    CutOff (.nestingTooDeep low)
      (member.2.relationDepth ≤ levels)
      (relation translate member)
      (relation other member) := by
  rcases member with ⟨name, value⟩
  cases value with
  | object members =>
      refine .after _ fun d hRead => ?_
      rw [Description.relationDepth_ofMembers hRead]
      cases hFilter : d.filter with
      | some filter =>
          simp only [Option.isSome_some, if_true]
          exact .failed _
      | none =>
          simp only [Option.isSome_none, Bool.false_eq_true,
            if_false]
          exact (hTranslate d hFilter).map _
  | _ => exact .refl _ (Nat.zero_le levels)

/- The relations have to fit one by one. -/
theorem cutOff_relations?
    (hTranslate : ∀ d : Description, d.filter = none →
      CutOff (.nestingTooDeep low)
        (d.relationDepth ≤ levels)
        (translate d) (other d))
    (d : Description) :
    CutOff (.nestingTooDeep low)
      (d.relationDepth ≤ levels + 1)
      (relations? translate d.relations)
      (relations? other d.relations) := by
  unfold Description.relationDepth
  cases d.relations with
  | none => exact .refl _ (Nat.le_add_left 1 levels)
  | some members =>
      have hEntry : ∀ member ∈ members,
          CutOff (.nestingTooDeep low)
            (member.2.relationDepth ≤ levels)
            (relation translate member)
            (relation other member) :=
        fun member _ => cutOff_relation hTranslate member
      refine ((CutOff.mapM hEntry).map _).congr ?_
      rw [Nat.succ_le_succ_iff, Json.relationDepths_le_iff]

end Relations

/- At every level both depths have to fit, apart. -/
theorem cutOff_translateWithin
    (hBound : low ≤ high) :
    ∀ (levels others : Nat) (d : Description),
    levels ≤ others →
      CutOff (.nestingTooDeep low)
        (d.filterDepth ≤ low ∧ d.relationDepth ≤ levels)
        ((t.withMaxDepth low).translateWithin levels d)
        ((t.withMaxDepth high).translateWithin others
          d) := by
  intro levels
  induction levels with
  | zero =>
      intro others d _
      refine .stopped _ ?_
      rintro ⟨_, hRelations⟩
      unfold Description.relationDepth at hRelations
      cases hMembers : d.relations <;>
        simp [hMembers] at hRelations
  | succ levels ih =>
      intro others d hLevels
      rcases Nat.exists_eq_add_of_le' hLevels with
        ⟨extra, rfl⟩
      have hRest : levels ≤ extra + levels :=
        Nat.le_add_left levels extra
      have hNested : ∀ inner : Description,
          inner.filter = none →
          CutOff (.nestingTooDeep low)
            (inner.relationDepth ≤ levels)
            ((t.withMaxDepth low).translateWithin levels
              inner)
            ((t.withMaxDepth high).translateWithin
              (extra + levels) inner) := by
        intro inner hFilter
        refine (ih (extra + levels) inner hRest).congr ?_
        rw [Description.filterDepth, hFilter]
        exact and_iff_right (Nat.zero_le low)
      have hOthers :
          extra + (levels + 1) = extra + levels + 1 :=
        rfl
      rw [hOthers, translateWithin, translateWithin]
      refine (cutOff_filterCondition? hBound d).bind
        fun condition _ => ?_
      refine ((cutOff_relations? hNested d).bind
        fun relations _ =>
          CutOff.refl (P := True) _ trivial).congr ?_
      exact and_iff_left trivial

/-
  With a lower bound a translation is the same or stops at the
  bound. It succeeds where it does with the higher bound and
  the filter and the relations each fit the lower one.
-/
theorem depth_bound
    (t : Translator)
    {low high : Nat}
    (hBound : low ≤ high)
    (value : Json) :
    ((t.withMaxDepth low).translateJson value =
        (t.withMaxDepth high).translateJson value ∨
      (t.withMaxDepth low).translateJson value =
        .error (.nestingTooDeep low)) ∧
    ((∃ q, (t.withMaxDepth low).translateJson value =
        .ok q) ↔
      (∃ q, (t.withMaxDepth high).translateJson value =
        .ok q) ∧
      ∃ d, Description.ofJson value = .ok d ∧
        d.filterDepth ≤ low ∧ d.relationDepth ≤ low) := by
  have hCut :
      CutOff (.nestingTooDeep low)
        (∃ d, Description.ofJson value = .ok d ∧
          d.filterDepth ≤ low ∧ d.relationDepth ≤ low)
        ((t.withMaxDepth low).translateJson value)
        ((t.withMaxDepth high).translateJson value) := by
    refine .after _ fun d hRead => ?_
    refine (cutOff_translateWithin hBound low high d
      hBound).congr ?_
    simp [hRead]
  exact ⟨hCut.eq_or_stopped, hCut.succeeds_iff⟩

/- A filter of four levels beside relations of three. -/
def fourByThree : Json :=
  .object
    [("where", .object
      [("AND", .array
        [.object
          [("views", .object
            [("not", .object
              [("equals", .number (.integer 1))])])]])]),
    ("include", .object
      [("author", .object
        [("include", .object [("posts", .object [])])])])]

/- Four levels are enough for both depths, three are not. -/
theorem depth_bound_fourByThree :
    3 ≤ 4 ∧
    (∃ q, (viewsTranslator.withMaxDepth 4).translateJson
      fourByThree = .ok q) ∧
    (viewsTranslator.withMaxDepth 3).translateJson
        fourByThree =
      .error (.nestingTooDeep 3) := by
  have hBound : 3 ≤ 4 := by decide
  rcases viewsTranslator.depth_bound hBound fourByThree with
    ⟨hResult, hSucceeds⟩
  refine ⟨hBound, ⟨_, rfl⟩, ?_⟩
  rcases hResult with hSame | hStopped
  · rcases hSucceeds.mp ⟨_, hSame⟩ with
      ⟨_, d, hRead, hFilter, _⟩
    cases hRead
    exact absurd hFilter (by decide)
  · exact hStopped

end Translator

end Criteria
