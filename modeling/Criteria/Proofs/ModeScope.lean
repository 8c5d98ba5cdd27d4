import Criteria.Proofs.FilterSites
import Criteria.Proofs.MatchModes

/-
  This file proves what the mode of an operator object does.

  A mode is set on an object anywhere in a filter, as a new
  member or in place of the mode it had. Reading and compiling
  the filter then fail as before or succeed as before, and
  the conditions are the same but for the patterns in the
  scope of the mode. These are the pattern operators of the
  object and of the objects under `not` in it, as far as these
  do not have a mode of their own.

  Key definitions include:
    * `Json.ModeSet`
    * `Filter.OperatorsRescoped`
    * `Filter.FiltersAgree`

  Main statements:
    * `Json.ModeSet.operatorMembers_eq`
    * `Filter.OperatorsRescoped.unmoded_eq`
    * `Filter.agree_operators`
    * `Filter.agree_compile`
    * `Json.OperatorSite.agree_ofMembers`
    * `Json.FilterSite.agree_ofMembers`
    * `Translator.mode_scope`
-/

------------------------------------------------------------
-- The Scope of a Mode
------------------------------------------------------------

namespace Criteria

namespace Json

/- The object has a new mode, in place of one or of none. -/
inductive ModeSet
    (new : MatchMode) : Members → Members → Prop where
  | added
      {before after : Members}
      (hNone :
        (before ++ after).lookup MatchMode.key = none) :
      ModeSet new (before ++ after)
        (before ++ (MatchMode.key, .string new.word) :: after)
  | changed
      {before after : Members}
      (old : MatchMode)
      (hFirst : before.lookup MatchMode.key = none) :
      ModeSet new
        (before ++ (MatchMode.key, .string old.word) :: after)
        (before ++ (MatchMode.key, .string new.word) :: after)

end Json

/- The operators that match patterns. -/
def Operator.IsPattern (op : Operator) : Prop :=
  op = .contains ∨ op = .startsWith ∨ op = .endsWith

namespace Filter

mutual

/-
  The condition of an operator in one mode and in another. A
  pattern changes with the mode, an object under `not` changes
  if it inherits the mode, and nothing else changes.
-/
inductive OperatorRescoped (old new : MatchMode) :
    String × Json → Condition → Condition → Prop where
  | pattern
      {op : Operator}
      {operand : Json}
      {column : Column}
      {negated : Bool}
      {text : String}
      (hPattern : op.IsPattern) :
      OperatorRescoped old new (op.keyword, operand)
        (.single (.like column negated old text))
        (.single (.like column negated new text))
  | inherited
      {inner : Json.Members}
      {cs ds : List Condition}
      (kind : Junction)
      (hMode : inner.lookup MatchMode.key = none)
      (hInner : OperatorsRescoped old new inner cs ds) :
      OperatorRescoped old new
        (Operator.not.keyword, .object inner)
        (.underNot kind cs) (.underNot kind ds)
  | kept
      {member : String × Json}
      (c : Condition)
      (hPlain : ∀ op : Operator, op.IsPattern →
        member.1 ≠ op.keyword)
      (hOwn : ∀ inner,
        member = (Operator.not.keyword, .object inner) →
          inner.lookup MatchMode.key ≠ none) :
      OperatorRescoped old new member c c

/- One condition for each operator of an object, in order. -/
inductive OperatorsRescoped (old new : MatchMode) :
    Json.Members → List Condition → List Condition →
      Prop where
  | nil : OperatorsRescoped old new [] [] []
  | cons
      {member : String × Json}
      {members : Json.Members}
      {c d : Condition}
      {cs ds : List Condition}
      (hFirst : OperatorRescoped old new member c d)
      (hRest : OperatorsRescoped old new members cs ds) :
      OperatorsRescoped old new (member :: members)
        (c :: cs) (d :: ds)

end

end Filter

end Criteria

------------------------------------------------------------
-- Setting a Mode
------------------------------------------------------------

namespace Criteria

namespace Json

open Criteria.Filter

variable {new : MatchMode}
variable {members others : Members}

/- A mode that is set is read. -/
theorem ModeSet.modeIn_eq
    (hSet : ModeSet new members others)
    (inherited : MatchMode) :
    (∃ old,
      Operators.modeIn inherited members = .ok old) ∧
    Operators.modeIn inherited others = .ok new := by
  simp only [Operators.modeIn_eq_ok_iff]
  cases hSet with
  | @added before after hNone =>
      rw [List.lookup_append, Option.or_eq_none_iff] at hNone
      refine ⟨⟨inherited, .inr ⟨?_, rfl⟩⟩, .inl ?_⟩
      · rw [List.lookup_append, hNone.1, hNone.2]
        rfl
      · rw [List.lookup_append, hNone.1,
          List.lookup_cons_self]
        rfl
  | @changed before after old hFirst =>
      refine ⟨⟨old, .inl ?_⟩, .inl ?_⟩
      · rw [List.lookup_append, hFirst,
          List.lookup_cons_self]
        rfl
      · rw [List.lookup_append, hFirst,
          List.lookup_cons_self]
        rfl

/- A mode that is set leaves the operators as they are. -/
theorem ModeSet.operatorMembers_eq
    (hSet : ModeSet new members others) :
    Operators.operatorMembers members =
      Operators.operatorMembers others := by
  cases hSet <;> simp [Operators.operatorMembers]

end Json

------------------------------------------------------------
-- Operators in Two Modes
------------------------------------------------------------

theorem Condition.unmoded_underNot
    (kind : Junction)
    (cs : List Condition) :
    (underNot kind cs).unmoded =
      underNot kind (cs.map unmoded) := by
  have hCombine :
      combine kind (cs.map unmoded) =
        (combine kind cs).map unmoded :=
    (map_combine _ kind cs).symm
  rw [underNot, underNot, hCombine]
  cases combine kind cs <;> rfl

namespace Operator

open Except

/- A pattern is built and matched in any mode. -/
theorem agree_matching
    (op : Operator)
    (field : Field)
    (build : String → String)
    (old new : MatchMode)
    (negated : Bool)
    (operand : Json) :
    Agree
      (fun c d => ∃ text,
        c = .single (.like field.column negated old text) ∧
        d = .single (.like field.column negated new text))
      (op.matching field build old negated operand)
      (op.matching field build new negated operand) := by
  refine .after _ fun text => .after _ fun _ => ?_
  exact .ok ⟨build text, rfl, rfl⟩

theorem agree_pattern
    {op : Operator}
    (hPattern : op.IsPattern)
    (name : String)
    (field : Field)
    (old new : MatchMode)
    (context : Context)
    (operand : Json) :
    Agree
      (Filter.OperatorRescoped old new (op.keyword, operand))
      (op.condition name field old context operand)
      (op.condition name field new context operand) := by
  have hBuild : ∀ build : String → String,
      Agree
        (Filter.OperatorRescoped old new
          (op.keyword, operand))
        (op.matching field build old context.isNegated
          operand)
        (op.matching field build new context.isNegated
          operand) := by
    intro build
    refine (op.agree_matching field build old new _
      operand).mono ?_
    rintro _ _ ⟨text, rfl, rfl⟩
    exact .pattern hPattern
  rcases hPattern with rfl | rfl | rfl
  · exact hBuild Pattern.containing
  · exact hBuild Pattern.starting
  · exact hBuild Pattern.ending

/- Other operators do not look at the mode. -/
theorem condition_of_plain
    {op : Operator}
    (hPlain : ¬ op.IsPattern)
    (name : String)
    (field : Field)
    (old new : MatchMode)
    (context : Context)
    (operand : Json) :
    op.condition name field old context operand =
      op.condition name field new context operand := by
  cases op with
  | contains | startsWith | endsWith =>
      exact absurd (by simp [IsPattern]) hPlain
  | _ => rfl

end Operator

namespace Filter

open Except Condition

variable {old new : MatchMode}

mutual

theorem OperatorRescoped.unmoded_eq :
    ∀ {member : String × Json} {c d : Condition},
    OperatorRescoped old new member c d →
      c.unmoded = d.unmoded
  | _, _, _, .pattern _ => by
      rw [unmoded, unmoded, mapPredicates_single,
        mapPredicates_single]
      rfl
  | _, _, _, .inherited kind _ hInner => by
      rw [unmoded_underNot, unmoded_underNot,
        hInner.unmoded_eq]
  | _, _, _, .kept c _ _ => rfl

/- The same form is kept, whatever is in the scope. -/
theorem OperatorsRescoped.unmoded_eq :
    ∀ {members : Json.Members} {cs ds : List Condition},
    OperatorsRescoped old new members cs ds →
      cs.map unmoded = ds.map unmoded
  | _, _, _, .nil => rfl
  | _, _, _, .cons hFirst hRest => by
      rw [List.map_cons, List.map_cons, hFirst.unmoded_eq,
        hRest.unmoded_eq]

end

/- What is no pattern, and inherits no mode, is kept. -/
theorem OperatorRescoped.of_plain
    {op : Operator}
    {value : Json}
    (hPlain : ¬ op.IsPattern)
    (hOwn : ∀ inner, op = .not → value = .object inner →
      inner.lookup MatchMode.key ≠ none)
    (c : Condition) :
    OperatorRescoped old new (op.keyword, value) c c := by
  refine .kept c ?_ ?_
  · intro other hPattern hKey
    cases Operator.keyword_injective hKey
    exact hPlain hPattern
  · intro inner hMember
    rcases Prod.mk.inj hMember with ⟨hKey, hValue⟩
    exact hOwn inner (Operator.keyword_injective hKey) hValue

section Modes

/- Entries that compile, in both modes, as the scope says. -/
def EntriesRescoped
    (old new : MatchMode)
    (members : Json.Members)
    (entries others : List (Operator × Operand)) : Prop :=
  ∀ name field context,
    Agree (OperatorsRescoped old new members)
      (operatorConditions name field old context entries)
      (operatorConditions name field new context others)

variable (read :
  MatchMode → Json.Members → Except Error Operators)

/- An operator is read and compiled in both modes. -/
theorem agree_operator
    (hOwn : ∀ inner : Json.Members,
      inner.lookup MatchMode.key ≠ none →
        read old inner = read new inner)
    (hInherited : ∀ inner : Json.Members,
      inner.lookup MatchMode.key = none →
        Agree
          (fun operators others =>
            operators.mode = old ∧ others.mode = new ∧
            EntriesRescoped old new inner operators.entries
              others.entries)
          (read old inner) (read new inner))
    (member : String × Json) :
    Agree
      (fun entry other => ∀ name field context,
        Agree (OperatorRescoped old new member)
          (entry.2.condition name field old context entry.1)
          (other.2.condition name field new context other.1))
      (Operators.entryOf (read old) member)
      (Operators.entryOf (read new) member) := by
  rcases member with ⟨key, value⟩
  cases hFound : Operator.ofKeyword? key with
  | none =>
      have hError : ∀ mode,
          Operators.entryOf (read mode) (key, value) =
            .error (.unsupportedOperator key) := by
        intro mode
        simp [Operators.entryOf, Operators.operatorOf, hFound,
          bind, Except.bind]
      rw [hError, hError]
      exact .error _
  | some op =>
      rw [Operator.ofKeyword?_eq_some_iff] at hFound
      subst hFound
      by_cases hObject :
          ∃ inner, op = .not ∧ value = .object inner
      · rcases hObject with ⟨inner, rfl, rfl⟩
        rw [Operators.entryOf_nested,
          Operators.entryOf_nested]
        by_cases hMode : inner.lookup MatchMode.key = none
        · refine (hInherited inner hMode).map ?_
          rintro ⟨_, entries⟩ ⟨_, others⟩ ⟨rfl, rfl, hEntries⟩
            name field context
          rw [Operand.condition_nested,
            Operand.condition_nested]
          exact (hEntries name field context.flipped).map
            fun cs ds hInner => .inherited _ hMode hInner
        · rw [hOwn inner hMode]
          refine (Agree.refl (R := Eq) _
            fun _ _ => rfl).map ?_
          rintro operators _ rfl name field context
          rw [Operand.condition_nested,
            Operand.condition_nested]
          refine .refl _ fun c _ => ?_
          refine .of_plain (by simp [Operator.IsPattern]) ?_ c
          rintro _ _ ⟨⟩
          exact hMode
      · have hPlain :
            ∀ inner, op = .not → value ≠ .object inner :=
          fun inner hNot hValue =>
            hObject ⟨inner, hNot, hValue⟩
        rw [Operators.entryOf_value _ hPlain,
          Operators.entryOf_value _ hPlain]
        refine .ok fun name field context => ?_
        simp only [Operand.condition]
        by_cases hPattern : op.IsPattern
        · exact Operator.agree_pattern hPattern name field old
            new context value
        · rw [Operator.condition_of_plain hPattern name field
            old new]
          refine .refl _ fun c _ => .of_plain hPattern ?_ c
          intro inner hNot hValue
          exact absurd hValue (hPlain inner hNot)

/- A list of operators is read and compiled in both modes. -/
theorem agree_entries
    (members : Json.Members)
    (hEach : ∀ member ∈ members,
      Agree
        (fun entry other => ∀ name field context,
          Agree (OperatorRescoped old new member)
            (entry.2.condition name field old context entry.1)
            (other.2.condition name field new context
              other.1))
        (Operators.entryOf (read old) member)
        (Operators.entryOf (read new) member)) :
    Agree (EntriesRescoped old new members)
      (members.mapM (Operators.entryOf (read old)))
      (members.mapM (Operators.entryOf (read new))) := by
  induction members with
  | nil => exact .ok fun _ _ _ => .ok .nil
  | cons member members ih =>
      rw [List.forall_mem_cons] at hEach
      rw [List.mapM_cons, List.mapM_cons]
      refine hEach.1.bind fun entry other hFirst => ?_
      refine (ih hEach.2).map fun entries others hRest => ?_
      intro name field context
      rcases entry with ⟨op, operand⟩
      rcases other with ⟨more, value⟩
      rw [operatorConditions, operatorConditions]
      refine (hFirst name field context).bind
        fun c d hRelated => ?_
      exact (hRest name field context).map
        fun cs ds hOthers => .cons hRelated hOthers

/- Without a mode all members of an object are operators. -/
theorem operatorMembers_of_lookup
    {members : Json.Members}
    (hMode : members.lookup MatchMode.key = none) :
    Operators.operatorMembers members = members := by
  refine List.filter_eq_self.mpr fun member hMember => ?_
  have hName :=
    List.lookup_eq_none_iff.mp hMode member hMember
  rw [bne_iff_ne] at hName
  exact decide_eq_true hName.symm

/- An object with a mode of its own is read alike in any. -/
theorem ofMembers_of_declared
    (most levels : Nat)
    (mode other : MatchMode)
    {inner : Json.Members}
    (hMode : inner.lookup MatchMode.key ≠ none) :
    Operators.ofMembers most levels mode inner =
      Operators.ofMembers most levels other inner := by
  have hRead :
      Operators.modeIn mode inner =
        Operators.modeIn other inner := by
    unfold Operators.modeIn
    cases hFound : inner.lookup MatchMode.key with
    | none => exact absurd hFound hMode
    | some value => rfl
  cases levels with
  | zero => rfl
  | succ levels =>
      rw [Operators.ofMembers, Operators.ofMembers, hRead]

/-
  The operators of an object are read in one mode as in the
  other, and compiled as the scope says. The levels of the
  objects under `not` are what the induction is on.
-/
theorem agree_operators
    (most levels : Nat) :
    ∀ members : Json.Members,
    Agree (EntriesRescoped old new members)
      (members.mapM (Operators.entryOf
        (Operators.ofMembers most levels old)))
      (members.mapM (Operators.entryOf
        (Operators.ofMembers most levels new))) := by
  induction levels with
  | zero =>
      intro members
      refine agree_entries (Operators.ofMembers most 0)
        members fun member _ => ?_
      refine agree_operator (Operators.ofMembers most 0)
        ?_ ?_ member
      · exact fun _ _ => rfl
      · exact fun _ _ => .error _
  | succ levels ih =>
      intro members
      refine agree_entries
        (Operators.ofMembers most (levels + 1)) members
        fun member _ => ?_
      refine agree_operator
        (Operators.ofMembers most (levels + 1)) ?_ ?_ member
      · intro inner hMode
        exact ofMembers_of_declared most _ old new hMode
      · intro inner hMode
        have hRead : ∀ mode,
            Operators.modeIn mode inner = .ok mode :=
          fun mode => (Operators.modeIn_eq_ok_iff _ _ _).mpr
            (.inr ⟨hMode, rfl⟩)
        rw [ofMembers_of_modeIn most levels (hRead old),
          ofMembers_of_modeIn most levels (hRead new),
          operatorMembers_of_lookup hMode]
        exact (ih inner).map fun entries others hEntries =>
          ⟨rfl, rfl, hEntries⟩

end Modes

------------------------------------------------------------
-- Objects whose Mode is Set
------------------------------------------------------------

section Sites

variable {most : Nat}
variable {members others : Json.Members}

/- Two objects compile to the same but for modes. -/
def OperatorsAgree (operators more : Operators) : Prop :=
  ∀ name field context,
    Agree SameButModes
      (operators.condition? name field context)
      (more.condition? name field context)

/- An object is read in its old mode and in the new one. -/
theorem agree_modes
    (hSet : Json.ModeSet new members others)
    (levels : Nat)
    {around : MatchMode}
    (hOld : Operators.modeIn around members = .ok old) :
    Agree
      (fun operators more =>
        operators.mode = old ∧ more.mode = new ∧
        EntriesRescoped old new
          (Operators.operatorMembers members)
          operators.entries more.entries)
      (Operators.ofMembers most levels around members)
      (Operators.ofMembers most levels around others) := by
  cases levels with
  | zero => exact .error _
  | succ levels =>
      rw [ofMembers_of_modeIn most levels hOld,
        ofMembers_of_modeIn most levels
          (hSet.modeIn_eq around).2,
        ← hSet.operatorMembers_eq]
      exact (agree_operators most levels _).map
        fun entries more hEntries => ⟨rfl, rfl, hEntries⟩

/- So its operators compile as the scope says. -/
theorem agree_compile
    (hSet : Json.ModeSet new members others)
    (levels : Nat)
    (name : String)
    (field : Field)
    (context : Context)
    {around : MatchMode}
    (hOld : Operators.modeIn around members = .ok old) :
    Agree
      (OperatorsRescoped old new
        (Operators.operatorMembers members))
      (Operators.compile most levels name field context
        around members)
      (Operators.compile most levels name field context
        around others) := by
  refine (agree_modes hSet levels hOld).bind ?_
  rintro operators more ⟨rfl, rfl, hEntries⟩
  exact hEntries name field context

/- An object compiles alike, with its mode set or not. -/
theorem agree_object
    (hSet : Json.ModeSet new members others)
    (levels : Nat)
    (around : MatchMode) :
    Agree OperatorsAgree
      (Operators.ofMembers most levels around members)
      (Operators.ofMembers most levels around others) := by
  rcases (hSet.modeIn_eq around).1 with ⟨old, hOld⟩
  refine (agree_modes hSet levels hOld).mono ?_
  rintro operators more ⟨rfl, rfl, hEntries⟩ name field
    context
  rw [Operators.condition?_eq_map,
    Operators.condition?_eq_map]
  exact (hEntries name field context).map
    fun cs ds hScope => sameButModes_combine _ hScope.unmoded_eq

/- Operators that agree do so among the same ones. -/
theorem operatorsAgree_amid
    {operators more : Operators}
    (hAgree : OperatorsAgree operators more)
    (mode : MatchMode)
    (before after : List (Operator × Operand)) :
    OperatorsAgree
      ⟨mode, before ++ (.not, .nested operators) :: after⟩
      ⟨mode, before ++ (.not, .nested more) :: after⟩ := by
  intro name field context
  rw [Operators.condition?_eq_map,
    Operators.condition?_eq_map, operatorConditions_eq_mapM,
    operatorConditions_eq_mapM]
  refine Agree.map (Agree.mapM_amid
    (R := fun c d => c.unmoded = d.unmoded)
    ?_ before after) ?_
  · simp only [Operand.condition]
    exact (hAgree name field context.flipped).bind
      fun c? d? hInner => .ok (hInner.unmoded_getD _)
  · rintro _ _ ⟨first, c, d, rest, rfl, rfl, hInner⟩
    refine sameButModes_combine _ ?_
    rw [List.map_append, List.map_append, List.map_cons,
      List.map_cons, hInner]

/- An object under `not` is read alike in the one around. -/
theorem agree_around
    {inner more : Json.Members}
    (levels : Nat)
    (inherited : MatchMode)
    (before after : Json.Members)
    (hInner : ∀ mode,
      Agree OperatorsAgree
        (Operators.ofMembers most levels mode inner)
        (Operators.ofMembers most levels mode more)) :
    Agree OperatorsAgree
      (Operators.ofMembers most (levels + 1) inherited
        (before ++
          (Operator.not.keyword, .object inner) :: after))
      (Operators.ofMembers most (levels + 1) inherited
        (before ++
          (Operator.not.keyword, .object more) ::
            after)) := by
  rw [Operators.ofMembers, Operators.ofMembers,
    Json.modeIn_nested, Json.modeIn_nested,
    operatorMembers_around, operatorMembers_around]
  refine .after _ fun mode => ?_
  have hEntry :
      Agree
        (fun entry other => ∃ operators others,
          entry = (.not, .nested operators) ∧
          other = (.not, .nested others) ∧
          OperatorsAgree operators others)
        (Operators.entryOf
          (Operators.ofMembers most levels mode)
          (Operator.not.keyword, .object inner))
        (Operators.entryOf
          (Operators.ofMembers most levels mode)
          (Operator.not.keyword, .object more)) := by
    rw [Operators.entryOf_nested, Operators.entryOf_nested]
    exact (hInner mode).map fun operators others hAgree =>
      ⟨operators, others, rfl, rfl, hAgree⟩
  refine (Agree.mapM_amid hEntry _ _).bind ?_
  rintro _ _ ⟨first, _, _, rest, rfl, rfl, operators, others,
    rfl, rfl, hAgree⟩
  exact .ok (operatorsAgree_amid hAgree mode first rest)

end Sites

end Filter

------------------------------------------------------------
-- Filters around an Object
------------------------------------------------------------

namespace Filter

open Except Condition

variable {schema : Schema}
variable {most : Nat}

/- Two filters compile to the same but for modes. -/
def FiltersAgree
    (schema : Schema)
    (f g : Filter) : Prop :=
  ∀ context,
    Agree SameButModes (f.condition? schema context)
      (g.condition? schema context)

def EntriesAgree
    (schema : Schema)
    (entry other : Key × Content) : Prop :=
  ∀ context,
    Agree SameButModes
      (entryCondition? schema context entry.1 entry.2)
      (entryCondition? schema context other.1 other.2)

/- Members that agree do so among the same ones. -/
theorem agree_members
    {member other : String × Json}
    (levels : Nat)
    (hMember :
      Agree (EntriesAgree schema)
        (entryOf
          (Operators.ofMembers most levels .sensitive)
          (ofMembers most levels) member)
        (entryOf
          (Operators.ofMembers most levels .sensitive)
          (ofMembers most levels) other))
    (before after : Json.Members) :
    Agree (FiltersAgree schema)
      (ofMembers most (levels + 1)
        (before ++ member :: after))
      (ofMembers most (levels + 1)
        (before ++ other :: after)) := by
  rw [ofMembers, ofMembers]
  refine (Agree.mapM_amid hMember before after).bind ?_
  rintro _ _ ⟨first, entry, more, rest, rfl, rfl, hAgree⟩
  refine .ok fun context => ?_
  rw [condition?, condition?, entryConditions_eq_mapM,
    entryConditions_eq_mapM]
  refine Agree.bind
    (R := fun cs ds => cs.map unmoded = ds.map unmoded) ?_
    fun cs ds hSame => .ok (sameButModes_wrap _ hSame)
  refine Agree.map
    (Agree.mapM_amid (hAgree context) first rest) ?_
  rintro _ _ ⟨before, c?, d?, after, rfl, rfl, hSame⟩
  exact hSame.map_unmoded_amid before after

/- Objects that agree do so as what a field holds. -/
theorem agree_operatorField
    {read : Json.Members → Except Error Operators}
    {readFilter : Json.Members → Except Error Filter}
    {name : String}
    {inner more : Json.Members}
    (hField : IsFieldName name)
    (hRead : Agree OperatorsAgree (read inner)
      (read more)) :
    Agree (EntriesAgree schema)
      (entryOf read readFilter (name, .object inner))
      (entryOf read readFilter (name, .object more)) := by
  rw [entryOf_field _ _ hField, entryOf_field _ _ hField]
  refine Agree.map (Agree.map (R := OperatorsAgree)
    (S := fun content other => ∃ operators others,
      content = .operators operators ∧
      other = .operators others ∧
      OperatorsAgree operators others) hRead ?_) ?_
  · exact fun operators others hAgree =>
      ⟨operators, others, rfl, rfl, hAgree⟩
  · rintro _ _ ⟨operators, others, rfl, rfl, hAgree⟩ context
    exact .after _ fun field =>
      hAgree name field context.positive

/- Filters that agree do so as what a connective holds. -/
theorem agree_branch
    {readOperators : Json.Members → Except Error Operators}
    {read : Json.Members → Except Error Filter}
    {inner more : Json.Members}
    (hRead : Agree (FiltersAgree schema) (read inner)
      (read more))
    (op : Connective) :
    Agree (EntriesAgree schema)
      (entryOf readOperators read (op.word, .object inner))
      (entryOf readOperators read
        (op.word, .object more)) := by
  rw [entryOf_connective, entryOf_connective]
  refine Agree.map (Agree.map (R := FiltersAgree schema)
    (S := fun content other => ∃ f g,
      content = .branch f ∧ other = .branch g ∧
      FiltersAgree schema f g) hRead ?_) ?_
  · exact fun f g hAgree => ⟨f, g, rfl, rfl, hAgree⟩
  · rintro _ _ ⟨f, g, rfl, rfl, hAgree⟩ context
    have hConnected : ∀ op : Connective,
        Agree SameButModes
          (do
            let c? ← f.condition? schema .conjunctive
            return connect op context c?.toList)
          (do
            let d? ← g.condition? schema .conjunctive
            return connect op context d?.toList) := by
      refine fun op => (hAgree .conjunctive).bind
        fun c? d? hSame =>
          .ok (sameButModes_connect op context ?_)
      rw [← Option.toList_map, hSame, Option.toList_map]
    simp only [entryCondition?]
    cases op with
    | or => exact hAgree .disjunctive
    | and => exact hConnected .and
    | not => exact hConnected .not

/- So they do among the elements of an array. -/
theorem agree_branches
    {readOperators : Json.Members → Except Error Operators}
    {read : Json.Members → Except Error Filter}
    {inner more : Json.Members}
    (hRead : Agree (FiltersAgree schema) (read inner)
      (read more))
    (op : Connective)
    (earlier later : List Json) :
    Agree (EntriesAgree schema)
      (entryOf readOperators read
        (op.word, .array (earlier ++ .object inner :: later)))
      (entryOf readOperators read
        (op.word, .array (earlier ++ .object more ::
          later))) := by
  rw [entryOf_connective, entryOf_connective]
  have hItem :
      Agree (FiltersAgree schema)
        (element read op (.object inner))
        (element read op (.object more)) :=
    hRead
  refine Agree.map (Agree.map
    (S := fun content other => ∃ first f g rest,
      content = .branches (first ++ f :: rest) ∧
      other = .branches (first ++ g :: rest) ∧
      FiltersAgree schema f g)
    (hItem.mapM_amid earlier later) ?_) ?_
  · rintro _ _ ⟨first, f, g, rest, rfl, rfl, hAgree⟩
    exact ⟨first, f, g, rest, rfl, rfl, hAgree⟩
  · rintro _ _ ⟨first, f, g, rest, rfl, rfl, hAgree⟩ context
    simp only [entryCondition?, itemConditions_eq_mapM]
    refine Agree.bind
      (R := fun cs ds => cs.map unmoded = ds.map unmoded) ?_
      fun cs ds hSame =>
        .ok (sameButModes_connect op context hSame)
    refine Agree.map
      (Agree.mapM_amid (hAgree .conjunctive) first rest) ?_
    rintro _ _ ⟨before, c?, d?, after, rfl, rfl, hSame⟩
    exact hSame.map_unmoded_amid before after

end Filter

namespace Json

open Except Criteria.Filter Condition

variable {new : MatchMode}
variable {members others : Members}

/-
  Objects compile alike around an object whose mode is set.
  The induction is on the objects around it, outermost first,
  each of which may give a mode to the next.
-/
theorem OperatorSite.agree_ofMembers
    (most : Nat)
    (hSet : ModeSet new members others)
    (site : OperatorSite) :
    ∀ (levels : Nat) (inherited : MatchMode),
    Agree OperatorsAgree
      (Operators.ofMembers most levels inherited
        (site.fill members))
      (Operators.ofMembers most levels inherited
        (site.fill others)) := by
  induction site with
  | here =>
      intro levels inherited
      exact agree_object hSet levels inherited
  | nested before inner after ih =>
      intro levels inherited
      cases levels with
      | zero => exact .error _
      | succ levels =>
          exact agree_around levels inherited before after
            (ih levels)

/-
  Filters compile alike around an object whose mode is set.
  The induction is on the filters around it.
-/
theorem FilterSite.agree_ofMembers
    (schema : Schema)
    (most : Nat)
    (hSet : ModeSet new members others)
    (site : FilterSite) :
    ∀ levels : Nat,
    Agree (FiltersAgree schema)
      (Filter.ofMembers most levels (site.fill members))
      (Filter.ofMembers most levels (site.fill others)) := by
  induction site with
  | field before name hField site after =>
      intro levels
      cases levels with
      | zero => exact .error _
      | succ levels =>
          refine agree_members levels ?_ before after
          exact agree_operatorField hField
            (site.agree_ofMembers most hSet levels .sensitive)
  | branch before op inner after ih =>
      intro levels
      cases levels with
      | zero => exact .error _
      | succ levels =>
          exact agree_members levels
            (agree_branch (ih levels) op) before after
  | branches before op earlier inner later after ih =>
      intro levels
      cases levels with
      | zero => exact .error _
      | succ levels =>
          exact agree_members levels
            (agree_branches (ih levels) op earlier later)
            before after

end Json

end Criteria

------------------------------------------------------------
-- Filters of Descriptions
------------------------------------------------------------

namespace Criteria

namespace Translator

open Except Json Criteria.Filter Condition

/-
  Around a site in a filter the same is tested whatever object
  stands there. A mode that is set on the object changes
  neither that the filter is accepted nor the error if it is
  not. It leaves the form of the condition and what it binds
  as they are, and all of its predicates but those of the
  object. Of the operators of the object, each of which has a
  condition of its own, the patterns take the new mode, an
  object under `not` is treated likewise if it inherits the
  mode, and the others stay as they are.
-/
theorem mode_scope
    (t : Translator)
    (site : FilterSite) :
    ∃ before after,
      ∀ (new : MatchMode) (members others : Members),
      ModeSet new members others →
        (∀ e,
          t.filterCondition? (some (site.fill members)) =
              .error e ↔
            t.filterCondition? (some (site.fill others)) =
              .error e) ∧
        ∀ c? d?,
          t.filterCondition? (some (site.fill members)) =
              .ok c? →
          t.filterCondition? (some (site.fill others)) =
              .ok d? →
          c?.map unmoded = d?.map unmoded ∧
          bound c? = bound d? ∧
          ∃ field old cs ds,
            tests c? = before ++ site.tested cs ++ after ∧
            tests d? = before ++ site.tested ds ++ after ∧
            t.schema.find? site.name = some field ∧
            Operators.modeIn site.around members = .ok old ∧
            t.compileAt site field members = .ok cs ∧
            t.compileAt site field others = .ok ds ∧
            OperatorsRescoped old new
              (Operators.operatorMembers members) cs ds := by
  rcases t.exists_around site with ⟨before, after, hAround⟩
  refine ⟨before, after, ?_⟩
  intro new members others hSet
  have hAgree :
      Agree SameButModes
        (t.filterCondition? (some (site.fill members)))
        (t.filterCondition? (some (site.fill others))) :=
    (site.agree_ofMembers t.schema t.settings.maxDepth hSet
      t.settings.maxDepth).bind
        fun f g hFilters => hFilters .conjunctive
  refine ⟨hAgree.eq_error_iff, ?_⟩
  intro c? d? hFirst hSecond
  rcases hAround members c? hFirst with
    ⟨field, cs, hField, hMembers, hTests⟩
  rcases hAround others d? hSecond with
    ⟨other, ds, hOther, hOthers, hChanged⟩
  cases hField.symm.trans hOther
  rcases (hSet.modeIn_eq site.around).1 with ⟨old, hOld⟩
  have hScope :
      Agree
        (OperatorsRescoped old new
          (Operators.operatorMembers members))
        (t.compileAt site field members)
        (t.compileAt site field others) :=
    agree_compile hSet _ _ _ _ hOld
  rw [hFirst, hSecond] at hAgree
  rw [hMembers, hOthers] at hScope
  exact ⟨hAgree.related, hAgree.related.bound_eq, field, old,
    cs, ds, hTests, hChanged, hField, hOld, hMembers, hOthers,
    hScope.related⟩

/- Rows have a title each. -/
def titleTranslator : Translator :=
  { schema := ⟨[("title", ⟨⟨"title"⟩, .string, false⟩)]⟩
    settings := ⟨32, "id"⟩ }

theorem isFieldName_title : IsFieldName "title" := by
  intro op
  cases op <;> decide

/- Patterns, of which the last has a mode of its own. -/
def titlePatterns : Members :=
  [("startsWith", .string "b"),
    ("not", .object [("endsWith", .string "c")]),
    ("not", .object
      [("mode", .string "default"),
        ("contains", .string "d")])]

/- An object under `not`, beside a pattern. -/
def titleOperators : OperatorSite :=
  .nested [("contains", .string "a")] .here []

/- The second of two alternatives that may be the same. -/
def titleSite : FilterSite :=
  .branches [] .or
    [.object
      [("title", .object (titleOperators.fill titlePatterns))]]
    (.field [] "title" isFieldName_title titleOperators [])
    [] []

/- Tests of the title, of which two are in the scope. -/
def titleTests (mode : MatchMode) : List Predicate :=
  [.like ⟨"title"⟩ false .sensitive "%a%",
    .like ⟨"title"⟩ true mode "b%",
    .like ⟨"title"⟩ false mode "%c",
    .like ⟨"title"⟩ false .sensitive "%d%"]

theorem mode_scope_titlePatterns :
    ModeSet .insensitive titlePatterns
      (titlePatterns ++
        [(MatchMode.key, .string "insensitive")]) ∧
    ∃ c? d?,
      titleTranslator.filterCondition?
          (some (titleSite.fill titlePatterns)) = .ok c? ∧
      titleTranslator.filterCondition?
          (some (titleSite.fill (titlePatterns ++
            [(MatchMode.key, .string "insensitive")]))) =
        .ok d? ∧
      c?.map unmoded = d?.map unmoded ∧
      tests c? =
        titleTests .sensitive ++ titleTests .sensitive ∧
      tests d? =
        titleTests .sensitive ++ titleTests .insensitive := by
  have hSet : ModeSet .insensitive titlePatterns
      (titlePatterns ++
        [(MatchMode.key, .string "insensitive")]) := by
    have hAdded := @ModeSet.added .insensitive titlePatterns
      [] rfl
    rwa [List.append_nil] at hAdded
  rcases titleTranslator.mode_scope titleSite with
    ⟨before, after, hScope⟩
  have hSame :=
    ((hScope .insensitive titlePatterns _ hSet).2 _ _ rfl
      rfl).1
  exact ⟨hSet, _, _, rfl, rfl, hSame, rfl, rfl⟩

end Translator

end Criteria
