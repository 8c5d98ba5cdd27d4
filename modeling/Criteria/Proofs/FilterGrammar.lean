import Criteria.Filter
import Criteria.Proofs.Outcome

/-
  This file defines which values are filters, and which
  filter each of them is read as, and proves that reading
  accepts exactly these values and loses nothing of them.

  The grammar counts the levels of objects from one. Elements
  of an array are one level deeper, the array itself is not.

  Key definitions include:
    * `Filter.IsOperators`
    * `Filter.IsFilter`
    * `Filter.OperatorsReadAs`
    * `Filter.ReadsAs`

  Main statements:
    * `Filter.Operators.exists_ofMembers_iff`
    * `Filter.exists_ofMembers_iff`
    * `Filter.ofJson_grammar`
-/

------------------------------------------------------------
-- The Grammar
------------------------------------------------------------

namespace Criteria

/- Neither an array nor an object. -/
def Json.IsScalar : Json → Prop
  | .array _ => False
  | .object _ => False
  | _ => True

namespace Filter

/- A key that is not the word of a connective. -/
def IsFieldName (key : String) : Prop :=
  ∀ op : Connective, key ≠ op.word

/- An operator object at a depth. -/
inductive IsOperators (most : Nat) : Nat → Json → Prop where
  | object
      {depth : Nat}
      {members : Json.Members}
      (hDepth : depth ≤ most)
      (hMode : ∀ value,
        members.lookup MatchMode.key = some value →
          ∃ mode : MatchMode, value = .string mode.word)
      (hKeyword : ∀ key value, (key, value) ∈ members →
        key ≠ MatchMode.key →
          ∃ op : Operator, key = op.keyword)
      (hNested : ∀ inner,
        (Operator.not.keyword, .object inner) ∈ members →
          IsOperators most (depth + 1) (.object inner)) :
      IsOperators most depth (.object members)

mutual

/- A filter object at a depth. -/
inductive IsFilter (most : Nat) : Nat → Json → Prop where
  | object
      {depth : Nat}
      {members : Json.Members}
      (hDepth : depth ≤ most)
      (hEntries : ∀ key value, (key, value) ∈ members →
        IsEntry most depth key value) :
      IsFilter most depth (.object members)

/- A member of a filter object at a depth. -/
inductive IsEntry (most : Nat) :
    Nat → String → Json → Prop where
  | branch
      {depth : Nat}
      {value : Json}
      (op : Connective)
      (hValue : IsFilter most (depth + 1) value) :
      IsEntry most depth op.word value
  | branches
      {depth : Nat}
      {items : List Json}
      (op : Connective)
      (hItems : ∀ item ∈ items,
        IsFilter most (depth + 1) item) :
      IsEntry most depth op.word (.array items)
  | scalar
      {depth : Nat}
      {key : String}
      {value : Json}
      (hField : IsFieldName key)
      (hValue : value.IsScalar) :
      IsEntry most depth key value
  | operators
      {depth : Nat}
      {key : String}
      {value : Json}
      (hField : IsFieldName key)
      (hValue : IsOperators most (depth + 1) value) :
      IsEntry most depth key value

end

------------------------------------------------------------
-- What is Read
------------------------------------------------------------

mutual

/-
  An operator object read where a mode is inherited. A mode
  of its own comes first, wherever it stands.
-/
inductive OperatorsReadAs :
    MatchMode → Json → Operators → Prop where
  | declared
      {inherited mode : MatchMode}
      {members : Json.Members}
      {entries : List (Operator × Operand)}
      (hMode : members.lookup MatchMode.key =
        some (.string mode.word))
      (hEntries : OperandsReadAs mode members entries) :
      OperatorsReadAs inherited (.object members)
        ⟨mode, entries⟩
  | inherited
      {mode : MatchMode}
      {members : Json.Members}
      {entries : List (Operator × Operand)}
      (hMode : members.lookup MatchMode.key = none)
      (hEntries : OperandsReadAs mode members entries) :
      OperatorsReadAs mode (.object members) ⟨mode, entries⟩

/- One operator for each member but the mode, in order. -/
inductive OperandsReadAs :
    MatchMode → Json.Members → List (Operator × Operand) →
      Prop where
  | nil {mode : MatchMode} : OperandsReadAs mode [] []
  | mode
      {mode : MatchMode}
      {value : Json}
      {members : Json.Members}
      {entries : List (Operator × Operand)}
      (hRest : OperandsReadAs mode members entries) :
      OperandsReadAs mode ((MatchMode.key, value) :: members)
        entries
  | nested
      {mode : MatchMode}
      {inner : Json.Members}
      {operators : Operators}
      {members : Json.Members}
      {entries : List (Operator × Operand)}
      (hInner :
        OperatorsReadAs mode (.object inner) operators)
      (hRest : OperandsReadAs mode members entries) :
      OperandsReadAs mode
        ((Operator.not.keyword, .object inner) :: members)
        ((.not, .nested operators) :: entries)
  | value
      {mode : MatchMode}
      {op : Operator}
      {value : Json}
      {members : Json.Members}
      {entries : List (Operator × Operand)}
      (hPlain : ∀ inner, op = .not → value ≠ .object inner)
      (hRest : OperandsReadAs mode members entries) :
      OperandsReadAs mode ((op.keyword, value) :: members)
        ((op, .value value) :: entries)

end

mutual

/- A filter object, with one entry for each member. -/
inductive ReadsAs : Json → Filter → Prop where
  | object
      {members : Json.Members}
      {entries : List (Key × Content)}
      (hEntries :
        List.Forall₂ EntryReadsAs members entries) :
      ReadsAs (.object members) ⟨entries⟩

/- The form of a value decides what content it becomes. -/
inductive EntryReadsAs :
    String × Json → Key × Content → Prop where
  | null
      {name : String}
      (hField : IsFieldName name) :
      EntryReadsAs (name, .null) (.field name, .null)
  | literal
      {name : String}
      {value : Json}
      (hField : IsFieldName name)
      (hScalar : value.IsScalar)
      (hValue : value ≠ .null) :
      EntryReadsAs (name, value) (.field name, .literal value)
  | operators
      {name : String}
      {value : Json}
      {operators : Operators}
      (hField : IsFieldName name)
      (hValue : OperatorsReadAs .sensitive value operators) :
      EntryReadsAs (name, value)
        (.field name, .operators operators)
  | branch
      {op : Connective}
      {value : Json}
      {f : Filter}
      (hValue : ReadsAs value f) :
      EntryReadsAs (op.word, value)
        (.connective op, .branch f)
  | branches
      {op : Connective}
      {items : List Json}
      {filters : List Filter}
      (hItems : List.Forall₂ ReadsAs items filters) :
      EntryReadsAs (op.word, .array items)
        (.connective op, .branches filters)

end

end Filter

end Criteria

------------------------------------------------------------
-- Reading Operators
------------------------------------------------------------

namespace Criteria

namespace Filter

namespace Operators

open Except

theorem modeOf_eq_ok_iff
    (value : Json)
    (mode : MatchMode) :
    modeOf value = .ok mode ↔ value = .string mode.word := by
  unfold modeOf
  cases value with
  | string word =>
      have hWord := MatchMode.ofWord?_eq_some_iff word mode
      cases hMode : MatchMode.ofWord? word with
      | none => simp_all
      | some other => simp_all
  | _ => simp

/- A mode is declared or inherited. -/
theorem modeIn_eq_ok_iff
    (inherited mode : MatchMode)
    (members : Json.Members) :
    modeIn inherited members = .ok mode ↔
      members.lookup MatchMode.key =
          some (.string mode.word) ∨
        (members.lookup MatchMode.key = none ∧
          inherited = mode) := by
  unfold modeIn
  cases members.lookup MatchMode.key with
  | none => simp
  | some value => simp [modeOf_eq_ok_iff]

theorem exists_modeIn_iff
    (inherited : MatchMode)
    (members : Json.Members) :
    (∃ mode, modeIn inherited members = .ok mode) ↔
      ∀ value, members.lookup MatchMode.key = some value →
        ∃ mode : MatchMode, value = .string mode.word := by
  unfold modeIn
  cases members.lookup MatchMode.key with
  | none => simp
  | some value => simp [modeOf_eq_ok_iff]

variable (read : Json.Members → Except Error Operators)

theorem entryOf_nested (inner : Json.Members) :
    entryOf read (Operator.not.keyword, .object inner) =
      (fun operators => (.not, .nested operators)) <$>
        read inner := by
  unfold entryOf operatorOf
  rw [Operator.ofKeyword?_keyword]
  cases hRead : read inner <;>
    simp [bind, Except.bind, hRead, Functor.map, Except.map,
      pure, Except.pure]

theorem entryOf_value
    {op : Operator}
    {value : Json}
    (hPlain : ∀ inner, op = .not → value ≠ .object inner) :
    entryOf read (op.keyword, value) =
      .ok (op, .value value) := by
  unfold entryOf operatorOf
  rw [Operator.ofKeyword?_keyword]
  cases op with
  | not =>
      cases value with
      | object inner => exact absurd rfl (hPlain inner rfl)
      | _ => rfl
  | _ => rfl

/- A member becomes a nested object or a plain operand. -/
theorem entryOf_cases
    {key : String}
    {value : Json}
    {entry : Operator × Operand}
    (hEntry : entryOf read (key, value) = .ok entry) :
    (∃ inner operators,
      key = Operator.not.keyword ∧ value = .object inner ∧
      read inner = .ok operators ∧
      entry = (.not, .nested operators)) ∨
    (∃ op : Operator,
      key = op.keyword ∧
      (∀ inner, op = .not → value ≠ .object inner) ∧
      entry = (op, .value value)) := by
  cases hFound : Operator.ofKeyword? key with
  | none =>
      simp [entryOf, operatorOf, hFound, bind, Except.bind]
        at hEntry
  | some op =>
      rw [Operator.ofKeyword?_eq_some_iff] at hFound
      subst hFound
      by_cases hObject :
          ∃ inner, op = .not ∧ value = .object inner
      · rcases hObject with ⟨inner, rfl, rfl⟩
        rw [entryOf_nested, map_eq_ok_iff] at hEntry
        rcases hEntry with ⟨operators, hRead, rfl⟩
        exact .inl ⟨inner, operators, rfl, rfl, hRead, rfl⟩
      · have hPlain :
            ∀ inner, op = .not → value ≠ .object inner :=
          fun inner hNot hValue =>
            hObject ⟨inner, hNot, hValue⟩
        rw [entryOf_value read hPlain] at hEntry
        cases hEntry
        exact .inr ⟨op, rfl, hPlain, rfl⟩

/- Each member is an operator, and nested objects are read. -/
theorem exists_entryOf_iff
    (key : String)
    (value : Json) :
    (∃ entry, entryOf read (key, value) = .ok entry) ↔
      (∃ op : Operator, key = op.keyword) ∧
        ∀ inner, key = Operator.not.keyword →
          value = .object inner →
            ∃ operators, read inner = .ok operators := by
  constructor
  · rintro ⟨entry, hEntry⟩
    rcases entryOf_cases read hEntry with
      ⟨inner, operators, rfl, rfl, hRead, _⟩ |
        ⟨op, rfl, hPlain, _⟩
    · refine ⟨⟨.not, rfl⟩, ?_⟩
      intro other _ hOther
      cases hOther
      exact ⟨operators, hRead⟩
    · refine ⟨⟨op, rfl⟩, ?_⟩
      intro inner hKey hValue
      have hNot := Operator.keyword_injective hKey
      exact absurd hValue (hPlain inner hNot)
  · rintro ⟨⟨op, rfl⟩, hInner⟩
    by_cases hObject :
        ∃ inner, op = .not ∧ value = .object inner
    · rcases hObject with ⟨inner, rfl, rfl⟩
      rcases hInner inner rfl rfl with ⟨operators, hRead⟩
      rw [entryOf_nested, hRead]
      exact ⟨_, rfl⟩
    · have hPlain :
          ∀ inner, op = .not → value ≠ .object inner :=
        fun inner hNot hValue => hObject ⟨inner, hNot, hValue⟩
      exact ⟨_, entryOf_value read hPlain⟩

theorem mem_operatorMembers_iff
    {members : Json.Members}
    {key : String}
    {value : Json} :
    (key, value) ∈ operatorMembers members ↔
      (key, value) ∈ members ∧ key ≠ MatchMode.key := by
  simp [operatorMembers]

theorem exists_ofMembers_succ_iff
    (most levels : Nat)
    (inherited : MatchMode)
    (members : Json.Members) :
    (∃ operators,
      ofMembers most (levels + 1) inherited members =
        .ok operators) ↔
      ∃ mode, modeIn inherited members = .ok mode ∧
        ∀ member ∈ operatorMembers members,
          ∃ entry, entryOf (ofMembers most levels mode)
            member = .ok entry := by
  unfold ofMembers
  simp only [bind_eq_ok_iff]
  constructor
  · rintro ⟨_, mode, hMode, entries, hEntries, _⟩
    exact ⟨mode, hMode,
      exists_mapM_eq_ok_iff.mp ⟨entries, hEntries⟩⟩
  · rintro ⟨mode, hMode, hMembers⟩
    rcases exists_mapM_eq_ok_iff.mpr hMembers with
      ⟨entries, hEntries⟩
    exact ⟨_, mode, hMode, entries, hEntries, rfl⟩

/- Exactly the operator objects are read. -/
theorem exists_ofMembers_iff
    (most : Nat) :
    ∀ (levels depth : Nat) (inherited : MatchMode)
      (members : Json.Members),
    depth + levels = most + 1 →
      ((∃ operators,
        ofMembers most levels inherited members =
          .ok operators) ↔
        IsOperators most depth (.object members)) := by
  intro levels
  induction levels with
  | zero =>
      intro depth inherited members hDepth
      constructor
      · rintro ⟨operators, hRead⟩
        cases hRead
      · intro hOperators
        cases hOperators
        omega
  | succ levels ih =>
      intro depth inherited members hDepth
      have hInner : (depth + 1) + levels = most + 1 := by
        omega
      rw [exists_ofMembers_succ_iff]
      constructor
      · rintro ⟨mode, hMode, hMembers⟩
        have hEntry : ∀ key value,
            (key, value) ∈ members → key ≠ MatchMode.key →
              ∃ entry, entryOf (ofMembers most levels mode)
                (key, value) = .ok entry := by
          intro key value hMember hKey
          exact hMembers _
            (mem_operatorMembers_iff.mpr ⟨hMember, hKey⟩)
        refine .object (by omega)
          ((exists_modeIn_iff inherited members).mp
            ⟨mode, hMode⟩) ?_ ?_
        · intro key value hMember hKey
          exact ((exists_entryOf_iff _ key value).mp
            (hEntry key value hMember hKey)).1
        · intro inner hMember
          have hRead := ((exists_entryOf_iff _ _ _).mp
            (hEntry _ _ hMember (by decide))).2
              inner rfl rfl
          exact (ih (depth + 1) mode inner hInner).mp hRead
      · intro hOperators
        cases hOperators with
        | object _ hMode hKeyword hNested =>
            rcases (exists_modeIn_iff inherited members).mpr
                hMode with
              ⟨mode, hRead⟩
            refine ⟨mode, hRead, ?_⟩
            rintro ⟨key, value⟩ hMember
            rcases mem_operatorMembers_iff.mp hMember with
              ⟨hMember, hKey⟩
            rw [exists_entryOf_iff]
            refine ⟨hKeyword key value hMember hKey, ?_⟩
            rintro inner rfl rfl
            exact (ih (depth + 1) mode inner hInner).mpr
              (hNested inner hMember)

/- What is read mirrors the members one by one. -/
theorem operandsReadAs_of_forall₂
    {mode : MatchMode}
    {members : Json.Members}
    {entries : List (Operator × Operand)}
    (hRead : ∀ inner operators,
      read inner = .ok operators →
        OperatorsReadAs mode (.object inner) operators)
    (hEntries :
      List.Forall₂
        (fun member entry => entryOf read member = .ok entry)
        (operatorMembers members) entries) :
    OperandsReadAs mode members entries := by
  induction members generalizing entries with
  | nil =>
      cases hEntries
      exact .nil
  | cons member members ih =>
      rcases member with ⟨key, value⟩
      by_cases hKey : key = MatchMode.key
      · subst hKey
        exact .mode (ih (by
          simpa [operatorMembers] using hEntries))
      · have hSplit :
            operatorMembers ((key, value) :: members) =
              (key, value) :: operatorMembers members := by
          simp [operatorMembers, hKey]
        rw [hSplit] at hEntries
        cases hEntries with
        | cons hHead hRest =>
            rcases entryOf_cases read hHead with
              ⟨inner, operators, rfl, rfl, hInner, rfl⟩ |
                ⟨op, rfl, hPlain, rfl⟩
            · exact .nested (hRead inner operators hInner)
                (ih hRest)
            · exact .value hPlain (ih hRest)

theorem readsAs_ofMembers
    (most : Nat) :
    ∀ (levels : Nat) (inherited : MatchMode)
      (members : Json.Members) (operators : Operators),
    ofMembers most levels inherited members =
        .ok operators →
      OperatorsReadAs inherited (.object members)
        operators := by
  intro levels
  induction levels with
  | zero =>
      intro inherited members operators hRead
      cases hRead
  | succ levels ih =>
      intro inherited members operators hRead
      unfold ofMembers at hRead
      rcases bind_eq_ok_iff.mp hRead with
        ⟨mode, hMode, hRest⟩
      rcases bind_eq_ok_iff.mp hRest with
        ⟨entries, hEntries, hAll⟩
      cases hAll
      have hOperands : OperandsReadAs mode members entries :=
        operandsReadAs_of_forall₂ _
          (fun inner operators hInner =>
            ih mode inner operators hInner)
          (mapM_eq_ok_iff.mp hEntries)
      rcases (modeIn_eq_ok_iff _ _ _).mp hMode with
        hDeclared | ⟨hNone, rfl⟩
      · exact .declared hDeclared hOperands
      · exact .inherited hNone hOperands

end Operators

end Filter

end Criteria

------------------------------------------------------------
-- Reading Filters
------------------------------------------------------------

namespace Criteria

namespace Filter

open Except

/- A key is a field name or the word of one connective. -/
theorem isFieldName_iff (key : String) :
    IsFieldName key ↔ Connective.ofWord? key = none := by
  rw [Option.eq_none_iff_forall_ne_some]
  constructor
  · intro hField op hWord
    exact hField op
      ((Connective.ofWord?_eq_some_iff key op).mp hWord)
  · intro hNone op hKey
    exact hNone op
      ((Connective.ofWord?_eq_some_iff key op).mpr hKey)

section Entries

variable (readOperators :
  Json.Members → Except Error Operators)
variable (readFilter : Json.Members → Except Error Filter)

theorem entryOf_connective
    (op : Connective)
    (value : Json) :
    entryOf readOperators readFilter (op.word, value) =
      (fun content => (.connective op, content)) <$>
        connectiveContent readFilter op value := by
  simp [entryOf, Connective.ofWord?_word]

theorem entryOf_field
    {key : String}
    (hField : IsFieldName key)
    (value : Json) :
    entryOf readOperators readFilter (key, value) =
      (fun content => (.field key, content)) <$>
        fieldContent readOperators key value := by
  rw [isFieldName_iff] at hField
  simp [entryOf, hField]

theorem element_eq_ok_iff
    (op : Connective)
    (item : Json)
    (f : Filter) :
    element readFilter op item = .ok f ↔
      ∃ inner, item = .object inner ∧
        readFilter inner = .ok f := by
  cases item <;> simp [element]

/- The content of a connective is an array or an object. -/
theorem connectiveContent_eq_ok_iff
    (op : Connective)
    (value : Json)
    (content : Content) :
    connectiveContent readFilter op value = .ok content ↔
      (∃ items filters, value = .array items ∧
        items.mapM (element readFilter op) = .ok filters ∧
        content = .branches filters) ∨
      (∃ inner f, value = .object inner ∧
        readFilter inner = .ok f ∧
        content = .branch f) := by
  unfold connectiveContent
  cases value with
  | array items =>
      simp [map_eq_ok_iff, eq_comm (a := content)]
  | object inner =>
      simp [map_eq_ok_iff, eq_comm (a := content)]
  | _ => simp

/- The content of a field is anything but an array. -/
theorem fieldContent_eq_ok_iff
    (name : String)
    (value : Json)
    (content : Content) :
    fieldContent readOperators name value = .ok content ↔
      (∃ inner operators, value = .object inner ∧
        readOperators inner = .ok operators ∧
        content = .operators operators) ∨
      (value = .null ∧ content = .null) ∨
      (value.IsScalar ∧ value ≠ .null ∧
        content = .literal value) := by
  unfold fieldContent
  cases value with
  | object inner =>
      simp [map_eq_ok_iff, Json.IsScalar,
        eq_comm (a := content)]
  | _ => simp [Json.IsScalar, eq_comm (a := content)]

/- A member becomes an entry in one of five ways. -/
theorem entryOf_cases
    {key : String}
    {value : Json}
    {entry : Key × Content}
    (hEntry :
      entryOf readOperators readFilter (key, value) =
        .ok entry) :
    (∃ op items filters,
      key = Connective.word op ∧ value = .array items ∧
      items.mapM (element readFilter op) = .ok filters ∧
      entry = (.connective op, .branches filters)) ∨
    (∃ op inner f,
      key = Connective.word op ∧ value = .object inner ∧
      readFilter inner = .ok f ∧
      entry = (.connective op, .branch f)) ∨
    IsFieldName key ∧
      ((∃ inner operators,
        value = .object inner ∧
        readOperators inner = .ok operators ∧
        entry = (.field key, .operators operators)) ∨
      (value = .null ∧ entry = (.field key, .null)) ∨
      (value.IsScalar ∧ value ≠ .null ∧
        entry = (.field key, .literal value))) := by
  cases hWord : Connective.ofWord? key with
  | some op =>
      rw [Connective.ofWord?_eq_some_iff] at hWord
      subst hWord
      rw [entryOf_connective, map_eq_ok_iff] at hEntry
      rcases hEntry with ⟨content, hContent, rfl⟩
      rcases (connectiveContent_eq_ok_iff _ _ _ _).mp
          hContent with
        ⟨items, filters, rfl, hItems, rfl⟩ |
          ⟨inner, f, rfl, hRead, rfl⟩
      · exact .inl ⟨op, items, filters, rfl, rfl, hItems, rfl⟩
      · exact .inr
          (.inl ⟨op, inner, f, rfl, rfl, hRead, rfl⟩)
  | none =>
      have hField := (isFieldName_iff key).mpr hWord
      rw [entryOf_field _ _ hField, map_eq_ok_iff] at hEntry
      rcases hEntry with ⟨content, hContent, rfl⟩
      refine .inr (.inr ⟨hField, ?_⟩)
      rcases (fieldContent_eq_ok_iff _ _ _ _).mp
          hContent with
        ⟨inner, operators, rfl, hRead, rfl⟩ | ⟨rfl, rfl⟩ |
          ⟨hScalar, hNotNull, rfl⟩
      · exact .inl ⟨inner, operators, rfl, hRead, rfl⟩
      · exact .inr (.inl ⟨rfl, rfl⟩)
      · exact .inr (.inr ⟨hScalar, hNotNull, rfl⟩)

variable {most depth : Nat}

/- Elements that are filters are read. -/
theorem exists_element_iff
    (hFilter : ∀ inner,
      (∃ f, readFilter inner = .ok f) ↔
        IsFilter most (depth + 1) (.object inner))
    (op : Connective)
    (item : Json) :
    (∃ f, element readFilter op item = .ok f) ↔
      IsFilter most (depth + 1) item := by
  simp only [element_eq_ok_iff]
  constructor
  · rintro ⟨f, inner, rfl, hRead⟩
    exact (hFilter inner).mp ⟨f, hRead⟩
  · intro hItem
    cases hItem with
    | @object _ inner hDepth hEntries =>
        rcases (hFilter inner).mpr
            (.object hDepth hEntries) with
          ⟨f, hRead⟩
        exact ⟨f, inner, rfl, hRead⟩

/- Every entry of the grammar is read. -/
theorem exists_entryOf_of_isEntry
    (hOperators : ∀ inner,
      (∃ operators, readOperators inner = .ok operators) ↔
        IsOperators most (depth + 1) (.object inner))
    (hFilter : ∀ inner,
      (∃ f, readFilter inner = .ok f) ↔
        IsFilter most (depth + 1) (.object inner))
    {key : String}
    {value : Json}
    (hEntry : IsEntry most depth key value) :
    ∃ entry, entryOf readOperators readFilter (key, value) =
      .ok entry := by
  cases hEntry with
  | branch op hValue =>
      cases hValue with
      | @object _ inner hDepth hEntries =>
          rcases (hFilter inner).mpr
              (.object hDepth hEntries) with
            ⟨f, hRead⟩
          rw [entryOf_connective, connectiveContent, hRead]
          exact ⟨_, rfl⟩
  | branches op hItems =>
      have hEach : ∀ item ∈ _,
          ∃ f, element readFilter op item = .ok f :=
        fun item hItem =>
          (exists_element_iff readFilter hFilter op item).mpr
            (hItems item hItem)
      rcases exists_mapM_eq_ok_iff.mpr hEach with
        ⟨filters, hRead⟩
      rw [entryOf_connective, connectiveContent, hRead]
      exact ⟨_, rfl⟩
  | scalar hField hValue =>
      rw [entryOf_field _ _ hField]
      cases value with
      | array items => cases hValue
      | object members => cases hValue
      | _ => exact ⟨_, rfl⟩
  | operators hField hValue =>
      cases hValue with
      | @object _ inner hDepth hMode hKeyword hNested =>
          rcases (hOperators inner).mpr
              (.object hDepth hMode hKeyword hNested) with
            ⟨operators, hRead⟩
          rw [entryOf_field _ _ hField, fieldContent, hRead]
          exact ⟨_, rfl⟩

/- Exactly the entries of the grammar are read. -/
theorem exists_entryOf_iff
    (hOperators : ∀ inner,
      (∃ operators, readOperators inner = .ok operators) ↔
        IsOperators most (depth + 1) (.object inner))
    (hFilter : ∀ inner,
      (∃ f, readFilter inner = .ok f) ↔
        IsFilter most (depth + 1) (.object inner))
    (key : String)
    (value : Json) :
    (∃ entry, entryOf readOperators readFilter (key, value) =
        .ok entry) ↔
      IsEntry most depth key value := by
  constructor
  · rintro ⟨entry, hEntry⟩
    rcases entryOf_cases _ _ hEntry with
      ⟨op, items, filters, rfl, rfl, hItems, _⟩ |
        ⟨op, inner, f, rfl, rfl, hRead, _⟩ |
          ⟨hField, hValue⟩
    · have hEach :=
        exists_mapM_eq_ok_iff.mp ⟨filters, hItems⟩
      exact .branches op fun item hItem =>
        (exists_element_iff readFilter hFilter op item).mp
          (hEach item hItem)
    · exact .branch op ((hFilter inner).mp ⟨f, hRead⟩)
    · rcases hValue with
        ⟨inner, operators, rfl, hRead, _⟩ | ⟨rfl, _⟩ |
          ⟨hScalar, _, _⟩
      · exact .operators hField
          ((hOperators inner).mp ⟨operators, hRead⟩)
      · exact .scalar hField trivial
      · exact .scalar hField hScalar
  · exact exists_entryOf_of_isEntry _ _ hOperators hFilter

/- An entry keeps what the value of its member says. -/
theorem entryReadsAs_of_entryOf
    (hOperators : ∀ inner operators,
      readOperators inner = .ok operators →
        OperatorsReadAs .sensitive (.object inner) operators)
    (hFilter : ∀ inner f, readFilter inner = .ok f →
      ReadsAs (.object inner) f)
    {key : String}
    {value : Json}
    {entry : Key × Content}
    (hEntry :
      entryOf readOperators readFilter (key, value) =
        .ok entry) :
    EntryReadsAs (key, value) entry := by
  rcases entryOf_cases _ _ hEntry with
    ⟨op, items, filters, rfl, rfl, hItems, rfl⟩ |
      ⟨op, inner, f, rfl, rfl, hRead, rfl⟩ |
        ⟨hField, hValue⟩
  · refine .branches ((mapM_eq_ok_iff.mp hItems).imp ?_)
    intro item f hItem
    rcases (element_eq_ok_iff _ _ _ _).mp hItem with
      ⟨inner, rfl, hRead⟩
    exact hFilter inner f hRead
  · exact .branch (hFilter inner f hRead)
  · rcases hValue with
      ⟨inner, operators, rfl, hRead, rfl⟩ | ⟨rfl, rfl⟩ |
        ⟨hScalar, hNotNull, rfl⟩
    · exact .operators hField
        (hOperators inner operators hRead)
    · exact .null hField
    · exact .literal hField hScalar hNotNull

end Entries

theorem ofMembers_succ_eq_ok_iff
    (most levels : Nat)
    (members : Json.Members)
    (f : Filter) :
    ofMembers most (levels + 1) members = .ok f ↔
      members.mapM
          (entryOf (Operators.ofMembers most levels .sensitive)
            (ofMembers most levels)) =
        .ok f.entries := by
  rcases f with ⟨entries⟩
  simp [ofMembers, map_eq_ok_iff]

/- Exactly the filter objects are read. -/
theorem exists_ofMembers_iff
    (most : Nat) :
    ∀ (levels depth : Nat) (members : Json.Members),
    depth + levels = most + 1 →
      ((∃ f, ofMembers most levels members = .ok f) ↔
        IsFilter most depth (.object members)) := by
  intro levels
  induction levels with
  | zero =>
      intro depth members hDepth
      constructor
      · rintro ⟨f, hRead⟩
        cases hRead
      · intro hFilter
        cases hFilter
        omega
  | succ levels ih =>
      intro depth members hDepth
      have hInner : (depth + 1) + levels = most + 1 := by
        omega
      have hEntry : ∀ key value,
          (∃ entry,
            entryOf
                (Operators.ofMembers most levels .sensitive)
                (ofMembers most levels) (key, value) =
              .ok entry) ↔
            IsEntry most depth key value :=
        exists_entryOf_iff _ _
          (fun inner =>
            Operators.exists_ofMembers_iff most levels
              (depth + 1) .sensitive inner hInner)
          (fun inner => ih (depth + 1) inner hInner)
      simp only [ofMembers_succ_eq_ok_iff]
      constructor
      · rintro ⟨f, hRead⟩
        have hEach :=
          exists_mapM_eq_ok_iff.mp ⟨f.entries, hRead⟩
        refine .object (by omega) ?_
        intro key value hMember
        exact (hEntry key value).mp (hEach _ hMember)
      · intro hFilter
        cases hFilter with
        | object _ hEntries =>
            have hEach : ∀ member ∈ members,
                ∃ entry,
                  entryOf
                      (Operators.ofMembers most levels
                        .sensitive)
                      (ofMembers most levels) member =
                    .ok entry := by
              rintro ⟨key, value⟩ hMember
              exact (hEntry key value).mpr
                (hEntries key value hMember)
            rcases exists_mapM_eq_ok_iff.mpr hEach with
              ⟨entries, hRead⟩
            exact ⟨⟨entries⟩, hRead⟩

theorem readsAs_ofMembers
    (most : Nat) :
    ∀ (levels : Nat) (members : Json.Members) (f : Filter),
    ofMembers most levels members = .ok f →
      ReadsAs (.object members) f := by
  intro levels
  induction levels with
  | zero =>
      intro members f hRead
      cases hRead
  | succ levels ih =>
      intro members f hRead
      rw [ofMembers_succ_eq_ok_iff] at hRead
      rcases f with ⟨entries⟩
      refine .object ((mapM_eq_ok_iff.mp hRead).imp ?_)
      rintro ⟨key, value⟩ entry hEntry
      exact entryReadsAs_of_entryOf _ _
        (Operators.readsAs_ofMembers most levels .sensitive)
        ih hEntry

/-
  Reading accepts exactly the filters of the grammar, and
  what it gives is the filter that the value is read as.
-/
theorem ofJson_grammar
    (most : Nat)
    (value : Json) :
    ((∃ f, ofJson most value = .ok f) ↔
      IsFilter most 1 value) ∧
    ∀ f, ofJson most value = .ok f → ReadsAs value f := by
  cases value with
  | object members =>
      exact
        ⟨exists_ofMembers_iff most most 1 members (by omega),
          readsAs_ofMembers most most members⟩
  | _ =>
      refine ⟨⟨?_, ?_⟩, ?_⟩
      · rintro ⟨f, hRead⟩
        cases hRead
      · intro hFilter
        cases hFilter
      · intro f hRead
        cases hRead

/- Four levels, with a mode that the lowest one inherits. -/
def fourLevels : Json :=
  .object
    [("AND", .array
      [.object
        [("title", .object
          [("not", .object [("contains", .string "x")]),
            ("mode", .string "insensitive")])],
        .object []]),
      ("views", .number (.integer 3)), ("score", .null)]

theorem ofJson_grammar_fourLevels :
    IsFilter 4 1 fourLevels ∧ ¬ IsFilter 3 1 fourLevels ∧
    ofJson 4 fourLevels =
      .ok ⟨[(.connective .and, .branches
          [⟨[(.field "title", .operators ⟨.insensitive,
            [(.not, .nested ⟨.insensitive,
              [(.contains, .value (.string "x"))]⟩)]⟩)]⟩,
            ⟨[]⟩]),
        (.field "views", .literal (.number (.integer 3))),
        (.field "score", .null)]⟩ ∧
    ∃ f, ReadsAs fourLevels f := by
  refine ⟨?_, ?_, rfl, ?_⟩
  · exact (ofJson_grammar 4 fourLevels).1.mp ⟨_, rfl⟩
  · intro hFilter
    rcases (ofJson_grammar 3 fourLevels).1.mpr hFilter with
      ⟨f, hRead⟩
    have hRefused :
        ofJson 3 fourLevels = .error (.nestingTooDeep 3) :=
      rfl
    rw [hRefused] at hRead
    cases hRead
  · exact ⟨_, (ofJson_grammar 4 fourLevels).2 _ rfl⟩

end Filter

end Criteria
