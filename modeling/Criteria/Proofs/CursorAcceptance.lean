import Criteria.Proofs.OrderGrouping

/-
  This file proves which cursors are accepted, by what they
  sort and why the others are refused.

  A cursor names one field besides the tiebreaker, which it
  may name too, or the tiebreaker alone. It is accepted if
  the fields it sorts by, of which the tiebreaker is the last
  in any case, are known and take their operands. The first
  of them that is refused is the error.

  Key definitions include:
    * `Json.CursorSorts`
    * `Translator.TakesKey`
    * `Translator.RefusesKey`

  Main statements:
    * `Json.cursorSorts_cases`
    * `Translator.exists_cursorKey_iff`
    * `Translator.cursorKey_eq_error_iff`
    * `Translator.cursorKeys_of_names`
    * `Translator.cursor_acceptance`
-/

------------------------------------------------------------
-- Fields of a Cursor
------------------------------------------------------------

namespace Criteria

namespace Json

/-
  The fields that a cursor sorts by, each with its operand.
  A tiebreaker that is not named has null.
-/
inductive CursorSorts
    (tiebreaker : String)
    (members : Members) : Members → Prop where
  | alone
      {operand : Json}
      (hOnly : ∀ member ∈ members, member.1 = tiebreaker)
      (hOperand :
        members.lookup tiebreaker = some operand) :
      CursorSorts tiebreaker members [(tiebreaker, operand)]
  | pair
      {name : String}
      {operand : Json}
      {before after : Members}
      (hName : name ≠ tiebreaker)
      (hMembers :
        members = before ++ (name, operand) :: after)
      (hOthers : ∀ member ∈ before ++ after,
        member.1 = tiebreaker) :
      CursorSorts tiebreaker members
        [(name, operand),
          (tiebreaker,
            (members.lookup tiebreaker).getD .null)]

variable {tiebreaker : String}
variable {members : Members}

/- A cursor names no field, too many, or sorts by some. -/
theorem cursorSorts_cases
    (tiebreaker : String)
    (members : Members) :
    members = [] ∨
    1 < members.countP (fun m => m.1 ≠ tiebreaker) ∨
    ∃ names, CursorSorts tiebreaker members names := by
  rw [List.countP_eq_length_filter]
  cases hOthers :
      members.filter fun m => m.1 ≠ tiebreaker with
  | nil =>
      have hOnly : ∀ m ∈ members, m.1 = tiebreaker := by
        simpa using List.filter_eq_nil_iff.mp hOthers
      cases members with
      | nil => exact .inl rfl
      | cons member rest =>
          rcases member with ⟨name, operand⟩
          cases hOnly _ List.mem_cons_self
          exact .inr (.inr ⟨_, .alone hOnly
            List.lookup_cons_self⟩)
  | cons member rest =>
      cases rest with
      | cons other rest =>
          exact .inr (.inl (by simp))
      | nil =>
          rcases member with ⟨name, operand⟩
          rcases List.filter_eq_cons_iff.mp hOthers with
            ⟨before, after, rfl, hBefore, hName, hAfter⟩
          have hAfter := List.filter_eq_nil_iff.mp hAfter
          refine .inr (.inr ⟨_, .pair (by simpa using hName)
            rfl ?_⟩)
          intro m hMember
          rcases List.mem_append.mp hMember with hIn | hIn
          · simpa using hBefore m hIn
          · simpa using hAfter m hIn

/- No field is named twice. -/
theorem CursorSorts.nodup
    {names : Members}
    (hNames : CursorSorts tiebreaker members names) :
    (names.map Prod.fst).Nodup := by
  cases hNames with
  | alone _ _ => exact List.nodup_singleton _
  | pair hName _ _ => simpa using hName

end Json

------------------------------------------------------------
-- Keys of a Cursor
------------------------------------------------------------

/- An operand that is not read names its operator. -/
theorem Coercion.error_scalar
    (op : String)
    (kind : Kind)
    (operand : Json) :
    Except.ErrorsAre
      (fun e => ∃ fault, e = .invalidOperand op fault)
      (scalar op kind operand) := by
  have hReadable : ∀ {α : Type} (text : String)
      (wrap : α → Value) (read : List Char → Option α),
      Except.ErrorsAre
        (fun e => ∃ fault, e = .invalidOperand op fault)
        (readable op kind text wrap read) := by
    intro α text wrap read
    unfold readable
    cases read text.toList with
    | some a => exact .ok _
    | none => exact .error ⟨_, rfl⟩
  unfold scalar
  split
  case h_2 =>
    split
    · exact .ok _
    · exact .error ⟨_, rfl⟩
  case h_11 => exact .error ⟨_, rfl⟩
  all_goals
    first
    | exact .ok _
    | exact hReadable _ _ _

namespace Translator

open Except Json

/- A known field takes null, and what its kind can read. -/
def TakesKey
    (t : Translator)
    (member : String × Json) : Prop :=
  ∃ field, t.schema.find? member.1 = some field ∧
    (member.2 = .null ∨
      ∃ value, Coercion.scalar "cursor" field.kind member.2 =
        .ok value)

/- Why a key is refused. -/
inductive RefusesKey
    (t : Translator) : String × Json → Error → Prop where
  | unknown
      {name : String}
      (operand : Json)
      (hField : t.schema.find? name = none) :
      RefusesKey t (name, operand) (.invalidField name)
  | operand
      {name : String}
      {operand : Json}
      {field : Field}
      {fault : OperandFault}
      (hField : t.schema.find? name = some field)
      (hPresent : operand ≠ .null)
      (hOperand :
        Coercion.scalar "cursor" field.kind operand =
          .error (.invalidOperand "cursor" fault)) :
      RefusesKey t (name, operand)
        (.invalidOperand "cursor" fault)

variable {t : Translator}
variable {keys : List SortKey}
variable {members names : Members}

theorem exists_cursorKey_iff
    (keys : List SortKey)
    {member : String × Json} :
    (∃ key, t.cursorKey keys member.1 member.2 = .ok key) ↔
      t.TakesKey member := by
  rcases member with ⟨name, operand⟩
  simp only [cursorKey_eq_ok_iff, Schema.resolve_eq_ok_iff,
    TakesKey]
  by_cases hNull : operand = .null
  · rw [hNull]
    simp [cursorValue?_null]
  · simp only [cursorValue?_of_ne hNull, map_eq_ok_iff,
      hNull, false_or]
    constructor
    · rintro ⟨_, field, _, hField, ⟨value, hValue, _⟩, _⟩
      exact ⟨field, hField, value, hValue⟩
    · rintro ⟨field, hField, value, hValue⟩
      exact ⟨_, field, _, hField, ⟨value, hValue, rfl⟩, rfl⟩

theorem cursorKey_eq_error_iff
    (keys : List SortKey)
    {member : String × Json}
    {e : Error} :
    t.cursorKey keys member.1 member.2 = .error e ↔
      t.RefusesKey member e := by
  rcases member with ⟨name, operand⟩
  constructor
  · intro hError
    rcases bind_eq_error_iff.mp hError with
      hField | ⟨field, hField, hRest⟩
    · rcases (Schema.resolve_eq_error_iff ..).mp hField with
        ⟨hMissing, rfl⟩
      exact .unknown operand hMissing
    · have hFound := (Schema.resolve_eq_ok_iff ..).mp hField
      rcases bind_eq_error_iff.mp hRest with
        hValue | ⟨_, _, hKey⟩
      · rcases cursorValue?_eq_error_iff.mp hValue with
          ⟨hPresent, hOperand⟩
        rcases Coercion.error_scalar _ _ _ e hOperand with
          ⟨fault, rfl⟩
        exact .operand hFound hPresent hOperand
      · cases hKey
  · intro hRefused
    cases hRefused with
    | unknown _ hField =>
        exact bind_eq_error_iff.mpr (.inl
          ((Schema.resolve_eq_error_iff ..).mpr
            ⟨hField, rfl⟩))
    | @operand _ _ field _ hField hPresent hOperand =>
        have hValue :=
          cursorValue?_eq_error_iff.mpr ⟨hPresent, hOperand⟩
        refine bind_eq_error_iff.mpr (.inr ⟨field,
          (Schema.resolve_eq_ok_iff ..).mpr hField, ?_⟩)
        exact bind_eq_error_iff.mpr (.inl hValue)

/- The tiebreaker alone is the first field. -/
theorem primaryMember_alone
    {tiebreaker : String}
    {operand : Json}
    (hOnly : ∀ member ∈ members, member.1 = tiebreaker)
    (hOperand : members.lookup tiebreaker = some operand) :
    primaryMember tiebreaker members =
      .ok (tiebreaker, operand) := by
  rw [NameMap.lookup_eq_find?] at hOperand
  rcases Option.map_eq_some_iff.mp hOperand with
    ⟨⟨name, _⟩, hFound, rfl⟩
  have hName : name = tiebreaker := by
    simpa using List.find?_some hFound
  rw [hName] at hFound
  refine primaryMember_eq_ok_iff.mpr (.inr ⟨?_, hFound⟩)
  simpa using hOnly

/- The one other field comes before the tiebreaker. -/
theorem primaryMember_pair
    {tiebreaker name : String}
    {operand : Json}
    {before after : Members}
    (hName : name ≠ tiebreaker)
    (hOthers : ∀ member ∈ before ++ after,
      member.1 = tiebreaker) :
    primaryMember tiebreaker
        (before ++ (name, operand) :: after) =
      .ok (name, operand) := by
  rw [List.forall_mem_append] at hOthers
  have hBefore :
      (before.filter fun m => m.1 ≠ tiebreaker) = [] := by
    simpa using hOthers.1
  have hAfter :
      (after.filter fun m => m.1 ≠ tiebreaker) = [] := by
    simpa using hOthers.2
  refine primaryMember_eq_ok_iff.mpr (.inl ?_)
  rw [List.filter_append, List.filter_cons, hBefore, hAfter,
    if_pos (by simpa using hName), List.nil_append]

/- Several other fields are too many. -/
theorem primaryMember_crowded
    {tiebreaker : String}
    (hOthers :
      1 < members.countP (fun m => m.1 ≠ tiebreaker)) :
    primaryMember tiebreaker members =
      .error (.unsupportedShape
        (.crowdedCursor tiebreaker)) := by
  rw [List.countP_eq_length_filter] at hOthers
  unfold primaryMember
  revert hOthers
  generalize (members.filter fun m => m.1 ≠ tiebreaker) =
    others
  intro hOthers
  match others with
  | [] => simp at hOthers
  | [_] => simp at hOthers
  | _ :: _ :: _ => rfl

/- A cursor has one key for each field that it sorts by. -/
theorem cursorKeys_of_names
    (keys : List SortKey)
    (hNames :
      CursorSorts t.settings.tiebreaker members names) :
    (fun pair => pair.1 :: pair.2.toList) <$>
        t.cursorKeys keys members =
      names.mapM fun member =>
        t.cursorKey keys member.1 member.2 := by
  simp only [cursorKeys]
  cases hNames with
  | @alone operand hOnly hOperand =>
      rw [primaryMember_alone hOnly hOperand]
      simp only [List.mapM_cons, List.mapM_nil, if_true, bind,
        Except.bind]
      cases t.cursorKey keys t.settings.tiebreaker operand <;>
        rfl
  | @pair name operand before after hName hMembers hOthers =>
      rw [hMembers, primaryMember_pair hName hOthers,
        ← hMembers]
      simp only [List.mapM_cons, List.mapM_nil, bind,
        Except.bind, if_neg hName]
      cases t.cursorKey keys name operand with
      | error e => rfl
      | ok primary =>
          dsimp only
          cases t.cursorKey keys t.settings.tiebreaker
            ((members.lookup
              t.settings.tiebreaker).getD .null) <;> rfl

theorem cursorKeys_nil (keys : List SortKey) :
    t.cursorKeys keys [] =
      .error (.unsupportedShape .emptyCursor) :=
  rfl

theorem cursorKeys_crowded
    (keys : List SortKey)
    (hOthers : 1 < members.countP
      (fun m => m.1 ≠ t.settings.tiebreaker)) :
    t.cursorKeys keys members =
      .error (.unsupportedShape
        (.crowdedCursor t.settings.tiebreaker)) := by
  simp only [cursorKeys, primaryMember_crowded hOthers]
  rfl

------------------------------------------------------------
-- Accepted Cursors
------------------------------------------------------------

/- A cursor is accepted where each field takes its operand. -/
theorem exists_cursorKeys_iff
    (keys : List SortKey) :
    (∃ pair, t.cursorKeys keys members = .ok pair) ↔
      ∃ names,
        CursorSorts t.settings.tiebreaker members names ∧
        ∀ member ∈ names, t.TakesKey member := by
  have hKeys : ∀ names,
      CursorSorts t.settings.tiebreaker members names →
        ((∃ pair, t.cursorKeys keys members = .ok pair) ↔
          ∀ member ∈ names, t.TakesKey member) := by
    intro names hNames
    simp only [← exists_cursorKey_iff keys]
    rw [← exists_mapM_eq_ok_iff,
      ← cursorKeys_of_names keys hNames]
    simp [map_eq_ok_iff]
  constructor
  · rintro ⟨pair, hPair⟩
    rcases cursorSorts_cases t.settings.tiebreaker members
      with rfl | hOthers | ⟨names, hNames⟩
    · cases hPair
    · rw [cursorKeys_crowded keys hOthers] at hPair
      cases hPair
    · exact ⟨names, hNames, (hKeys names hNames).mp
        ⟨pair, hPair⟩⟩
  · rintro ⟨names, hNames, hTaken⟩
    exact (hKeys names hNames).mpr hTaken

/- The first field that is refused is the error. -/
theorem cursorKeys_eq_error_iff
    (keys : List SortKey)
    {e : Error} :
    t.cursorKeys keys members = .error e ↔
      (members = [] ∧
        e = .unsupportedShape .emptyCursor) ∨
      (1 < members.countP
          (fun m => m.1 ≠ t.settings.tiebreaker) ∧
        e = .unsupportedShape
          (.crowdedCursor t.settings.tiebreaker)) ∨
      ∃ before member after,
        CursorSorts t.settings.tiebreaker members
          (before ++ member :: after) ∧
        (∀ other ∈ before, t.TakesKey other) ∧
        t.RefusesKey member e := by
  have hKeys : ∀ names,
      CursorSorts t.settings.tiebreaker members names →
        (t.cursorKeys keys members = .error e ↔
          ∃ before member after,
            names = before ++ member :: after ∧
            (∀ other ∈ before, t.TakesKey other) ∧
            t.RefusesKey member e) := by
    intro names hNames
    simp only [← exists_cursorKey_iff keys,
      ← cursorKey_eq_error_iff keys]
    rw [← mapM_eq_error_iff,
      ← cursorKeys_of_names keys hNames, map_eq_error_iff]
  constructor
  · intro hError
    rcases cursorSorts_cases t.settings.tiebreaker members
      with rfl | hOthers | ⟨names, hNames⟩
    · cases hError
      exact .inl ⟨rfl, rfl⟩
    · rw [cursorKeys_crowded keys hOthers] at hError
      cases hError
      exact .inr (.inl ⟨hOthers, rfl⟩)
    · rcases (hKeys names hNames).mp hError with
        ⟨before, member, after, rfl, hBefore, hMember⟩
      exact .inr (.inr ⟨before, member, after, hNames,
        hBefore, hMember⟩)
  · rintro (⟨rfl, rfl⟩ | ⟨hOthers, rfl⟩ |
      ⟨before, member, after, hNames, hBefore, hMember⟩)
    · exact cursorKeys_nil keys
    · exact cursorKeys_crowded keys hOthers
    · exact (hKeys _ hNames).mpr
        ⟨before, member, after, rfl, hBefore, hMember⟩

/- Rows are sorted by the fields of the keys as ordered. -/
theorem terms_of_cursorKeys
    {found : List Cursor.Key}
    (hFound :
      List.Forall₂
        (fun member key =>
          t.cursorKey keys member.1 member.2 = .ok key)
        names found) :
    found.map (fun key => key.term.field) =
      names.map Prod.fst ∧
    ∀ key ∈ found,
      SortKey.Directs (keys.map SortKey.entry)
        key.term.field key.term.direction ∧
      ∃ field, t.schema.find? key.term.field = some field ∧
        key.term.column = field.column := by
  induction hFound with
  | nil => simp
  | cons hFirst _ ih =>
      rcases cursorKey_eq_ok_iff.mp hFirst with
        ⟨field, _, hField, _, rfl⟩
      rw [List.forall_mem_cons, List.map_cons, List.map_cons,
        ih.1]
      refine ⟨rfl, ⟨SortKey.directs_directionIn keys _,
        field, ?_, rfl⟩, ih.2⟩
      exact (Schema.resolve_eq_ok_iff ..).mp hField

/- A cursor is applied to a query by its keys. -/
theorem applyCursor_some
    (keys : List SortKey)
    (members : Members)
    (q : Query) :
    t.applyCursor keys (some members) q =
      (fun pair => pagedQuery q pair.1 pair.2) <$>
        t.cursorKeys keys members := by
  simp only [applyCursor]
  cases t.cursorKeys keys members <;> rfl

/-
  Of a description whose other members translate, a cursor is
  accepted exactly if it names one field besides the
  tiebreaker or the tiebreaker alone, and each field it sorts
  by takes its operand. The rows are then sorted by these
  fields and no others, each in the direction that the first
  member of the order naming it gives. Otherwise the error is
  the number of fields, or else the first refusal.
-/
theorem cursor_acceptance
    (t : Translator)
    (levels : Nat)
    (d : Description)
    (q : Query)
    (hPlain :
      t.translateWithin levels { d with cursor := none } =
        .ok q)
    (members : Members) :
    ((∃ r, t.translateWithin levels
          { d with cursor := some members } = .ok r) ↔
      ∃ names,
        CursorSorts t.settings.tiebreaker members names ∧
        ∀ member ∈ names, t.TakesKey member) ∧
    (∀ r, t.translateWithin levels
          { d with cursor := some members } = .ok r →
      ∃ names,
        CursorSorts t.settings.tiebreaker members names ∧
        (names.map Prod.fst).Nodup ∧
        r.order.map SortTerm.field = names.map Prod.fst ∧
        ∀ term ∈ r.order,
          SortKey.Directs d.orderMembers term.field
            term.direction ∧
          ∃ field, t.schema.find? term.field = some field ∧
            term.column = field.column) ∧
    ∀ e, t.translateWithin levels
          { d with cursor := some members } = .error e ↔
      (members = [] ∧
        e = .unsupportedShape .emptyCursor) ∨
      (1 < members.countP
          (fun m => m.1 ≠ t.settings.tiebreaker) ∧
        e = .unsupportedShape
          (.crowdedCursor t.settings.tiebreaker)) ∨
      ∃ before member after,
        CursorSorts t.settings.tiebreaker members
          (before ++ member :: after) ∧
        (∀ other ∈ before, t.TakesKey other) ∧
        t.RefusesKey member e := by
  rcases translateWithin_plain hPlain with
    ⟨_, _, keys, hKeys, hApplied⟩
  rw [hApplied (some members), applyCursor_some]
  refine ⟨?_, ?_, ?_⟩
  · rw [← exists_cursorKeys_iff keys]
    simp [map_eq_ok_iff]
  · intro r hQuery
    rcases map_eq_ok_iff.mp hQuery with
      ⟨⟨primary, secondary⟩, hPair, rfl⟩
    rcases (exists_cursorKeys_iff keys).mp ⟨_, hPair⟩ with
      ⟨names, hNames, _⟩
    have hFound := cursorKeys_of_names keys hNames
    rw [hPair] at hFound
    rcases terms_of_cursorKeys (mapM_eq_ok_iff.mp hFound.symm)
      with ⟨hFields, hTerms⟩
    have hOrder :
        (pagedQuery q primary secondary).order =
          (primary :: secondary.toList).map
            Cursor.Key.term := by
      cases secondary <;> rfl
    rw [hOrder, Description.orderMembers_of_sortKeys hKeys]
    refine ⟨names, hNames, hNames.nodup, ?_, ?_⟩
    · rw [List.map_map]
      exact hFields
    · simpa using hTerms
  · intro e
    rw [map_eq_error_iff, cursorKeys_eq_error_iff]

/- Two rows by their views, which are given two directions. -/
def directedViews : Description :=
  { Description.empty with
    take := some 2
    orderBy := some (.sequence
      [[("views", .string "desc")],
        [("id", .string "asc"), ("views", .string "asc")]]) }

/- The same after the row with seven views. -/
def directedAfter (views : Json) : Description :=
  { directedViews with cursor := some [("views", views)] }

theorem cursor_acceptance_directedViews :
    ∃ q, viewsTranslator.translate directedViews = .ok q ∧
      (∃ r, viewsTranslator.translate
          (directedAfter (.number (.integer 7))) = .ok r ∧
        ∃ names,
          CursorSorts "id" [("views", .number (.integer 7))]
            names ∧
          r.order.map SortTerm.field =
            names.map Prod.fst ∧
          ∀ term ∈ r.order,
            SortKey.Directs directedViews.orderMembers
              term.field term.direction) ∧
      viewsTranslator.translate
          (directedAfter (.string "7")) =
        .error (.invalidOperand "cursor"
          (.mismatch .integer .string)) := by
  have hPlain : ∃ q,
      viewsTranslator.translate directedViews = .ok q :=
    ⟨_, rfl⟩
  rcases hPlain with ⟨q, hQuery⟩
  have hCursor := fun members =>
    viewsTranslator.cursor_acceptance 32 directedViews q
      hQuery members
  have hName : "views" ≠ "id" := by decide
  have hNames : ∀ operand : Json,
      CursorSorts "id" [("views", operand)]
        ([("views", operand), ("id", .null)]) :=
    fun operand =>
      @CursorSorts.pair _ _ "views" operand [] [] hName rfl
        (by simp)
  refine ⟨q, hQuery, ?_, ?_⟩
  · have hTaken : ∀ member ∈
        [("views", Json.number (.integer 7)), ("id", .null)],
        viewsTranslator.TakesKey member := by
      rw [List.forall_mem_cons, List.forall_mem_singleton]
      exact ⟨⟨_, rfl, .inr ⟨_, rfl⟩⟩, _, rfl, .inl rfl⟩
    rcases (hCursor _).1.mpr ⟨_, hNames _, hTaken⟩ with
      ⟨r, hPage⟩
    rcases (hCursor _).2.1 r hPage with
      ⟨names, hFields, _, hOrder, hTerms⟩
    exact ⟨r, hPage, names, hFields, hOrder,
      fun term hTerm => (hTerms term hTerm).1⟩
  · refine ((hCursor _).2.2 _).mpr (.inr (.inr
      ⟨[], _, [("id", .null)], hNames _, by simp, ?_⟩))
    exact .operand rfl (by simp) rfl

end Translator

end Criteria
