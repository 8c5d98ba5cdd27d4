import Criteria.Proofs.DescriptionRoundTrip
import Criteria.Proofs.TranslationSteps

/-
  This file proves that it does not matter how sort keys are
  grouped into objects.

  A sort order is one object or an array of objects, empty
  ones included. Only the members of all of them count, in
  their order: each is one key, and the first without a
  direction is the error. So descriptions that differ in how
  orders are grouped, at any depth, translate alike. Within
  one order, a direction that cannot be read is reported
  before a field that is not known, wherever they stand.

  Key definitions include:
    * `OrderBy.objects`
    * `Json.DescriptionRegrouped`
    * `Description.Regrouped`

  Main statements:
    * `OrderBy.keys_by_object`
    * `Description.agree_ofJson`
    * `Translator.translateWithin_of_regrouped`
    * `Translator.translateWithin_of_unsorted`
    * `Translator.grouping_irrelevant`
-/

------------------------------------------------------------
-- Reading Orders by Object
------------------------------------------------------------

namespace Criteria

open Except

namespace OrderBy

/- The objects that an order is made of. -/
def objects : OrderBy → List Json.Members
  | .single members => [members]
  | .sequence items => items

theorem members_eq_flatten (order : OrderBy) :
    order.members = order.objects.flatten := by
  cases order with
  | single members => exact (List.flatten_singleton).symm
  | sequence items => rfl

/- The objects can be read one after the other. -/
theorem keys_by_object (order : OrderBy) :
    order.keys =
      List.flatten <$>
        order.objects.mapM SortKey.ofMembers := by
  rw [keys, members_eq_flatten]
  exact mapM_flatten SortKey.ofMember order.objects

end OrderBy

end Criteria

------------------------------------------------------------
-- Descriptions Grouped Otherwise
------------------------------------------------------------

namespace Criteria

open Description

namespace Json

mutual

/-
  Descriptions with the same sort orders grouped otherwise,
  by name or by position.
-/
inductive DescriptionRegrouped : Json → Json → Prop where
  | named
      {members others : Members}
      (hMembers :
        List.Forall₂ NamedRegrouped members others) :
      DescriptionRegrouped (.object members)
        (.object others)
  | placed
      {items others : List Json}
      (hLength : items.length = others.length)
      (hItems :
        List.Forall₂ PlacedRegrouped (Member.all.zip items)
          (Member.all.zip others)) :
      DescriptionRegrouped (.array items) (.array others)

/- A member of a description, or another named value. -/
inductive NamedRegrouped :
    String × Json → String × Json → Prop where
  | same (entry : String × Json) : NamedRegrouped entry entry
  | member
      {v w : Json}
      (member : Member)
      (hValue : MemberRegrouped member v w) :
      NamedRegrouped (member.name, v) (member.name, w)

/- A member of a description in its place. -/
inductive PlacedRegrouped :
    Member × Json → Member × Json → Prop where
  | member
      {v w : Json}
      (member : Member)
      (hValue : MemberRegrouped member v w) :
      PlacedRegrouped (member, v) (member, w)

/- What a member holds, with the same keys in its orders. -/
inductive MemberRegrouped : Member → Json → Json → Prop where
  | same (member : Member) (value : Json) :
      MemberRegrouped member value value
  | orderBy
      {order other : OrderBy}
      (hMembers : order.members = other.members) :
      MemberRegrouped .orderBy (orderByJson order)
        (orderByJson other)
  | relations
      {members others : Members}
      (hRelations :
        List.Forall₂ RelationRegrouped members others) :
      MemberRegrouped .relations (.object members)
        (.object others)

/- A relation, which is a description or stays as it is. -/
inductive RelationRegrouped :
    String × Json → String × Json → Prop where
  | same (entry : String × Json) :
      RelationRegrouped entry entry
  | description
      {members others : Members}
      (name : String)
      (hMembers :
        List.Forall₂ NamedRegrouped members others) :
      RelationRegrouped (name, .object members)
        (name, .object others)

end

end Json

/- Descriptions that are the same but for how keys group. -/
structure Description.Regrouped
    (d e : Description) : Prop where
  filter : d.filter = e.filter
  relations :
    Option.Rel (List.Forall₂ Json.RelationRegrouped)
      d.relations e.relations
  selection : d.selection = e.selection
  take : d.take = e.take
  skip : d.skip = e.skip
  orderBy :
    Option.Rel
      (fun order other => order.members = other.members)
      d.orderBy e.orderBy
  cursor : d.cursor = e.cursor

end Criteria

------------------------------------------------------------
-- Reading Descriptions
------------------------------------------------------------

namespace Criteria

namespace Description

open Except Json

theorem forall₂_relation_refl (members : Members) :
    List.Forall₂ RelationRegrouped members members :=
  List.forall₂_same.mpr fun entry _ => .same entry

theorem Regrouped.refl (d : Description) :
    d.Regrouped d where
  filter := rfl
  relations := by
    cases d.relations with
    | none => exact .none
    | some members =>
        exact .some (forall₂_relation_refl members)
  selection := rfl
  take := rfl
  skip := rfl
  orderBy := by
    cases d.orderBy with
    | none => exact .none
    | some order => exact .some rfl
  cursor := rfl

variable {d e : Description}

/- The same value is set in both. -/
theorem agree_setMember_same
    (hSame : d.Regrouped e)
    (member : Member)
    (value : Json) :
    Agree Regrouped (d.setMember member value)
      (e.setMember member value) := by
  by_cases hNull : value = .null
  · rw [hNull]
    exact .ok hSame
  · rw [setMember_of_ne hNull, setMember_of_ne hNull]
    cases member with
    | filter =>
        exact (Agree.refl _ fun _ _ => rfl).map
          fun _ _ hValue =>
            { hSame with filter := congrArg some hValue }
    | relations =>
        exact (Agree.refl _ fun _ _ => rfl).map
          fun members _ hValue =>
            { hSame with
              relations := hValue ▸
                .some (forall₂_relation_refl members) }
    | selection =>
        exact (Agree.refl _ fun _ _ => rfl).map
          fun _ _ hValue =>
            { hSame with selection := congrArg some hValue }
    | take =>
        exact (Agree.refl _ fun _ _ => rfl).map
          fun _ _ hValue =>
            { hSame with take := congrArg some hValue }
    | skip =>
        exact (Agree.refl _ fun _ _ => rfl).map
          fun _ _ hValue =>
            { hSame with skip := congrArg some hValue }
    | orderBy =>
        exact (Agree.refl _ fun _ _ => rfl).map
          fun _ _ hValue =>
            { hSame with
              orderBy :=
                .some (congrArg OrderBy.members hValue) }
    | cursor =>
        exact (Agree.refl _ fun _ _ => rfl).map
          fun _ _ hValue =>
            { hSame with cursor := congrArg some hValue }

theorem agree_setMember
    (hSame : d.Regrouped e)
    {member : Member}
    {v w : Json}
    (hValue : MemberRegrouped member v w) :
    Agree Regrouped (d.setMember member v)
      (e.setMember member w) := by
  have hPresent : ∀ order : OrderBy,
      orderByJson order ≠ .null := by
    intro order
    cases order <;> simp [orderByJson]
  cases hValue with
  | same => exact agree_setMember_same hSame member v
  | @orderBy order other hMembers =>
      rw [setMember_of_ne (hPresent order),
        setMember_of_ne (hPresent other)]
      simp only [readOrderBy_orderByJson]
      exact .ok { hSame with orderBy := .some hMembers }
  | relations hRelations =>
      exact .ok { hSame with relations := .some hRelations }

theorem agree_setNamed
    (hSame : d.Regrouped e)
    {entry other : String × Json}
    (hNamed : NamedRegrouped entry other) :
    Agree Regrouped (d.setNamed entry)
      (e.setNamed other) := by
  have hMember : ∀ (member : Member) (v w : Json),
      MemberRegrouped member v w →
        Agree Regrouped (d.setNamed (member.name, v))
          (e.setNamed (member.name, w)) := by
    intro member v w hValue
    unfold setNamed
    rw [Member.ofName?_name]
    exact agree_setMember hSame hValue
  cases hNamed with
  | same =>
      rcases entry with ⟨name, value⟩
      cases hName : Member.ofName? name with
      | none =>
          unfold setNamed
          simp only [hName]
          exact .error _
      | some member =>
          rw [(Member.ofName?_eq_some_iff name member).mp
            hName]
          exact hMember member value value (.same _ _)
  | member member hValue => exact hMember member _ _ hValue

theorem agree_ofMembers
    {members others : Members}
    (hMembers : List.Forall₂ NamedRegrouped members others) :
    Agree Regrouped (ofMembers members)
      (ofMembers others) :=
  Agree.foldlM (R := Regrouped) (P := NamedRegrouped)
    (fun _ _ _ _ hSame hNamed => agree_setNamed hSame hNamed)
    hMembers (.refl empty)

/- Values that group sort keys otherwise are read alike. -/
theorem agree_ofJson
    {v w : Json}
    (hDescription : DescriptionRegrouped v w) :
    Agree Regrouped (ofJson v) (ofJson w) := by
  cases hDescription with
  | named hMembers => exact agree_ofMembers hMembers
  | @placed items others hLength hItems =>
      have hSet : ∀ (d e : Description)
          (entry other : Member × Json),
          d.Regrouped e → PlacedRegrouped entry other →
            Agree Regrouped (d.setMember entry.1 entry.2)
              (e.setMember other.1 other.2) := by
        intro d e entry other hSame hPlaced
        cases hPlaced with
        | member member hValue =>
            exact agree_setMember hSame hValue
      have hRead := Agree.foldlM (fun d e entry other =>
        hSet d e entry other) hItems (.refl empty)
      refine Agree.bind hRead fun d e hSame => ?_
      rw [hLength]
      split
      · exact .error _
      · exact .ok hSame

theorem Regrouped.sortKeys_eq (hSame : d.Regrouped e) :
    d.sortKeys = e.sortKeys := by
  have hOrder := hSame.orderBy
  unfold sortKeys
  generalize d.orderBy = order? at hOrder ⊢
  generalize e.orderBy = other? at hOrder ⊢
  cases hOrder with
  | none => rfl
  | some hMembers => exact congrArg SortKey.ofMembers hMembers

end Description

------------------------------------------------------------
-- Translations
------------------------------------------------------------

namespace Translator

open Except Json

theorem relation_of_regrouped
    {translate : Description → Except Error Query}
    (hTranslate : ∀ d e : Description, d.Regrouped e →
      translate d = translate e)
    {member other : String × Json}
    (hRelation : RelationRegrouped member other) :
    relation translate member =
      relation translate other := by
  cases hRelation with
  | same => rfl
  | description name hMembers =>
      refine Agree.eq ?_
      refine (Description.agree_ofMembers hMembers).bind
        fun d e hSame => ?_
      rw [hSame.filter, hTranslate d e hSame]
      exact .refl _ fun _ _ => rfl

theorem relations?_of_regrouped
    {translate : Description → Except Error Query}
    (hTranslate : ∀ d e : Description, d.Regrouped e →
      translate d = translate e)
    {relations? other? : Option Members}
    (hRelations :
      Option.Rel (List.Forall₂ RelationRegrouped)
        relations? other?) :
    Translator.relations? translate relations? =
      Translator.relations? translate other? := by
  cases hRelations with
  | none => rfl
  | @some members others hEach =>
      have hEntries :
          members.mapM (relation translate) =
            others.mapM (relation translate) :=
        mapM_eq_mapM (hEach.imp fun _ _ hRelation =>
          relation_of_regrouped hTranslate hRelation)
      unfold Translator.relations?
      simp only [hEntries]

theorem translateWithin_of_regrouped
    (t : Translator)
    (levels : Nat) :
    ∀ d e : Description, d.Regrouped e →
      t.translateWithin levels d =
        t.translateWithin levels e := by
  induction levels with
  | zero =>
      intro d e _
      rfl
  | succ levels ih =>
      intro d e hSame
      unfold translateWithin
      rw [hSame.filter, hSame.selection, hSame.take,
        hSame.skip, hSame.cursor, hSame.sortKeys_eq,
        relations?_of_regrouped ih hSame.relations]

/-
  Where all else translates, the order is read, then its
  fields are looked up, and then the cursor is applied.
-/
theorem translateWithin_of_unsorted
    {t : Translator}
    {levels : Nat}
    {d : Description}
    {q : Query}
    (hPlain :
      t.translateWithin levels
          { d with orderBy := none, cursor := none } =
        .ok q) :
    t.translateWithin levels d = (do
      let keys ← d.sortKeys
      let order ← t.sortTerms keys
      t.applyCursor keys d.cursor
        { q with order := order }) := by
  cases levels with
  | zero => cases hPlain
  | succ levels =>
      rcases translateWithin_succ_eq_ok_iff.mp hPlain with
        ⟨condition, relations, columns, keys, order,
          hCondition, hRelations, hColumns, _, _, hQuery⟩
      cases hQuery
      rw [translateWithin]
      simp only at hCondition hRelations hColumns
      rw [hCondition, hRelations, hColumns]
      rfl

/- A key whose field is not known is the error. -/
theorem sortTerms_entries_eq_error
    {t : Translator}
    {keys : List SortKey}
    {before after : Json.Members}
    {field : String}
    {value : Json}
    (hKeys :
      keys.map SortKey.entry =
        before ++ (field, value) :: after)
    (hBefore : ∀ member ∈ before,
      t.schema.find? member.1 ≠ none)
    (hField : t.schema.find? field = none) :
    t.sortTerms keys = .error (.invalidField field) := by
  rcases List.map_eq_append_iff.mp hKeys with
    ⟨first, rest, rfl, rfl, hRest⟩
  rcases List.map_eq_cons_iff.mp hRest with
    ⟨key, others, rfl, hKey, _⟩
  cases hKey
  refine mapM_eq_error_iff.mpr
    ⟨first, key, others, rfl, ?_, ?_⟩
  · intro other hOther
    have hKnown := hBefore other.entry
      (List.mem_map_of_mem hOther)
    rcases Option.ne_none_iff_exists'.mp hKnown with
      ⟨known, hFound⟩
    refine ⟨⟨other.field, known.column, other.direction⟩, ?_⟩
    refine bind_eq_ok_iff.mpr ⟨known, ?_, rfl⟩
    exact (Schema.resolve_eq_ok_iff ..).mpr hFound
  · exact bind_eq_error_iff.mpr (.inl
      ((Schema.resolve_eq_error_iff ..).mpr ⟨hField, rfl⟩))

section Faults

variable {t : Translator}
variable {levels : Nat}
variable {d : Description}
variable {order : OrderBy}
variable {q : Query}
variable {before after : Members}
variable {field : String}
variable {value : Json}

/- The first member without a direction is the error. -/
theorem translateWithin_eq_error_of_direction
    (hPlain :
      t.translateWithin levels
          { d with orderBy := none, cursor := none } =
        .ok q)
    (hOrder : d.orderBy = some order)
    (hMembers :
      order.members = before ++ (field, value) :: after)
    (hBefore :
      ∀ member ∈ before, SortKey.HasDirection member)
    (hValue : ¬ SortKey.HasDirection (field, value)) :
    t.translateWithin levels d =
      .error (.unsupportedShape (.direction field value)) := by
  have hKeys := OrderBy.keys_eq_error_iff.mpr
    ⟨before, field, value, after, hMembers, hBefore, hValue,
      rfl⟩
  rw [translateWithin_of_unsorted hPlain,
    Description.sortKeys_of_orderBy hOrder, hKeys]
  rfl

/- If all have one, the first unknown field is the error. -/
theorem translateWithin_eq_error_of_field
    (hPlain :
      t.translateWithin levels
          { d with orderBy := none, cursor := none } =
        .ok q)
    (hOrder : d.orderBy = some order)
    (hMembers :
      order.members = before ++ (field, value) :: after)
    (hDirections :
      ∀ member ∈ order.members, SortKey.HasDirection member)
    (hBefore : ∀ member ∈ before,
      t.schema.find? member.1 ≠ none)
    (hField : t.schema.find? field = none) :
    t.translateWithin levels d =
      .error (.invalidField field) := by
  have hRead : ∃ keys, order.keys = .ok keys := by
    refine exists_mapM_eq_ok_iff.mpr fun member hIn => ?_
    exact SortKey.exists_ofMember_iff.mpr
      (hDirections member hIn)
  rcases hRead with ⟨keys, hKeys⟩
  have hEntries := OrderBy.keys_eq_ok_iff.mp hKeys
  have hTerms := sortTerms_entries_eq_error
    (hEntries.symm.trans hMembers) hBefore hField
  rw [translateWithin_of_unsorted hPlain,
    Description.sortKeys_of_orderBy hOrder, hKeys]
  refine bind_eq_error_iff.mpr (.inr ⟨keys, rfl, ?_⟩)
  exact bind_eq_error_iff.mpr (.inl hTerms)

end Faults

/-
  Sort orders with the same members in whatever objects have
  the same keys. An order is read object by object, has one
  key for each member, and fails as its first member without
  a direction. Descriptions whose orders are grouped
  otherwise, at any depth, translate alike. Where all but the
  order and the cursor translates, with whatever levels left,
  the first member without a direction is the error, and if
  all have one, then the first field that is not known.
-/
theorem grouping_irrelevant :
    (∀ order other : OrderBy,
      order.members = other.members →
        order.keys = other.keys) ∧
    (∀ order : OrderBy,
      order.members = order.objects.flatten ∧
      order.keys =
        List.flatten <$>
          order.objects.mapM SortKey.ofMembers ∧
      (∀ keys, order.keys = .ok keys ↔
        order.members = keys.map SortKey.entry) ∧
      ∀ e, order.keys = .error e ↔
        ∃ before field value after,
          order.members =
            before ++ (field, value) :: after ∧
          (∀ member ∈ before,
            SortKey.HasDirection member) ∧
          ¬ SortKey.HasDirection (field, value) ∧
          e = .unsupportedShape (.direction field value)) ∧
    (∀ (t : Translator) (v w : Json),
      DescriptionRegrouped v w →
        t.translateJson v = t.translateJson w) ∧
    ∀ (t : Translator) (levels : Nat) (d : Description)
      (order : OrderBy) (q : Query)
      (before after : Members)
      (field : String) (value : Json),
      t.translateWithin levels
          { d with orderBy := none, cursor := none } =
        .ok q →
      d.orderBy = some order →
      order.members = before ++ (field, value) :: after →
        ((∀ member ∈ before, SortKey.HasDirection member) →
          ¬ SortKey.HasDirection (field, value) →
          t.translateWithin levels d =
            .error (.unsupportedShape
              (.direction field value))) ∧
        ((∀ member ∈ order.members,
            SortKey.HasDirection member) →
          (∀ member ∈ before,
            t.schema.find? member.1 ≠ none) →
          t.schema.find? field = none →
          t.translateWithin levels d =
            .error (.invalidField field)) := by
  refine ⟨?_, ?_, ?_, ?_⟩
  · intro order other hMembers
    exact congrArg SortKey.ofMembers hMembers
  · intro order
    exact ⟨order.members_eq_flatten, order.keys_by_object,
      fun _ => OrderBy.keys_eq_ok_iff,
      fun _ => OrderBy.keys_eq_error_iff⟩
  · intro t v w hDescription
    refine Agree.eq ?_
    refine (Description.agree_ofJson hDescription).bind
      fun d e hSame => ?_
    rw [translate, translate,
      t.translateWithin_of_regrouped _ d e hSame]
    exact .refl _ fun _ _ => rfl
  · intro t levels d order q before after field value
      hPlain hOrder hMembers
    constructor
    · exact translateWithin_eq_error_of_direction hPlain
        hOrder hMembers
    · exact translateWithin_eq_error_of_field hPlain hOrder
        hMembers

/- A page after seven views, and its posts, by an order. -/
def pageBy (order : OrderBy) : Json :=
  .object
    [("include", .object
        [("posts", .object
          [("orderBy", Description.orderByJson order)])]),
      ("orderBy", Description.orderByJson order),
      ("cursor", .object [("views", .number (.integer 7))])]

/- Rows by their views, in objects of which one is empty. -/
def scatteredViews : OrderBy :=
  .sequence
    [[("views", .string "desc")], [],
      [("id", .string "asc"), ("views", .string "asc")]]

/- The same keys in objects of other lengths. -/
def gatheredViews : OrderBy :=
  .sequence
    [[("views", .string "desc"), ("id", .string "asc")],
      [("views", .string "asc")]]

/- An unknown field, before a direction that is no word. -/
def faultyViews : OrderBy :=
  .sequence
    [[("title", .string "asc")], [],
      [("views", .string "up"), ("id", .string "desc")]]

/- Fields that are not known, after one that is. -/
def untitledViews : OrderBy :=
  .sequence
    [[("views", .string "asc")],
      [("title", .string "asc"), ("body", .string "desc")]]

theorem grouping_irrelevant_views :
    scatteredViews.keys =
      .ok [⟨"views", .descending⟩, ⟨"id", .ascending⟩,
        ⟨"views", .ascending⟩] ∧
    gatheredViews.keys = scatteredViews.keys ∧
    DescriptionRegrouped (pageBy scatteredViews)
      (pageBy gatheredViews) ∧
    (∃ q, viewsTranslator.translateJson
        (pageBy scatteredViews) = .ok q ∧
      viewsTranslator.translateJson (pageBy gatheredViews) =
        .ok q) ∧
    viewsTranslator.translate
        { Description.empty with
          orderBy := some faultyViews } =
      .error (.unsupportedShape
        (.direction "views" (.string "up"))) ∧
    viewsTranslator.translate
        { Description.empty with
          orderBy := some untitledViews } =
      .error (.invalidField "title") := by
  rcases grouping_irrelevant with
    ⟨hSame, hOrder, hJson, hFaults⟩
  have hKeys : scatteredViews.keys =
      .ok [⟨"views", .descending⟩, ⟨"id", .ascending⟩,
        ⟨"views", .ascending⟩] :=
    ((hOrder scatteredViews).2.2.1 _).mpr rfl
  have hRegrouped :
      DescriptionRegrouped (pageBy scatteredViews)
        (pageBy gatheredViews) := by
    refine .named (.cons (.member .relations ?_)
      (.cons (.member .orderBy (.orderBy rfl))
        (.cons (.same _) .nil)))
    exact .relations (.cons (.description "posts"
      (.cons (.member .orderBy (.orderBy rfl)) .nil)) .nil)
  have hUp :
      ¬ SortKey.HasDirection ("views", .string "up") := by
    rintro ⟨direction, hWord⟩
    cases direction <;> simp [Direction.word] at hWord
  refine ⟨hKeys, hSame _ _ rfl, hRegrouped, ?_, ?_, ?_⟩
  · refine ⟨_, rfl, ?_⟩
    exact (hJson _ _ _ hRegrouped).symm
  · refine (hFaults _ _ _ faultyViews _
      [("title", .string "asc")] [("id", .string "desc")]
      "views" (.string "up") rfl rfl rfl).1 ?_ hUp
    simpa using ⟨.ascending, rfl⟩
  · refine (hFaults _ _ _ untitledViews _
      [("views", .string "asc")] [("body", .string "desc")]
      "title" (.string "asc") rfl rfl rfl).2 ?_ ?_ rfl
    · simp only [untitledViews, OrderBy.members,
        List.flatten_cons, List.flatten_nil, List.append_nil,
        List.cons_append, List.nil_append,
        List.forall_mem_cons]
      exact ⟨⟨.ascending, rfl⟩, ⟨.ascending, rfl⟩,
        ⟨.descending, rfl⟩, by simp⟩
    · simp only [List.forall_mem_cons]
      exact ⟨by decide, by simp⟩

end Translator

end Criteria
