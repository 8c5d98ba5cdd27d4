import Criteria.Proofs.DescriptionMembers
import Criteria.Proofs.FilterReordering

/-
  This file proves that the order of what has no order does
  not matter.

  The members of a description, of its filter, its relations,
  its selection and its cursor can be moved, at every depth.
  Translations of two such descriptions succeed together, and
  then differ only in how their conditions are written. The
  order that rows are sorted in is left as it is.

  Key definitions include:
    * `Json.DescriptionReordered`
    * `Description.Reordered`
    * `Query.Equivalent`

  Main statements:
    * `Description.parallel_ofMembers`
    * `Translator.parallel_cursorKeys`
    * `Translator.parallel_translateWithin`
    * `Translator.order_irrelevant`
-/

------------------------------------------------------------
-- Descriptions in Another Order
------------------------------------------------------------

namespace Criteria

open Description

namespace Json

mutual

/- Descriptions with the same members in another order. -/
inductive DescriptionReordered : Json → Json → Prop where
  | object
      {members middle others : Members}
      (hDistinct : NameMap.Distinct members)
      (hPerm : members.Perm middle)
      (hMembers :
        List.Forall₂ NamedReordered middle others) :
      DescriptionReordered (.object members)
        (.object others)

/- A member of a description, or another named value. -/
inductive NamedReordered :
    String × Json → String × Json → Prop where
  | same (entry : String × Json) : NamedReordered entry entry
  | member
      {v w : Json}
      (member : Member)
      (hValue : MemberReordered member v w) :
      NamedReordered (member.name, v) (member.name, w)

/- What a member holds, without what has an order. -/
inductive MemberReordered : Member → Json → Json → Prop where
  | same (member : Member) (value : Json) :
      MemberReordered member value value
  | filter
      {v w : Json}
      (hFilter : FilterReordered v w) :
      MemberReordered .filter v w
  | relations
      {members middle others : Members}
      (hDistinct : NameMap.Distinct members)
      (hPerm : members.Perm middle)
      (hRelations :
        List.Forall₂ RelationReordered middle others) :
      MemberReordered .relations (.object members)
        (.object others)
  | selection
      {members others : Members}
      (hDistinct : NameMap.Distinct members)
      (hPerm : members.Perm others) :
      MemberReordered .selection (.object members)
        (.object others)
  | cursor
      {members others : Members}
      (hDistinct : NameMap.Distinct members)
      (hPerm : members.Perm others) :
      MemberReordered .cursor (.object members)
        (.object others)

/- A relation, which is a description or stays as it is. -/
inductive RelationReordered :
    String × Json → String × Json → Prop where
  | same (entry : String × Json) :
      RelationReordered entry entry
  | description
      {v w : Json}
      (name : String)
      (hDescription : DescriptionReordered v w) :
      RelationReordered (name, v) (name, w)

end

end Json

/- Descriptions that have the same members, each reordered. -/
def Description.Reordered (d e : Description) : Prop :=
  ∀ member, Option.Rel (Json.MemberReordered member)
    (d.memberJson? member) (e.memberJson? member)

------------------------------------------------------------
-- Equivalent Queries
------------------------------------------------------------

mutual

/-
  Queries that differ in how their conditions are written,
  and in nothing else, at every depth.
-/
inductive Query.Equivalent : Query → Query → Prop where
  | mk
      {c? d? : Option Condition}
      {relations others : Option (List (String × Relation))}
      {columns : Option (List (String × Bool))}
      {limit offset : Option UInt64}
      {order : List SortTerm}
      (hCondition : Condition.SameTruth c? d?)
      (hRelations :
        Option.Rel (List.Forall₂ Relation.Equivalent)
          relations others) :
      Query.Equivalent
        ⟨c?, relations, columns, limit, offset, order⟩
        ⟨d?, others, columns, limit, offset, order⟩

inductive Relation.Equivalent :
    String × Relation → String × Relation → Prop where
  | flag (name : String) (value : Json) :
      Relation.Equivalent (name, .flag value)
        (name, .flag value)
  | nested
      {q r : Query}
      (name : String)
      (hQuery : Query.Equivalent q r) :
      Relation.Equivalent (name, .nested q)
        (name, .nested r)

end

theorem Query.Equivalent.sameTruth
    {q r : Query}
    (hQuery : q.Equivalent r) :
    Condition.SameTruth q.condition r.condition := by
  cases hQuery with
  | mk hCondition _ => exact hCondition

mutual

theorem Query.Equivalent.refl :
    ∀ q : Query, Query.Equivalent q q
  | ⟨_, none, _, _, _, _⟩ =>
      .mk (fun _ _ => rfl) .none
  | ⟨_, some relations, _, _, _, _⟩ =>
      .mk (fun _ _ => rfl)
        (.some (Relation.equivalent_refl relations))

theorem Relation.equivalent_refl :
    ∀ relations : List (String × Relation),
    List.Forall₂ Relation.Equivalent relations relations
  | [] => .nil
  | (name, .flag value) :: rest =>
      .cons (.flag name value) (Relation.equivalent_refl rest)
  | (name, .nested q) :: rest =>
      .cons (.nested name (Query.Equivalent.refl q))
        (Relation.equivalent_refl rest)

end

end Criteria

------------------------------------------------------------
-- Reading Descriptions
------------------------------------------------------------

namespace Criteria

namespace Json

/- What has no order is null in both places or in none. -/
theorem MemberReordered.present?
    {member : Description.Member}
    {v w : Json}
    (hValue : MemberReordered member v w) :
    Option.Rel (MemberReordered member) v.present?
      w.present? := by
  have hSame : ∀ value : Json,
      Option.Rel (MemberReordered member) value.present?
        value.present? := by
    intro value
    cases value.present? with
    | none => exact .none
    | some kept => exact .some (.same member kept)
  cases hValue with
  | same => exact hSame v
  | filter hFilter =>
      cases hFilter with
      | same => exact hSame v
      | object hPerm hMembers =>
          exact .some (.filter (.object hPerm hMembers))
  | relations hDistinct hPerm hRelations =>
      exact .some (.relations hDistinct hPerm hRelations)
  | selection hDistinct hPerm =>
      exact .some (.selection hDistinct hPerm)
  | cursor hDistinct hPerm =>
      exact .some (.cursor hDistinct hPerm)

/- A member is accepted in any order. -/
theorem MemberReordered.accepts_iff
    {member : Description.Member}
    {v w : Json}
    (hValue : MemberReordered member v w) :
    member.Accepts v ↔ member.Accepts w := by
  have hObject : ∀ members others : Members,
      ∀ member : Description.Member,
      member ∈ [.filter, .relations, .selection, .cursor] →
        (member.Accepts (.object members) ↔
          member.Accepts (.object others)) := by
    intro members others member hMember
    simp only [List.mem_cons, List.not_mem_nil,
      or_false] at hMember
    rcases hMember with rfl | rfl | rfl | rfl
    all_goals exact ⟨fun _ => ⟨_, rfl⟩, fun _ => ⟨_, rfl⟩⟩
  cases hValue with
  | same => exact Iff.rfl
  | filter hFilter =>
      cases hFilter with
      | same => exact Iff.rfl
      | object _ _ => exact hObject _ _ _ (by simp)
  | relations _ _ _ => exact hObject _ _ _ (by simp)
  | selection _ _ => exact hObject _ _ _ (by simp)
  | cursor _ _ => exact hObject _ _ _ (by simp)

theorem NamedReordered.name_eq
    {entry other : String × Json}
    (hNamed : NamedReordered entry other) :
    other.1 = entry.1 := by
  cases hNamed <;> rfl

theorem NamedReordered.isMember_iff
    {entry other : String × Json}
    (hNamed : NamedReordered entry other) :
    Description.IsMember entry ↔
      Description.IsMember other := by
  cases hNamed with
  | same => exact Iff.rfl
  | member member hValue =>
      have hAccepts := hValue.accepts_iff
      constructor
      · rintro ⟨named, hName, hAccepted⟩
        cases Description.Member.name_injective hName
        exact ⟨member, rfl, hAccepts.mp hAccepted⟩
      · rintro ⟨named, hName, hAccepted⟩
        cases Description.Member.name_injective hName
        exact ⟨member, rfl, hAccepts.mpr hAccepted⟩

theorem forall_isMember_iff
    {members others : Members}
    (hMembers : List.Forall₂ NamedReordered members others) :
    (∀ entry ∈ members, Description.IsMember entry) ↔
      ∀ entry ∈ others, Description.IsMember entry := by
  induction hMembers with
  | nil => simp
  | cons hFirst _ ih =>
      rw [List.forall_mem_cons, List.forall_mem_cons,
        hFirst.isMember_iff, ih]

/- Under the name of a member is the same, reordered. -/
theorem lookup_of_reordered
    {members others : Members}
    (hMembers : List.Forall₂ NamedReordered members others)
    (member : Description.Member) :
    Option.Rel (MemberReordered member)
      (members.lookup member.name)
      (others.lookup member.name) := by
  induction hMembers with
  | nil => exact .none
  | @cons entry _ _ _ hFirst _ ih =>
      cases hFirst with
      | same =>
          rcases entry with ⟨key, value⟩
          rw [NameMap.lookup_cons_eq_if,
            NameMap.lookup_cons_eq_if]
          split
          · exact .some (.same member value)
          · exact ih
      | member named hValue =>
          rw [NameMap.lookup_cons_eq_if,
            NameMap.lookup_cons_eq_if]
          split
          · rename_i hName
            cases Description.Member.name_injective hName
            exact .some hValue
          · exact ih

end Json

namespace Description

open Except

/- Descriptions can be read in any order. -/
theorem parallel_ofMembers
    {members middle others : Json.Members}
    (hDistinct : NameMap.Distinct members)
    (hPerm : members.Perm middle)
    (hMembers :
      List.Forall₂ Json.NamedReordered middle others) :
    Parallel Reordered (ofMembers members)
      (ofMembers others) := by
  have hOthers : NameMap.Distinct others :=
    (hDistinct.perm hPerm).of_forall₂
      (fun _ _ hNamed => hNamed.name_eq) hMembers
  refine .of_iff ?_ ?_
  · rw [exists_ofMembers_iff, exists_ofMembers_iff]
    simp only [hPerm.mem_iff]
    exact Json.forall_isMember_iff hMembers
  · intro d e hRead hOther member
    rw [memberJson?_ofMembers hDistinct hRead,
      memberJson?_ofMembers hOthers hOther,
      NameMap.lookup_perm hDistinct hPerm]
    have hFound := Json.lookup_of_reordered hMembers member
    generalize middle.lookup member.name = v? at hFound ⊢
    generalize others.lookup member.name = w? at hFound ⊢
    cases hFound with
    | none => exact .none
    | some hValue => exact hValue.present?

end Description

end Criteria

------------------------------------------------------------
-- Members of Reordered Descriptions
------------------------------------------------------------

namespace Criteria

namespace Description.Reordered

open Json

variable {d e : Description}

/- What is written of both is related as they are. -/
theorem rel_of_map
    {α : Type}
    {R : Json → Json → Prop}
    {f : α → Json}
    {a? b? : Option α}
    (hMapped : Option.Rel R (a?.map f) (b?.map f)) :
    Option.Rel (fun a b => R (f a) (f b)) a? b? := by
  cases a? with
  | none =>
      cases b? with
      | none => exact .none
      | some b => cases hMapped
  | some a =>
      cases b? with
      | none => cases hMapped
      | some b =>
          cases hMapped with
          | some hRelated => exact .some hRelated

/- Members that have an order are the same in both. -/
theorem eq_of_map
    {α : Type}
    {member : Member}
    {f : α → Json}
    {a? b? : Option α}
    (hSame : ∀ v w, MemberReordered member v w → v = w)
    (hInjective : ∀ a b, f a = f b → a = b)
    (hMapped :
      Option.Rel (MemberReordered member) (a?.map f)
        (b?.map f)) :
    a? = b? := by
  cases rel_of_map hMapped with
  | none => rfl
  | some hRelated =>
      exact congrArg some
        (hInjective _ _ (hSame _ _ hRelated))

section Members

variable (hReordered : d.Reordered e)

include hReordered in
theorem filter :
    Option.Rel
      (fun members others =>
        MemberReordered .filter (.object members)
          (.object others))
      d.filter e.filter :=
  rel_of_map (hReordered .filter)

include hReordered in
theorem relations :
    Option.Rel
      (fun members others =>
        MemberReordered .relations (.object members)
          (.object others))
      d.relations e.relations :=
  rel_of_map (hReordered .relations)

include hReordered in
theorem selection :
    Option.Rel
      (fun members others =>
        MemberReordered .selection (.object members)
          (.object others))
      d.selection e.selection :=
  rel_of_map (hReordered .selection)

include hReordered in
theorem cursor :
    Option.Rel
      (fun members others =>
        MemberReordered .cursor (.object members)
          (.object others))
      d.cursor e.cursor :=
  rel_of_map (hReordered .cursor)

include hReordered in
theorem isSome_filter_eq :
    d.filter.isSome = e.filter.isSome := by
  have hFilter := hReordered.filter
  generalize d.filter = filter? at hFilter ⊢
  generalize e.filter = other? at hFilter ⊢
  cases hFilter <;> rfl

end Members

theorem take_eq (hReordered : d.Reordered e) :
    d.take = e.take :=
  eq_of_map (fun _ _ hValue => by cases hValue; rfl)
    (fun _ _ => countJson_injective) (hReordered .take)

theorem skip_eq (hReordered : d.Reordered e) :
    d.skip = e.skip :=
  eq_of_map (fun _ _ hValue => by cases hValue; rfl)
    (fun _ _ => countJson_injective) (hReordered .skip)

theorem orderBy_eq (hReordered : d.Reordered e) :
    d.orderBy = e.orderBy :=
  eq_of_map (fun _ _ hValue => by cases hValue; rfl)
    (fun _ _ => orderByJson_injective) (hReordered .orderBy)

end Description.Reordered

------------------------------------------------------------
-- Translating Members
------------------------------------------------------------

namespace Translator

open Except Condition Json

variable {t : Translator}

/- A filter says the same in any order. -/
theorem parallel_filterCondition?
    {filter? other? : Option Members}
    (hFilter :
      Option.Rel
        (fun members others =>
          MemberReordered .filter (.object members)
            (.object others))
        filter? other?) :
    Parallel SameTruth (t.filterCondition? filter?)
      (t.filterCondition? other?) := by
  cases hFilter with
  | none => exact .ok fun _ _ => rfl
  | some hMembers =>
      cases hMembers with
      | same => exact .refl _ fun _ _ _ => rfl
      | filter hReordered =>
          cases hReordered with
          | same => exact .refl _ fun _ _ _ => rfl
          | object hPerm hEntries =>
              have hParsed :=
                Filter.parallel_ofMembers
                  t.settings.maxDepth t.settings.maxDepth
                  hPerm hEntries
              exact hParsed.bind fun f g hFilters =>
                Filter.parallel_condition? .conjunctive
                  hFilters

theorem name_of_selectColumn
    {member : String × Json}
    {column : String × Bool}
    (hColumn : selectColumn member = .ok column) :
    column.1 = member.1 := by
  unfold selectColumn at hColumn
  split at hColumn
  · cases hColumn
    rfl
  · cases hColumn
  · cases hColumn

/- A selection is a map by name. -/
theorem parallel_columns?
    {selection? other? : Option Members}
    (hSelection :
      Option.Rel
        (fun members others =>
          MemberReordered .selection (.object members)
            (.object others))
        selection? other?) :
    Parallel Eq (columns? selection?) (columns? other?) := by
  cases hSelection with
  | none => exact .ok rfl
  | some hMembers =>
      cases hMembers with
      | same => exact .refl _ fun _ => rfl
      | selection hDistinct hPerm =>
          have hMaps :=
            NameMap.parallel_ofList (R := Eq)
              (fun _ _ hColumn => name_of_selectColumn hColumn)
              (fun _ _ hSame => congrArg Prod.fst hSame.symm)
              hDistinct hPerm
              (List.forall₂_same.mpr fun member _ =>
                .refl (selectColumn member) fun _ => rfl)
          refine hMaps.map fun columns more hSame => ?_
          rw [List.forall₂_eq_eq_eq] at hSame
          exact congrArg some hSame

section Relations

variable {translate : Description → Except Error Query}

theorem name_of_relation
    {member : String × Json}
    {entry : String × Relation}
    (hEntry : relation translate member = .ok entry) :
    entry.1 = member.1 := by
  rcases member with ⟨name, value⟩
  rcases relation_eq_ok_iff.mp hEntry with
    ⟨_, _, _, _, _, _, _, rfl⟩ | ⟨_, rfl⟩
  · rfl
  · rfl

variable
  (hTranslate : ∀ d e : Description, d.Reordered e →
    Parallel Query.Equivalent (translate d) (translate e))

include hTranslate in
/- A relation is translated in any order, or is a flag. -/
theorem parallel_relation
    {member other : String × Json}
    (hRelation : RelationReordered member other) :
    Parallel Relation.Equivalent (relation translate member)
      (relation translate other) := by
  have hRefl : ∀ entry, Relation.Equivalent entry entry := by
    rintro ⟨name, value | q⟩
    · exact .flag name value
    · exact .nested name (.refl q)
  cases hRelation with
  | same => exact .refl _ hRefl
  | description name hDescription =>
      cases hDescription with
      | object hDistinct hPerm hMembers =>
          have hRead :=
            Description.parallel_ofMembers hDistinct hPerm
              hMembers
          refine hRead.bind fun d e hReordered => ?_
          rw [hReordered.isSome_filter_eq]
          split
          · exact .error _ _
          · exact (hTranslate d e hReordered).map
              fun q r hQuery => .nested name hQuery

theorem relations?_some (members : Members) :
    relations? translate (some members) =
      some <$> (NameMap.ofList <$>
        members.mapM (relation translate)) := by
  rw [relations?]
  cases members.mapM (relation translate) <;> rfl

include hTranslate in
theorem parallel_relations?
    {relations? other? : Option Members}
    (hRelations :
      Option.Rel
        (fun members others =>
          MemberReordered .relations (.object members)
            (.object others))
        relations? other?) :
    Parallel
      (Option.Rel (List.Forall₂ Relation.Equivalent))
      (Translator.relations? translate relations?)
      (Translator.relations? translate other?) := by
  have hNames : ∀ entry other,
      Relation.Equivalent entry other →
        other.1 = entry.1 := by
    intro entry other hEntry
    cases hEntry <;> rfl
  cases hRelations with
  | none => exact .ok .none
  | some hMembers =>
      cases hMembers with
      | same =>
          refine .refl _ fun relations => ?_
          cases relations with
          | none => exact .none
          | some entries =>
              exact .some (Relation.equivalent_refl entries)
      | relations hDistinct hPerm hEach =>
          have hMaps :=
            NameMap.parallel_ofList
              (fun _ _ hEntry => name_of_relation hEntry)
              hNames hDistinct hPerm
              (hEach.imp fun _ _ hRelation =>
                parallel_relation hTranslate hRelation)
          rw [relations?_some, relations?_some]
          exact hMaps.map fun _ _ hEntries => .some hEntries

end Relations

------------------------------------------------------------
-- Cursors
------------------------------------------------------------

section Cursors

variable {members others : Members}

theorem parallel_primaryMember
    (tiebreaker : String)
    (hDistinct : NameMap.Distinct members)
    (hPerm : members.Perm others) :
    Parallel Eq (primaryMember tiebreaker members)
      (primaryMember tiebreaker others) := by
  have hKept :
      (members.filter fun m => m.1 ≠ tiebreaker).Perm
        (others.filter fun m => m.1 ≠ tiebreaker) :=
    hPerm.filter _
  have hTie := NameMap.find?_perm hDistinct hPerm tiebreaker
  unfold primaryMember
  rw [hTie]
  generalize (members.filter fun m => m.1 ≠ tiebreaker) =
    kept at hKept ⊢
  generalize (others.filter fun m => m.1 ≠ tiebreaker) =
    more at hKept ⊢
  match kept with
  | [] =>
      rw [List.nil_perm.mp hKept]
      exact .refl _ fun _ => rfl
  | [member] =>
      rw [← List.singleton_perm.mp hKept]
      exact .ok rfl
  | first :: second :: rest =>
      match more with
      | [] => cases List.perm_nil.mp hKept
      | [other] => cases List.perm_singleton.mp hKept
      | _ :: _ :: _ => exact .error _ _

/- A cursor has the same keys in any order. -/
theorem parallel_cursorKeys
    (keys : List SortKey)
    (hDistinct : NameMap.Distinct members)
    (hPerm : members.Perm others) :
    Parallel Eq (t.cursorKeys keys members)
      (t.cursorKeys keys others) := by
  have hPrimary :=
    parallel_primaryMember t.settings.tiebreaker hDistinct
      hPerm
  have hLookup :=
    NameMap.lookup_perm hDistinct hPerm
      t.settings.tiebreaker
  simp only [cursorKeys, hLookup]
  refine hPrimary.bind ?_
  rintro member _ rfl
  exact .refl _ fun _ => rfl

theorem sameTruth_both
    {c? d? : Option Condition}
    (hSame : SameTruth c? d?)
    (boundary? : Option Condition) :
    SameTruth (Cursor.both c? boundary?)
      (Cursor.both d? boundary?) := by
  intro assign hAssign
  have hTruth := hSame assign hAssign
  cases c? with
  | none =>
      cases d? with
      | none => rfl
      | some d => cases hTruth
  | some c =>
      cases d? with
      | none => cases hTruth
      | some d =>
          cases boundary? with
          | none => exact hTruth
          | some b =>
              have hEqual := Option.some.inj hTruth
              simp only [Cursor.both, Option.map_some,
                truth_join, List.map_cons, List.map_nil,
                hEqual]

/- A cursor bounds equivalent queries alike. -/
theorem parallel_applyCursor
    (keys : List SortKey)
    {cursor? other? : Option Members}
    (hCursor :
      Option.Rel
        (fun members others =>
          MemberReordered .cursor (.object members)
            (.object others))
        cursor? other?)
    {q r : Query}
    (hQuery : q.Equivalent r) :
    Parallel Query.Equivalent (t.applyCursor keys cursor? q)
      (t.applyCursor keys other? r) := by
  have hKeys : ∀ members others,
      MemberReordered .cursor (.object members)
          (.object others) →
        Parallel Eq (t.cursorKeys keys members)
          (t.cursorKeys keys others) := by
    intro members others hMembers
    cases hMembers with
    | same => exact .refl _ fun _ => rfl
    | cursor hDistinct hPerm =>
        exact parallel_cursorKeys keys hDistinct hPerm
  cases hCursor with
  | none => exact .ok hQuery
  | some hMembers =>
      refine (hKeys _ _ hMembers).bind ?_
      rintro ⟨primary, secondary⟩ _ rfl
      cases hQuery with
      | mk hCondition hRelations =>
          exact .ok (.mk (sameTruth_both hCondition _)
            hRelations)

end Cursors

------------------------------------------------------------
-- Translations
------------------------------------------------------------

/- Descriptions are translated alike in any order. -/
theorem parallel_translateWithin
    (t : Translator)
    (levels : Nat) :
    ∀ d e : Description, d.Reordered e →
      Parallel Query.Equivalent (t.translateWithin levels d)
        (t.translateWithin levels e) := by
  induction levels with
  | zero =>
      intro d e _
      exact .error _ _
  | succ levels ih =>
      intro d e hReordered
      have hSortKeys : d.sortKeys = e.sortKeys := by
        unfold Description.sortKeys
        rw [hReordered.orderBy_eq]
      unfold translateWithin
      rw [hSortKeys, hReordered.take_eq, hReordered.skip_eq]
      refine (parallel_filterCondition?
        hReordered.filter).bind fun c? d? hCondition => ?_
      refine (parallel_relations? ih
        hReordered.relations).bind fun _ _ hRelations => ?_
      refine (parallel_columns?
        hReordered.selection).bind fun columns _ hSame => ?_
      cases hSame
      refine .after _ fun keys => ?_
      refine .after _ fun order => ?_
      exact parallel_applyCursor keys hReordered.cursor
        (.mk hCondition hRelations)

/-
  Of two descriptions that differ in the order of what has
  no order, both are translated or none is, and their queries
  are the same but for how conditions are written, which are
  as true in every row.
-/
theorem order_irrelevant
    (t : Translator)
    (value other : Json)
    (hReordered : DescriptionReordered value other) :
    ((∃ q, t.translateJson value = .ok q) ↔
      ∃ r, t.translateJson other = .ok r) ∧
    ∀ q r, t.translateJson value = .ok q →
      t.translateJson other = .ok r → q.Equivalent r := by
  cases hReordered with
  | @object members middle others hDistinct hPerm hMembers =>
      have hRead :=
        Description.parallel_ofMembers hDistinct hPerm
          hMembers
      have hBoth :
          Parallel Query.Equivalent
            (t.translateJson (.object members))
            (t.translateJson (.object others)) :=
        hRead.bind fun d e hDescriptions =>
          t.parallel_translateWithin t.settings.maxDepth d e
            hDescriptions
      refine ⟨hBoth.exists_ok_iff, ?_⟩
      intro q r hFirst hSecond
      rw [hFirst, hSecond] at hBoth
      exact hBoth.related

/- Two alternatives, a relation and a page after a row. -/
def listedViews : Json :=
  .object
    [("where", .object
        [("OR", .array
          [.object
            [("views", .object
              [("not", .object
                [("mode", .string "insensitive"),
                  ("in", .array
                    [.number (.integer 1),
                      .number (.integer 2)])])])],
            .object [("views", .null)]]),
          ("id", .number (.integer 3))]),
      ("include", .object
        [("posts", .object
          [("take", .number (.integer 1)),
            ("select", .object
              [("views", .bool true), ("id", .bool false)])]),
          ("author", .bool true)]),
      ("cursor", .object
        [("id", .number (.integer 9)),
          ("views", .number (.integer 7))])]

/- The same with everything in it turned around. -/
def turnedViews : Json :=
  .object
    [("cursor", .object
        [("views", .number (.integer 7)),
          ("id", .number (.integer 9))]),
      ("include", .object
        [("author", .bool true),
          ("posts", .object
            [("select", .object
                [("id", .bool false), ("views", .bool true)]),
              ("take", .number (.integer 1))])]),
      ("where", .object
        [("id", .number (.integer 3)),
          ("OR", .array
            [.object [("views", .null)],
              .object
                [("views", .object
                  [("not", .object
                    [("in", .array
                        [.number (.integer 2),
                          .number (.integer 1)]),
                      ("mode", .string "insensitive")])])]])])]

theorem reordered_turnedViews :
    DescriptionReordered listedViews turnedViews := by
  have hField : Filter.IsFieldName "views" := by
    intro op
    cases op <;> decide
  refine .object (by simp [NameMap.Distinct])
    (List.reverse_perm _).symm ?_
  refine .cons (.member .cursor ?_)
    (.cons (.member .relations ?_)
      (.cons (.member .filter ?_) .nil))
  · exact .cursor (by simp [NameMap.Distinct]) (.swap _ _ _)
  · refine .relations (by simp [NameMap.Distinct])
      (.swap _ _ _)
      (.cons (.same _) (.cons (.description "posts" ?_) .nil))
    refine .object (by simp [NameMap.Distinct]) (.swap _ _ _)
      (.cons (.member .selection ?_) (.cons (.same _) .nil))
    exact .selection (by simp [NameMap.Distinct])
      (.swap _ _ _)
  · refine .filter (.object (.swap _ _ _)
      (.cons (.same _)
        (.cons (.branches .or (.swap _ _ _) ?_) .nil)))
    refine .cons (.same _) (.cons ?_ .nil)
    refine .object (.refl _) (.cons ?_ .nil)
    refine .operators hField (by simp [NameMap.Distinct])
      (.refl _) (.cons ?_ .nil)
    refine .nested (by simp [NameMap.Distinct])
      (.swap _ _ _) (.cons ?_ (.cons (.same _) .nil))
    exact @OperatorReordered.list .oneOf _ _ trivial
      (.swap _ _ _)

theorem order_irrelevant_turnedViews :
    DescriptionReordered listedViews turnedViews ∧
    ∃ q r, viewsTranslator.translateJson listedViews = .ok q ∧
      viewsTranslator.translateJson turnedViews = .ok r ∧
      q.Equivalent r ∧
      ∀ row : IntegerRow,
        q.condition.map (truth row.truth) =
          r.condition.map (truth row.truth) := by
  have hReordered := reordered_turnedViews
  have hOrder :=
    viewsTranslator.order_irrelevant _ _ hReordered
  have hEquivalent := hOrder.2 _ _ rfl rfl
  exact ⟨hReordered, _, _, rfl, rfl, hEquivalent,
    fun row => hEquivalent.sameTruth _ row.unordered⟩

end Translator

end Criteria
