import Criteria.Proofs.Rebound

/-
  This file proves that the relations of a description are
  translated as descriptions of their own.

  A relation that is an object gives the query of that object
  with one level less, and any other value stays as it is.
  The error of a bound that is passed names the bound of the
  whole, and is otherwise the error of the relation.

  Key definitions include:
    * `Json.WithoutFilter`
    * `Translator.Includes`
    * `Translator.Refuses`
    * `Description.includedAt?`
    * `Query.relationAt?`

  Main statements:
    * `Translator.relation_eq_ok_iff_includes`
    * `Translator.relation_eq_error_iff_refuses`
    * `Translator.includes_along`
    * `Translator.relations_compositional`
-/

------------------------------------------------------------
-- Descriptions without a Filter
------------------------------------------------------------

namespace Criteria

open Except

/- No member gives a filter that is not null. -/
def Json.WithoutFilter (members : Members) : Prop :=
  ∀ value,
    (Description.Member.filter.name, value) ∈ members →
      value = .null

theorem Json.withoutFilter_cons
    (member : Description.Member)
    (value : Json)
    (rest : Members) :
    WithoutFilter ((member.name, value) :: rest) ↔
      (member = .filter → value = .null) ∧
        WithoutFilter rest := by
  have hName :
      Description.Member.filter.name = member.name ↔
        member = .filter := by
    cases member <;> decide
  unfold WithoutFilter
  simp only [List.mem_cons, Prod.mk.injEq, hName]
  constructor
  · intro hMembers
    refine ⟨?_, ?_⟩
    · intro hMember
      exact hMembers value (.inl ⟨hMember, rfl⟩)
    · intro other hOther
      exact hMembers other (.inr hOther)
  · rintro ⟨hFirst, hRest⟩ other (⟨hMember, rfl⟩ | hOther)
    · exact hFirst hMember
    · exact hRest other hOther

namespace Description

theorem filter_setMember
    {d read : Description}
    {member : Member}
    {value : Json}
    (hRead : d.setMember member value = .ok read) :
    read.filter = none ↔
      d.filter = none ∧ (member = .filter → value = .null) := by
  by_cases hNull : value = .null
  · subst hNull
    cases hRead
    simp
  · rw [setMember_of_ne hNull] at hRead
    cases member with
    | _ =>
        rcases map_eq_ok_iff.mp hRead with ⟨_, _, rfl⟩
        simp [hNull]

theorem filter_foldlM
    {members : Json.Members}
    {d read : Description}
    (hRead : members.foldlM setNamed d = .ok read) :
    read.filter = none ↔
      d.filter = none ∧ Json.WithoutFilter members := by
  induction members generalizing d with
  | nil =>
      cases hRead
      simp [Json.WithoutFilter]
  | cons entry rest ih =>
      rcases entry with ⟨key, value⟩
      rw [List.foldlM_cons, bind_eq_ok_iff] at hRead
      rcases hRead with ⟨next, hFirst, hRest⟩
      rcases setNamed_eq_ok_iff.mp hFirst with
        ⟨member, rfl, hMember⟩
      rw [ih hRest, filter_setMember hMember, and_assoc,
        Json.withoutFilter_cons]

/- A description has a filter where its members give one. -/
theorem filter_ofMembers
    {members : Json.Members}
    {d : Description}
    (hRead : ofMembers members = .ok d) :
    d.filter = none ↔ Json.WithoutFilter members := by
  rw [filter_foldlM hRead]
  exact and_iff_right rfl

end Description

end Criteria

------------------------------------------------------------
-- Single Relations
------------------------------------------------------------

namespace Criteria

open Except

namespace Translator

/- What a value gives as a relation: its query, or itself. -/
inductive Includes (inner : Translator) :
    Json → Relation → Prop where
  | nested
      {members : Json.Members}
      {q : Query}
      (hFilter : Json.WithoutFilter members)
      (hQuery :
        inner.translateJson (.object members) = .ok q) :
      Includes inner (.object members) (.nested q)
  | flag
      {value : Json}
      (hFlag : ∀ members, value ≠ .object members) :
      Includes inner value (.flag value)

/-
  The error of a named value as a relation, of which there
  may be several reasons. The first of them decides.
-/
inductive Refuses (inner : Translator) :
    String × Json → Error → Prop where
  | description
      {name : String}
      {members : Json.Members}
      {e : Error}
      (hRead : Description.ofMembers members = .error e) :
      Refuses inner (name, .object members) e
  | filter
      {name : String}
      {members : Json.Members}
      {d : Description}
      (hRead : Description.ofMembers members = .ok d)
      (hFilter : ¬ Json.WithoutFilter members) :
      Refuses inner (name, .object members)
        (.unsupportedShape (.nestedWhere name))
  | query
      {name : String}
      {members : Json.Members}
      {d : Description}
      {e : Error}
      (hRead : Description.ofMembers members = .ok d)
      (hFilter : Json.WithoutFilter members)
      (hQuery :
        inner.translateJson (.object members) = .error e) :
      Refuses inner (name, .object members)
        (e.rebound inner.settings.maxDepth
          (inner.settings.maxDepth + 1))

variable {t : Translator}
variable {most : Nat}

/- An object that reads as a description is translated so. -/
theorem translateJson_object
    {members : Json.Members}
    {d : Description}
    (hRead : Description.ofMembers members = .ok d) :
    t.translateJson (.object members) = t.translate d := by
  have hJson :
      Description.ofJson (.object members) = .ok d :=
    hRead
  unfold translateJson
  rw [hJson]
  rfl

/- One level down the bound is one lower, but for its name. -/
theorem translateWithin_inner
    {d : Description}
    (hFilter : d.filter = none) :
    (t.withMaxDepth (most + 1)).translateWithin most d =
      ((t.withMaxDepth most).translate d).mapError
        (Error.rebound most (most + 1)) :=
  (mapError_translateWithin hFilter most).symm

theorem relation_eq_ok_iff_includes
    {name : String}
    {value : Json}
    {entry : String × Relation} :
    relation
        ((t.withMaxDepth (most + 1)).translateWithin most)
        (name, value) = .ok entry ↔
      entry.1 = name ∧
        (t.withMaxDepth most).Includes value entry.2 := by
  rw [relation_eq_ok_iff]
  constructor
  · rintro (⟨members, d, q, rfl, hRead, hFilter, hQuery,
      rfl⟩ | ⟨hFlag, rfl⟩)
    · rw [translateWithin_inner hFilter,
        mapError_eq_ok_iff, ← translateJson_object hRead]
        at hQuery
      exact ⟨rfl, .nested
        ((Description.filter_ofMembers hRead).mp hFilter)
        hQuery⟩
    · exact ⟨rfl, .flag hFlag⟩
  · rcases entry with ⟨other, related⟩
    rintro ⟨rfl, hIncludes⟩
    cases hIncludes with
    | nested hFilter hQuery =>
        rename_i members q
        rcases bind_eq_ok_iff.mp hQuery with
          ⟨d, hRead, hTranslate⟩
        have hNone :=
          (Description.filter_ofMembers hRead).mpr hFilter
        refine .inl ⟨members, d, q, rfl, hRead, hNone, ?_,
          rfl⟩
        rw [translateWithin_inner hNone, mapError_eq_ok_iff]
        exact hTranslate
    | flag hFlag => exact .inr ⟨hFlag, rfl⟩

theorem relation_eq_error_iff_refuses
    {member : String × Json}
    {e : Error} :
    relation
        ((t.withMaxDepth (most + 1)).translateWithin most)
        member = .error e ↔
      (t.withMaxDepth most).Refuses member e := by
  rcases member with ⟨name, value⟩
  rw [relation_eq_error_iff]
  constructor
  · rintro ⟨members, rfl, hReason⟩
    rcases hReason with hRead | ⟨d, hRead, hReason⟩
    · exact .description hRead
    · have hNone := Description.filter_ofMembers hRead
      rcases hReason with ⟨hFilter, rfl⟩ | ⟨hFilter, hQuery⟩
      · exact .filter hRead (hNone.not.mp hFilter)
      · rw [translateWithin_inner hFilter,
          mapError_eq_error_iff] at hQuery
        rcases hQuery with ⟨inner, hInner, rfl⟩
        rw [← translateJson_object hRead] at hInner
        exact .query hRead (hNone.mp hFilter) hInner
  · intro hRefuses
    cases hRefuses with
    | description hRead =>
        exact ⟨_, rfl, .inl hRead⟩
    | filter hRead hFilter =>
        have hNone := Description.filter_ofMembers hRead
        exact ⟨_, rfl, .inr ⟨_, hRead,
          .inl ⟨hNone.not.mpr hFilter, rfl⟩⟩⟩
    | query hRead hFilter hQuery =>
        have hNone :=
          (Description.filter_ofMembers hRead).mpr hFilter
        refine ⟨_, rfl, .inr ⟨_, hRead, .inr ⟨hNone, ?_⟩⟩⟩
        rw [translateWithin_inner hNone,
          mapError_eq_error_iff]
        rw [translateJson_object hRead] at hQuery
        exact ⟨_, hQuery, rfl⟩

end Translator

end Criteria

------------------------------------------------------------
-- All Relations
------------------------------------------------------------

namespace Criteria

open Except

/- A description of relations and nothing else. -/
def Json.including (members : Members) : Json :=
  .object
    [(Description.Member.relations.name, .object members)]

/- A query of relations and nothing else. -/
def Query.ofRelations (relations : NameMap Relation) : Query :=
  { condition := none
    relations := some relations
    columns := none
    limit := none
    offset := none
    order := [] }

namespace Translator

variable {t : Translator}
variable {most : Nat}
variable {members : Json.Members}

theorem includes_of_mapM
    {entries : List (String × Relation)}
    (hEntries :
      members.mapM
          (relation
            ((t.withMaxDepth (most + 1)).translateWithin
              most)) =
        .ok entries)
    (name : String) :
    Option.Rel (t.withMaxDepth most).Includes
      (members.reverse.lookup name)
      ((NameMap.ofList entries).lookup name) := by
  rw [NameMap.lookup_ofList]
  refine NameMap.lookup_of_forall₂ ?_ name
  rw [List.forall₂_reverse_iff]
  refine (mapM_eq_ok_iff.mp hEntries).imp ?_
  intro member entry hEntry
  exact relation_eq_ok_iff_includes.mp hEntry

theorem translateJson_including :
    (t.withMaxDepth (most + 1)).translateJson
        (.including members) =
      (fun entries =>
          Query.ofRelations (NameMap.ofList entries)) <$>
        members.mapM
          (relation
            ((t.withMaxDepth (most + 1)).translateWithin
              most)) := by
  have hRead :
      Description.ofMembers
          [(Description.Member.relations.name,
            .object members)] =
        .ok { Description.empty with
          relations := some members } :=
    rfl
  have hLevels :
      (t.withMaxDepth (most + 1)).settings.maxDepth =
        most + 1 :=
    rfl
  rw [Json.including, translateJson_object hRead, translate,
    hLevels, translateWithin_of_filter_none rfl]
  simp only [relations?]
  generalize members.mapM
    (relation
      ((t.withMaxDepth (most + 1)).translateWithin most)) =
    entries?
  cases entries? with
  | error e => rfl
  | ok entries => rfl

theorem exists_relation_iff (member : String × Json) :
    (∃ entry,
      relation
          ((t.withMaxDepth (most + 1)).translateWithin most)
          member =
        .ok entry) ↔
      ∀ inside, member.2 = .object inside →
        (∃ d, Description.ofMembers inside = .ok d) ∧
        Json.WithoutFilter inside ∧
        ∃ q, (t.withMaxDepth most).translateJson
          (.object inside) = .ok q := by
  rcases member with ⟨name, value⟩
  simp only [relation_eq_ok_iff_includes]
  constructor
  · rintro ⟨⟨_, related⟩, _, hIncludes⟩ inside rfl
    cases hIncludes with
    | nested hFilter hQuery =>
        rcases bind_eq_ok_iff.mp hQuery with ⟨d, hRead, _⟩
        exact ⟨⟨d, hRead⟩, hFilter, _, hQuery⟩
    | flag hFlag => exact absurd rfl (hFlag inside)
  · intro hInside
    by_cases hValue : ∃ inside, value = .object inside
    · rcases hValue with ⟨inside, rfl⟩
      rcases hInside inside rfl with ⟨_, hFilter, q, hQuery⟩
      exact ⟨(name, .nested q), rfl, .nested hFilter hQuery⟩
    · exact ⟨(name, .flag value), rfl,
        .flag (not_exists.mp hValue)⟩

/- Relations are translated if each of them is. -/
theorem exists_translateJson_including_iff :
    (∃ q, (t.withMaxDepth (most + 1)).translateJson
      (.including members) = .ok q) ↔
      ∀ name inside, (name, .object inside) ∈ members →
        (∃ d, Description.ofMembers inside = .ok d) ∧
        Json.WithoutFilter inside ∧
        ∃ q, (t.withMaxDepth most).translateJson
          (.object inside) = .ok q := by
  rw [translateJson_including]
  simp only [map_eq_ok_iff]
  have hEntries :
      (∃ q entries,
        members.mapM
            (relation
              ((t.withMaxDepth (most + 1)).translateWithin
                most)) =
          .ok entries ∧
        Query.ofRelations (NameMap.ofList entries) = q) ↔
        ∀ member ∈ members, ∃ entry,
          relation
              ((t.withMaxDepth (most + 1)).translateWithin
                most)
              member =
            .ok entry := by
    rw [← exists_mapM_eq_ok_iff]
    constructor
    · rintro ⟨q, entries, hEntries, _⟩
      exact ⟨entries, hEntries⟩
    · rintro ⟨entries, hEntries⟩
      exact ⟨_, entries, hEntries, rfl⟩
  rw [hEntries]
  simp only [exists_relation_iff]
  constructor
  · intro hEach name inside hMember
    exact hEach (name, .object inside) hMember inside rfl
  · rintro hEach ⟨name, value⟩ hMember inside rfl
    exact hEach name inside hMember

theorem translateJson_including_eq_ok
    {q : Query}
    (hQuery :
      (t.withMaxDepth (most + 1)).translateJson
        (.including members) = .ok q) :
    ∃ relations, q = .ofRelations relations ∧
      relations.Ascending ∧
      ∀ name,
        Option.Rel (t.withMaxDepth most).Includes
          (members.reverse.lookup name)
          (relations.lookup name) := by
  rw [translateJson_including, map_eq_ok_iff] at hQuery
  rcases hQuery with ⟨entries, hEntries, rfl⟩
  exact ⟨_, rfl, NameMap.ascending_ofList entries,
    includes_of_mapM hEntries⟩

/- The first relation that is refused gives the error. -/
theorem translateJson_including_eq_error_iff
    {e : Error} :
    (t.withMaxDepth (most + 1)).translateJson
        (.including members) = .error e ↔
      ∃ before member after,
        members = before ++ member :: after ∧
        (∀ other ∈ before, ∀ f,
          ¬ (t.withMaxDepth most).Refuses other f) ∧
        (t.withMaxDepth most).Refuses member e := by
  rw [translateJson_including, map_eq_error_iff,
    mapM_eq_error_iff]
  simp only [exists_eq_ok_iff, ne_eq,
    relation_eq_error_iff_refuses]

section Members

variable {d : Description}

/- Without a filter relations are translated first. -/
theorem translate_eq_error_of_including
    {e : Error}
    (hMembers : d.relations = some members)
    (hFilter : d.filter = none)
    (hError :
      (t.withMaxDepth (most + 1)).translateJson
        (.including members) = .error e) :
    (t.withMaxDepth (most + 1)).translate d = .error e := by
  rw [translateJson_including, map_eq_error_iff] at hError
  have hLevels :
      (t.withMaxDepth (most + 1)).settings.maxDepth =
        most + 1 :=
    rfl
  rw [translate, hLevels,
    translateWithin_of_filter_none hFilter, hMembers,
    relations?, hError]
  rfl

/- The other members change nothing about the relations. -/
theorem exists_including_of_translate
    {q : Query}
    (hMembers : d.relations = some members)
    (hQuery :
      (t.withMaxDepth (most + 1)).translate d = .ok q) :
    ∃ r, (t.withMaxDepth (most + 1)).translateJson
        (.including members) = .ok r ∧
      q.relations = r.relations := by
  rcases translateWithin_succ_eq_ok_iff.mp hQuery with
    ⟨condition, relations, columns, keys, order, _,
      hRelations, _, _, _, hApply⟩
  rw [hMembers] at hRelations
  rcases relations?_eq_ok_iff.mp hRelations with
    ⟨entries, hEntries, rfl⟩
  have hSame : q.relations = some (NameMap.ofList entries) :=
    relations_applyCursor hApply
  refine ⟨.ofRelations (NameMap.ofList entries), ?_, hSame⟩
  rw [translateJson_including, map_eq_ok_iff]
  exact ⟨entries, hEntries, rfl⟩

end Members

end Translator

------------------------------------------------------------
-- Relations of Relations
------------------------------------------------------------

namespace Description

/- The value of a relation, the last one with its name. -/
def included?
    (d : Description)
    (name : String) : Option Json :=
  (d.relations.getD []).reverse.lookup name

/- The value at the end of a path of relations. -/
def includedAt? :
    Description → String → List String → Option Json
  | d, name, [] => d.included? name
  | d, name, next :: path =>
      match d.included? name with
      | some (.object members) =>
          match ofMembers members with
          | .ok inner => inner.includedAt? next path
          | .error _ => none
      | _ => none

end Description

namespace Query

def relation?
    (q : Query)
    (name : String) : Option Relation :=
  (q.relations.getD []).lookup name

/- The relation at the end of a path of relations. -/
def relationAt? :
    Query → String → List String → Option Relation
  | q, name, [] => q.relation? name
  | q, name, next :: path =>
      match q.relation? name with
      | some (.nested inner) => inner.relationAt? next path
      | _ => none

end Query

namespace Translator

variable {t : Translator}
variable {most : Nat}

/- A query has the relations that its description includes. -/
theorem includes_of_translate
    {d : Description}
    {q : Query}
    (hQuery :
      (t.withMaxDepth (most + 1)).translate d = .ok q)
    (name : String) :
    Option.Rel (t.withMaxDepth most).Includes
      (d.included? name) (q.relation? name) := by
  rcases translateWithin_succ_eq_ok_iff.mp hQuery with
    ⟨condition, relations, columns, keys, order, _,
      hRelations, _, _, _, hApply⟩
  have hSame : q.relations = relations :=
    relations_applyCursor hApply
  unfold Description.included? Query.relation?
  rw [hSame]
  cases hMembers : d.relations with
  | none =>
      rw [hMembers] at hRelations
      cases hRelations
      exact .none
  | some members =>
      rw [hMembers] at hRelations
      rcases relations?_eq_ok_iff.mp hRelations with
        ⟨entries, hEntries, rfl⟩
      exact includes_of_mapM hEntries name

/- So have the queries on relations, level by level. -/
theorem includes_along
    {d : Description}
    {q : Query}
    (hQuery :
      (t.withMaxDepth (most + 1)).translate d = .ok q)
    (name : String)
    (path : List String) :
    Option.Rel (t.withMaxDepth (most - path.length)).Includes
      (d.includedAt? name path) (q.relationAt? name path) := by
  induction path generalizing most d q name with
  | nil => exact includes_of_translate hQuery name
  | cons next path ih =>
      have hFirst := includes_of_translate hQuery name
      unfold Description.includedAt? Query.relationAt?
      generalize d.included? name = value? at hFirst
      generalize q.relation? name = relation? at hFirst
      cases hFirst with
      | none => exact .none
      | some hIncludes =>
          cases hIncludes with
          | flag hFlag =>
              rename_i value
              cases value with
              | object members =>
                  exact absurd rfl (hFlag members)
              | _ => exact .none
          | nested hFilter hInner =>
              rename_i members inner
              rcases bind_eq_ok_iff.mp hInner with
                ⟨below, hRead, hTranslate⟩
              have hMembers :
                  Description.ofMembers members =
                    .ok below :=
                hRead
              simp only [hMembers]
              cases most with
              -- Without a level left there is no query.
              | zero => cases hTranslate
              | succ most =>
                  have hLevels :
                      most + 1 - (next :: path).length =
                        most - path.length := by
                    simp
                  rw [hLevels]
                  exact ih hTranslate next

/-
  Relations are translated one by one, each with one level
  less. They succeed if all of them do, and are then those of
  the query under their names; of their errors the first one
  is the result. This is the same for the relations of any
  description, and for the relations of relations.
-/
theorem relations_compositional
    (t : Translator)
    (most : Nat)
    (members : Json.Members) :
    ((∃ q, (t.withMaxDepth (most + 1)).translateJson
        (.including members) = .ok q) ↔
      ∀ name inside, (name, .object inside) ∈ members →
        (∃ d, Description.ofMembers inside = .ok d) ∧
        Json.WithoutFilter inside ∧
        ∃ q, (t.withMaxDepth most).translateJson
          (.object inside) = .ok q) ∧
    (∀ q, (t.withMaxDepth (most + 1)).translateJson
        (.including members) = .ok q →
      ∃ relations, q = .ofRelations relations ∧
        relations.Ascending ∧
        ∀ name,
          Option.Rel (t.withMaxDepth most).Includes
            (members.reverse.lookup name)
            (relations.lookup name)) ∧
    (∀ e, (t.withMaxDepth (most + 1)).translateJson
        (.including members) = .error e ↔
      ∃ before member after,
        members = before ++ member :: after ∧
        (∀ other ∈ before, ∀ f,
          ¬ (t.withMaxDepth most).Refuses other f) ∧
        (t.withMaxDepth most).Refuses member e) ∧
    (∀ d : Description, d.relations = some members →
      (d.filter = none → ∀ e,
        (t.withMaxDepth (most + 1)).translateJson
            (.including members) = .error e →
          (t.withMaxDepth (most + 1)).translate d =
            .error e) ∧
      (∀ q, (t.withMaxDepth (most + 1)).translate d =
          .ok q →
        (∃ r, (t.withMaxDepth (most + 1)).translateJson
            (.including members) = .ok r ∧
          q.relations = r.relations) ∧
        ∀ name path,
          Option.Rel
            (t.withMaxDepth (most - path.length)).Includes
            (d.includedAt? name path)
            (q.relationAt? name path))) := by
  refine ⟨?_, ?_, ?_, ?_⟩
  · exact exists_translateJson_including_iff
  · intro q hQuery
    exact translateJson_including_eq_ok hQuery
  · intro e
    exact translateJson_including_eq_error_iff
  · intro d hMembers
    refine ⟨?_, ?_⟩
    · intro hFilter e hError
      exact translate_eq_error_of_including hMembers hFilter
        hError
    · intro q hQuery
      exact ⟨exists_including_of_translate hMembers hQuery,
        includes_along hQuery⟩

/- An author with two posts and their tags, and a flag. -/
def authorOfPosts : Json.Members :=
  [("author", .object
    [("include", .object
      [("posts", .object
        [("take", .number (.integer 2)),
          ("include", .object [("tags", .bool true)])])])]),
  ("views", .number (.integer 1))]

/- An author who is fine and a reader with an empty filter. -/
def filteredReader : Json.Members :=
  [("author", .object []),
  ("reader", .object [("where", .object [])]),
  ("posts", .object [("take", .bool true)])]

/-
  Three levels are enough for the posts of the author, and
  the tags of the posts stay. The empty filter is refused.
-/
theorem relations_compositional_authorOfPosts :
    (∃ q, (viewsTranslator.withMaxDepth 3).translateJson
        (.including authorOfPosts) = .ok q ∧
      Option.Rel (viewsTranslator.withMaxDepth 0).Includes
        (some (.bool true))
        (q.relationAt? "author" ["posts", "tags"])) ∧
    (viewsTranslator.withMaxDepth 3).translateJson
        (.including filteredReader) =
      .error (.unsupportedShape (.nestedWhere "reader")) := by
  rcases viewsTranslator.relations_compositional 2
      authorOfPosts with ⟨_, _, _, hEvery⟩
  rcases viewsTranslator.relations_compositional 2
      filteredReader with ⟨_, _, hError, _⟩
  refine ⟨⟨_, rfl, ?_⟩, (hError _).mpr ?_⟩
  · have hQuery := (hEvery
      { Description.empty with
        relations := some authorOfPosts } rfl).2 _ rfl
    exact hQuery.2 "author" ["posts", "tags"]
  · refine ⟨[("author", .object [])],
      ("reader", .object [("where", .object [])]),
      [("posts", .object [("take", .bool true)])], rfl, ?_,
      .filter rfl ?_⟩
    · intro other hOther f hRefuses
      rcases List.mem_singleton.mp hOther with rfl
      rw [← relation_eq_error_iff_refuses] at hRefuses
      cases hRefuses
    · intro hWithout
      have hNull :=
        hWithout (.object []) (List.mem_singleton.mpr rfl)
      cases hNull

end Translator

end Criteria
