import Criteria.Proofs.Relations

/-
  This file proves that the members of a description are
  translated independently.

  A translation is compared with the translations of its
  members, each in a description of its own. Its error is the
  first of theirs, and otherwise its query is put together
  from theirs. What two descriptions share they translate
  alike, and so do the descriptions of their relations.

  Key definitions include:
    * `Description.only`
    * `Translator.steps`
    * `Translator.Assembles`
    * `Query.SharesWith`

  Main statements:
    * `Translator.outcome_translate`
    * `Translator.assembles_of_translate`
    * `Translator.sharesWith_of_assembles`
    * `Translator.members_independent`
-/

------------------------------------------------------------
-- Single Members
------------------------------------------------------------

namespace Criteria

namespace Description

/-
  A description with one of its members. A cursor looks up
  its directions in the order, which stays with it.
-/
def only (d : Description) : Member → Description
  | .filter => { empty with filter := d.filter }
  | .relations => { empty with relations := d.relations }
  | .selection => { empty with selection := d.selection }
  | .take => { empty with take := d.take }
  | .skip => { empty with skip := d.skip }
  | .orderBy => { empty with orderBy := d.orderBy }
  | .cursor =>
      { empty with orderBy := d.orderBy, cursor := d.cursor }

end Description

namespace Translator

open Except

/-
  The steps of a translation: the check of its level, and the
  members in their declared order, each translated alone.
-/
def steps
    (t : Translator)
    (d : Description) : List (Except Error Unit) :=
  Filter.checkDepth t.settings.maxDepth 1 ::
    Description.Member.all.map fun member =>
      outcome (t.translate (d.only member))

/- The keys of a cursor, whose directions an order gives. -/
def keysAfter
    (t : Translator)
    (orderBy : Option OrderBy)
    (cursor : Json.Members) :
    Except Error (Cursor.Key × Option Cursor.Key) := do
  let keys ←
    Description.sortKeys
      { Description.empty with orderBy := orderBy }
  t.cursorKeys keys cursor

/- A part of a query is as one member alone gives it. -/
def GivesAlone
    {α : Type}
    (t : Translator)
    (d : Description)
    (member : Description.Member)
    (part : Query → α)
    (q : Query) : Prop :=
  ∃ alone, t.translate (d.only member) = .ok alone ∧
    part q = part alone

/-
  A query put together from the members translated alone. A
  cursor continues the condition of the filter alone, and its
  keys take the place of the order.
-/
structure Assembles
    (t : Translator)
    (d : Description)
    (q : Query) : Prop where
  relations : t.GivesAlone d .relations Query.relations q
  columns : t.GivesAlone d .selection Query.columns q
  limit : q.limit = d.take
  offset : q.offset = d.skip
  plain :
    d.cursor = none →
      t.GivesAlone d .filter Query.condition q ∧
      t.GivesAlone d .orderBy Query.order q
  paged :
    ∀ members, d.cursor = some members →
      ∃ alone primary secondary,
        t.translate (d.only .filter) = .ok alone ∧
        t.keysAfter d.orderBy members =
          .ok (primary, secondary) ∧
        q.condition =
          (Cursor.paginate alone.condition d.take primary
            secondary).condition ∧
        q.order =
          (Cursor.paginate alone.condition d.take primary
            secondary).order

section Parts

variable {t : Translator}
variable {levels : Nat}
variable (hLevels : t.settings.maxDepth = levels + 1)
variable (d : Description)

include hLevels

theorem translate_only_filter :
    t.translate (d.only .filter) =
      (fun condition =>
        Description.empty.plainQuery condition none none
          []) <$> t.filterCondition? d.filter := by
  rw [translate, hLevels, translateWithin]
  simp only [Description.only]
  cases t.filterCondition? d.filter <;> rfl

theorem translate_only_relations :
    t.translate (d.only .relations) =
      (fun relations =>
        Description.empty.plainQuery none relations none
          []) <$>
        relations? (t.translateWithin levels)
          d.relations := by
  rw [translate, hLevels, translateWithin]
  simp only [Description.only]
  cases relations? (t.translateWithin levels)
    d.relations <;> rfl

theorem translate_only_selection :
    t.translate (d.only .selection) =
      (fun columns =>
        Description.empty.plainQuery none none columns
          []) <$> columns? d.selection := by
  rw [translate, hLevels, translateWithin]
  simp only [Description.only]
  cases columns? d.selection <;> rfl

theorem translate_only_take :
    t.translate (d.only .take) =
      .ok ((d.only .take).plainQuery none none none []) := by
  rw [translate, hLevels, translateWithin]
  rfl

theorem translate_only_skip :
    t.translate (d.only .skip) =
      .ok ((d.only .skip).plainQuery none none none []) := by
  rw [translate, hLevels, translateWithin]
  rfl

theorem translate_only_orderBy :
    t.translate (d.only .orderBy) =
      (fun order =>
        Description.empty.plainQuery none none none
          order) <$> (d.sortKeys >>= t.sortTerms) := by
  rw [translate, hLevels, translateWithin]
  have hKeys : (d.only .orderBy).sortKeys = d.sortKeys := rfl
  rw [hKeys]
  cases d.sortKeys with
  | error e => rfl
  | ok keys =>
      change (t.sortTerms keys >>= _) = _ <$> t.sortTerms keys
      cases t.sortTerms keys <;> rfl

theorem translate_only_cursor :
    t.translate (d.only .cursor) =
      (do
        let keys ← d.sortKeys
        let order ← t.sortTerms keys
        t.applyCursor keys d.cursor
          (Description.empty.plainQuery none none none
            order)) := by
  rw [translate, hLevels, translateWithin]
  rfl

end Parts

------------------------------------------------------------
-- The First Error
------------------------------------------------------------

/- Whether a cursor applies does not depend on the query. -/
theorem outcome_applyCursor
    (t : Translator)
    (keys : List SortKey)
    (cursor? : Option Json.Members)
    (q r : Query) :
    outcome (t.applyCursor keys cursor? q) =
      outcome (t.applyCursor keys cursor? r) := by
  cases cursor? with
  | none => rfl
  | some members =>
      simp only [applyCursor]
      cases t.cursorKeys keys members <;> rfl

/- A translation succeeds or fails as its steps in order. -/
theorem outcome_translate
    (t : Translator)
    (d : Description) :
    outcome (t.translate d) = inOrder (t.steps d) := by
  cases hLevels : t.settings.maxDepth with
  | zero =>
      have hDepth :
          Filter.checkDepth 0 1 =
            .error (.nestingTooDeep 0) :=
        rfl
      rw [steps, translate, hLevels, translateWithin,
        hLevels, hDepth]
      rfl
  | succ levels =>
      have hDepth :
          Filter.checkDepth (levels + 1) 1 = .ok () := by
        simp [Filter.checkDepth]
      simp only [steps, Description.Member.all, List.map_cons,
        List.map_nil, translate_only_filter hLevels,
        translate_only_relations hLevels,
        translate_only_selection hLevels,
        translate_only_take hLevels,
        translate_only_skip hLevels,
        translate_only_orderBy hLevels,
        translate_only_cursor hLevels, outcome_map, hLevels,
        hDepth]
      rw [translate, hLevels, translateWithin]
      refine outcome_bind fun condition _ => ?_
      refine outcome_bind fun relations _ => ?_
      refine outcome_bind fun columns _ => ?_
      -- The order is a step of its own and one of the cursor.
      cases d.sortKeys with
      | error e => rfl
      | ok keys =>
          simp only [bind, Except.bind]
          cases t.sortTerms keys with
          | error e => rfl
          | ok order =>
              have hCursor :=
                t.outcome_applyCursor keys d.cursor
                  (d.plainQuery condition relations columns
                    order)
                  (Description.empty.plainQuery none none
                    none order)
              exact hCursor.trans (inOrder_singleton _).symm

------------------------------------------------------------
-- The Query
------------------------------------------------------------

variable {t : Translator}
variable {d other : Description}
variable {q r : Query}

/- A translated query is put together from its parts. -/
theorem assembles_of_translate
    (hQuery : t.translate d = .ok q) : t.Assembles d q := by
  cases hLevels : t.settings.maxDepth with
  | zero =>
      rw [translate, hLevels] at hQuery
      cases hQuery
  | succ levels =>
      rw [translate, hLevels, translateWithin_succ_eq_ok_iff]
        at hQuery
      rcases hQuery with
        ⟨condition, relations, columns, keys, order,
          hCondition, hRelations, hColumns, hKeys, hOrder,
          hApply⟩
      have hFilter := translate_only_filter hLevels d
      have hIncluded := translate_only_relations hLevels d
      have hSelected := translate_only_selection hLevels d
      have hSorted := translate_only_orderBy hLevels d
      rw [hCondition] at hFilter
      rw [hRelations] at hIncluded
      rw [hColumns] at hSelected
      have hTerms :
          (d.sortKeys >>= t.sortTerms) = .ok order :=
        bind_eq_ok_iff.mpr ⟨keys, hKeys, hOrder⟩
      rw [hTerms] at hSorted
      cases hCursor : d.cursor with
      | none =>
          rw [hCursor] at hApply
          cases hApply
          exact {
            relations := ⟨_, hIncluded, rfl⟩
            columns := ⟨_, hSelected, rfl⟩
            limit := rfl
            offset := rfl
            plain := fun _ =>
              ⟨⟨_, hFilter, rfl⟩, ⟨_, hSorted, rfl⟩⟩
            paged := by simp [hCursor] }
      | some members =>
          rw [hCursor, applyCursor_eq_ok_iff] at hApply
          rcases hApply with
            ⟨primary, secondary, hPair, rfl⟩
          have hAfter :
              t.keysAfter d.orderBy members =
                .ok (primary, secondary) :=
            bind_eq_ok_iff.mpr ⟨keys, hKeys, hPair⟩
          exact {
            relations := ⟨_, hIncluded, rfl⟩
            columns := ⟨_, hSelected, rfl⟩
            limit := rfl
            offset := rfl
            plain := by simp [hCursor]
            paged := by
              intro others hOthers
              cases hCursor.symm.trans hOthers
              exact ⟨_, primary, secondary, hFilter, hAfter,
                rfl, rfl⟩ }

end Translator

/-
  What two descriptions share gives the same in the queries
  of both. A cursor is shared if its directions are, too.
-/
structure Query.SharesWith
    (d other : Description)
    (q r : Query) : Prop where
  relations :
    d.relations = other.relations →
      q.relations = r.relations
  columns :
    d.selection = other.selection → q.columns = r.columns
  limit : d.take = other.take → q.limit = r.limit
  offset : d.skip = other.skip → q.offset = r.offset
  condition :
    d.filter = other.filter → d.cursor = other.cursor →
      d.cursor = none ∨ d.orderBy = other.orderBy →
        q.condition = r.condition
  order :
    d.orderBy = other.orderBy → d.cursor = other.cursor →
      q.order = r.order

namespace Translator

open Except

variable {t : Translator}
variable {d other : Description}
variable {q r : Query}

/- The same member alone gives the same part. -/
theorem GivesAlone.unique
    {α : Type}
    {member : Description.Member}
    {part : Query → α}
    (hOnly : d.only member = other.only member)
    (hQuery : t.GivesAlone d member part q)
    (hOther : t.GivesAlone other member part r) :
    part q = part r := by
  rcases hQuery with ⟨alone, hAlone, hPart⟩
  rcases hOther with ⟨more, hMore, hSame⟩
  rw [hOnly, hMore] at hAlone
  cases hAlone
  rw [hPart, hSame]

section Assembled

variable (hQuery : t.Assembles d q)
variable (hOther : t.Assembles other r)

include hQuery hOther

theorem condition_of_assembles
    (hFilter : d.filter = other.filter)
    (hCursor : d.cursor = other.cursor)
    (hOrder : d.cursor = none ∨ d.orderBy = other.orderBy) :
    q.condition = r.condition := by
  have hOnly : d.only .filter = other.only .filter := by
    simp only [Description.only, hFilter]
  cases hMembers : d.cursor with
  | none =>
      exact GivesAlone.unique hOnly
        (hQuery.plain hMembers).1
        (hOther.plain (hCursor.symm.trans hMembers)).1
  | some members =>
      have hSame : d.orderBy = other.orderBy := by
        simpa [hMembers] using hOrder
      rcases hQuery.paged members hMembers with
        ⟨alone, primary, secondary, hAlone, hKeys,
          hCondition, _⟩
      rcases hOther.paged members (hCursor.symm.trans hMembers) with
        ⟨more, first, second, hMore, hOthers, hResult, _⟩
      rw [hOnly, hMore] at hAlone
      cases hAlone
      rw [hSame, hOthers] at hKeys
      cases hKeys
      rw [hCondition, hResult]
      rfl

theorem order_of_assembles
    (hOrder : d.orderBy = other.orderBy)
    (hCursor : d.cursor = other.cursor) :
    q.order = r.order := by
  have hOnly : d.only .orderBy = other.only .orderBy := by
    simp only [Description.only, hOrder]
  cases hMembers : d.cursor with
  | none =>
      exact GivesAlone.unique hOnly
        (hQuery.plain hMembers).2
        (hOther.plain (hCursor.symm.trans hMembers)).2
  | some members =>
      rcases hQuery.paged members hMembers with
        ⟨alone, primary, secondary, _, hKeys, _, hTerms⟩
      rcases hOther.paged members (hCursor.symm.trans hMembers) with
        ⟨more, first, second, _, hOthers, _, hResult⟩
      rw [hOrder, hOthers] at hKeys
      cases hKeys
      rw [hTerms, hResult]
      rfl

theorem sharesWith_of_assembles :
    Query.SharesWith d other q r where
  relations := by
    intro hShared
    refine GivesAlone.unique ?_ hQuery.relations
      hOther.relations
    simp only [Description.only, hShared]
  columns := by
    intro hShared
    refine GivesAlone.unique ?_ hQuery.columns
      hOther.columns
    simp only [Description.only, hShared]
  limit := by
    intro hShared
    rw [hQuery.limit, hOther.limit, hShared]
  offset := by
    intro hShared
    rw [hQuery.offset, hOther.offset, hShared]
  condition :=
    condition_of_assembles hQuery hOther
  order := order_of_assembles hQuery hOther

end Assembled

------------------------------------------------------------
-- Relations
------------------------------------------------------------

/- A value gives one relation only. -/
theorem Includes.unique
    {inner : Translator}
    {value : Json}
    {relation more : Relation}
    (hFirst : inner.Includes value relation)
    (hSecond : inner.Includes value more) :
    relation = more := by
  cases hFirst with
  | nested _ hQuery =>
      cases hSecond with
      | nested _ hOther =>
          rw [hOther] at hQuery
          cases hQuery
          rfl
      | flag hFlag => exact absurd rfl (hFlag _)
  | flag hFlag =>
      cases hSecond with
      | nested _ _ => exact absurd rfl (hFlag _)
      | flag _ => rfl

/- The translator of the relations at the end of a path. -/
def below (t : Translator) (path : List String) : Translator :=
  t.withMaxDepth (t.settings.maxDepth - 1 - path.length)

theorem includes_below
    (hQuery : t.translate d = .ok q)
    (name : String)
    (path : List String) :
    Option.Rel (t.below path).Includes
      (d.includedAt? name path)
      (q.relationAt? name path) := by
  cases hLevels : t.settings.maxDepth with
  | zero =>
      rw [translate, hLevels] at hQuery
      cases hQuery
  | succ most =>
      have hSame : t = t.withMaxDepth (most + 1) := by
        rw [← hLevels]
        rfl
      rw [hSame] at hQuery
      rw [below, hLevels, Nat.add_sub_cancel]
      exact includes_along hQuery name path

/- An object at the end of a path is translated there. -/
theorem exists_nested_of_translate
    {name : String}
    {path : List String}
    {members : Json.Members}
    {inner : Description}
    (hQuery : t.translate d = .ok q)
    (hIncluded :
      d.includedAt? name path = some (.object members))
    (hRead : Description.ofMembers members = .ok inner) :
    ∃ p, q.relationAt? name path = some (.nested p) ∧
      (t.below path).translate inner = .ok p := by
  have hIncludes := includes_below hQuery name path
  rw [hIncluded] at hIncludes
  generalize q.relationAt? name path = relation? at hIncludes
  cases hIncludes with
  | some hRelation =>
      cases hRelation with
      | nested _ hInner =>
          rw [translateJson_object hRead] at hInner
          exact ⟨_, rfl, hInner⟩
      | flag hFlag => exact absurd rfl (hFlag members)

/- The same value at the end of a path gives the same. -/
theorem relationAt?_eq
    {name : String}
    {path : List String}
    (hQuery : t.translate d = .ok q)
    (hOther : t.translate other = .ok r)
    (hIncluded :
      d.includedAt? name path = other.includedAt? name path) :
    q.relationAt? name path = r.relationAt? name path := by
  have hFirst := includes_below hQuery name path
  have hSecond := includes_below hOther name path
  rw [← hIncluded] at hSecond
  generalize d.includedAt? name path = value?
    at hFirst hSecond
  generalize q.relationAt? name path = relation? at *
  generalize r.relationAt? name path = more? at *
  cases hFirst with
  | none =>
      cases hSecond
      rfl
  | some hRelation =>
      cases hSecond with
      | some hMore => rw [hRelation.unique hMore]

------------------------------------------------------------
-- Independence
------------------------------------------------------------

/-
  A translation fails as the first of its steps that does. If
  none does, its query is put together from the members, each
  translated alone. So what descriptions share they translate
  alike, and this holds of the relations at the end of every
  path of names as well.
-/
theorem members_independent
    (t : Translator)
    (d : Description) :
    (∀ e, t.translate d = .error e ↔
      ∃ before after,
        t.steps d = before ++ .error e :: after ∧
        ∀ step ∈ before, step = .ok ()) ∧
    ((∀ step ∈ t.steps d, step = .ok ()) →
      ∃ q, t.translate d = .ok q ∧ t.Assembles d q) ∧
    ∀ other q r,
      t.translate d = .ok q → t.translate other = .ok r →
        Query.SharesWith d other q r ∧
        ∀ name path,
          (d.includedAt? name path =
              other.includedAt? name path →
            q.relationAt? name path =
              r.relationAt? name path) ∧
          ∀ members others inner more,
            d.includedAt? name path =
                some (.object members) →
            Description.ofMembers members = .ok inner →
            other.includedAt? name path =
                some (.object others) →
            Description.ofMembers others = .ok more →
              ∃ p s,
                q.relationAt? name path =
                  some (.nested p) ∧
                r.relationAt? name path =
                  some (.nested s) ∧
                Query.SharesWith inner more p s := by
  have hOutcome := t.outcome_translate d
  refine ⟨?_, ?_, ?_⟩
  · intro e
    rw [← outcome_eq_error_iff, hOutcome,
      inOrder_eq_error_iff]
  · intro hSteps
    rw [← inOrder_eq_ok_iff, ← hOutcome, outcome_eq_ok_iff]
      at hSteps
    rcases hSteps with ⟨q, hQuery⟩
    exact ⟨q, hQuery, assembles_of_translate hQuery⟩
  · intro other q r hQuery hOther
    refine ⟨?_, ?_⟩
    · exact sharesWith_of_assembles
        (assembles_of_translate hQuery)
        (assembles_of_translate hOther)
    · intro name path
      refine ⟨relationAt?_eq hQuery hOther, ?_⟩
      intro members others inner more hFirst hInner hSecond
        hMore
      rcases exists_nested_of_translate hQuery hFirst
          hInner with
        ⟨p, hNested, hPart⟩
      rcases exists_nested_of_translate hOther hSecond
          hMore with
        ⟨s, hBelow, hSame⟩
      exact ⟨p, s, hNested, hBelow, sharesWith_of_assembles
        (assembles_of_translate hPart)
        (assembles_of_translate hSame)⟩

/- A selection and an order, neither of which is valid. -/
def twoFaults : Description :=
  { Description.empty with
    selection := some [("id", .number (.integer 1))]
    orderBy := some (.single [("views", .string "up")]) }

/- Viewed authors after a cursor, with some of their posts. -/
def postsOfAuthors (count : Int) : Description :=
  { Description.empty with
    filter := some
      [("views", .object [("gt", .number (.integer 0))])]
    relations := some
      [("author", .object
        [("include", .object
          [("posts", .object
            [("take", .number (.integer count)),
              ("orderBy", .object
                [("views", .string "desc")])])])])]
    cursor := some [("views", .number (.integer 7))] }

/-
  Two faults are reported as the first. The number of posts
  changes neither which authors there are nor how the posts
  of an author are sorted.
-/
theorem members_independent_postsOfAuthors :
    viewsTranslator.translate twoFaults =
      .error (.unsupportedShape
        (.selectFlag "id" (.number (.integer 1)))) ∧
    (∃ q, viewsTranslator.translate (postsOfAuthors 2) =
        .ok q ∧
      viewsTranslator.Assembles (postsOfAuthors 2) q) ∧
    ∃ q r p s,
      viewsTranslator.translate (postsOfAuthors 2) = .ok q ∧
      viewsTranslator.translate (postsOfAuthors 5) = .ok r ∧
      q.condition = r.condition ∧
      q.relationAt? "author" ["posts"] = some (.nested p) ∧
      r.relationAt? "author" ["posts"] = some (.nested s) ∧
      p.limit = some 2 ∧ s.limit = some 5 ∧
      p.order = s.order := by
  refine ⟨?_, ?_, ?_⟩
  · refine ((viewsTranslator.members_independent
      twoFaults).1 _).mpr ?_
    exact ⟨[.ok (), .ok (), .ok ()],
      [.ok (), .ok (), .error _, .error _], rfl, by simp⟩
  · refine (viewsTranslator.members_independent
      (postsOfAuthors 2)).2.1 ?_
    have hSteps :
        viewsTranslator.steps (postsOfAuthors 2) =
          List.replicate 8 (.ok ()) :=
      rfl
    rw [hSteps]
    intro step hStep
    exact List.eq_of_mem_replicate hStep
  · rcases (viewsTranslator.members_independent
        (postsOfAuthors 2)).2.2 (postsOfAuthors 5) _ _ rfl
        rfl with
      ⟨hShared, hBelow⟩
    rcases (hBelow "author" ["posts"]).2 _ _ _ _ rfl rfl rfl
        rfl with
      ⟨p, s, hFirst, hSecond, hPosts⟩
    refine ⟨_, _, p, s, rfl, rfl,
      hShared.condition rfl rfl (.inr rfl), hFirst, hSecond,
      ?_, ?_, hPosts.order rfl rfl⟩
    · cases hFirst
      rfl
    · cases hSecond
      rfl

end Translator

end Criteria
