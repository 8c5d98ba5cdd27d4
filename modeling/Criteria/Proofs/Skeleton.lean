import Criteria.Proofs.FilterSkeleton
import Criteria.Proofs.TranslationSteps

/-
  This file relates descriptions that have the same skeleton.

  Such descriptions differ in scalar operands of their
  filters, in values of their cursors and in their counts,
  but not in which of them are null or absent. If both are
  translated and applied to a table, their statements differ
  in bound values only, each of them of the same type.

  Key definitions include:
    * `Description.SameSkeleton`
    * `Query.Alike`

  Main statements:
    * `Translator.paired_cursorKeys`
    * `Translator.paired_translate`
    * `Query.paired_statement`
-/

------------------------------------------------------------
-- Skeletons
------------------------------------------------------------

namespace Criteria

/- Members of cursors with the same key, null or not. -/
def Json.CursorAlike (member other : String × Json) : Prop :=
  other.1 = member.1 ∧
    (member.2 = .null ↔ other.2 = .null)

/-
  Descriptions that ask for the same with other values. Their
  relations are no part of a statement.
-/
structure Description.SameSkeleton
    (d e : Description) : Prop where
  filter :
    Option.Rel (List.Forall₂ Json.EntryAlike) d.filter
      e.filter
  selection : d.selection = e.selection
  take : d.take.isSome = e.take.isSome
  skip : d.skip.isSome = e.skip.isSome
  orderBy : d.orderBy = e.orderBy
  cursor :
    Option.Rel (List.Forall₂ Json.CursorAlike) d.cursor
      e.cursor

/- Queries that differ in values of the same types. -/
structure Query.Alike (q r : Query) : Prop where
  condition : Filter.OptionAlike q.condition r.condition
  columns : q.columns = r.columns
  limit : q.limit.isSome = r.limit.isSome
  offset : q.offset.isSome = r.offset.isSome
  order : q.order = r.order

end Criteria

------------------------------------------------------------
-- Cursors
------------------------------------------------------------

namespace Criteria

namespace Translator

open Except

variable {t : Translator}
variable {keys : List SortKey}
variable {members others : Json.Members}

theorem paired_cursorValue?
    {kind : Kind}
    {v w : Json}
    (hNull : v = .null ↔ w = .null) :
    Paired
      (fun a? b? =>
        a?.map Value.blank = b?.map Value.blank)
      (cursorValue? kind v) (cursorValue? kind w) := by
  by_cases hFirst : v = .null
  · rw [hFirst, hNull.mp hFirst]
    exact .refl _ fun _ => rfl
  · have hSecond : w ≠ .null := fun h => hFirst (hNull.mpr h)
    rw [cursorValue?_of_ne hFirst, cursorValue?_of_ne hSecond]
    exact (Coercion.paired_scalar v w).map
      fun a b hValue => congrArg some hValue

theorem paired_cursorKey
    {name : String}
    {v w : Json}
    (hNull : v = .null ↔ w = .null) :
    Paired (fun key other => key.blank = other.blank)
      (t.cursorKey keys name v) (t.cursorKey keys name w) := by
  refine .after _ fun field => ?_
  refine (paired_cursorValue? hNull).map
    fun a? b? hValue => ?_
  unfold Cursor.Key.blank
  rw [hValue]

theorem cursorAlike_filter
    (keep : String → Bool)
    (hMembers :
      List.Forall₂ Json.CursorAlike members others) :
    List.Forall₂ Json.CursorAlike
      (members.filter fun m => keep m.1)
      (others.filter fun m => keep m.1) := by
  refine List.rel_filter ?_ hMembers
  rintro member other ⟨hName, _⟩
  simp only [hName]

/- The first key is found at the same place. -/
theorem paired_primaryMember
    (tiebreaker : String)
    (hMembers :
      List.Forall₂ Json.CursorAlike members others) :
    Paired Json.CursorAlike
      (primaryMember tiebreaker members)
      (primaryMember tiebreaker others) := by
  have hOthers := cursorAlike_filter
    (fun name => decide (name ≠ tiebreaker)) hMembers
  have hTies := cursorAlike_filter
    (fun name => decide (name = tiebreaker)) hMembers
  intro member other hFirst hSecond
  -- Names are left out alike, so both runs end alike.
  rw [primaryMember_eq_ok_iff] at hFirst hSecond
  rcases hFirst with hFirst | ⟨hFirst, hFirstTie⟩
  · rw [hFirst] at hOthers
    rcases hSecond with hSecond | ⟨hSecond, _⟩
    · rw [hSecond] at hOthers
      cases hOthers with
      | cons hAlike _ => exact hAlike
    · rw [hSecond] at hOthers
      cases hOthers
  · rw [hFirst] at hOthers
    rcases hSecond with hSecond | ⟨hSecond, hSecondTie⟩
    · rw [hSecond] at hOthers
      cases hOthers
    · rw [← List.head?_filter, List.head?_eq_some_iff]
        at hFirstTie hSecondTie
      rcases hFirstTie with ⟨rest, hFirstTie⟩
      rcases hSecondTie with ⟨more, hSecondTie⟩
      rw [hFirstTie, hSecondTie] at hTies
      cases hTies with
      | cons hAlike _ => exact hAlike

/- Cursors alike have keys that differ in values only. -/
theorem paired_cursorKeys
    (hMembers :
      List.Forall₂ Json.CursorAlike members others) :
    Paired
      (fun pair other =>
        pair.1.blank = other.1.blank ∧
        pair.2.map Cursor.Key.blank =
          other.2.map Cursor.Key.blank)
      (t.cursorKeys keys members)
      (t.cursorKeys keys others) := by
  refine (paired_primaryMember _ hMembers).bind
    fun member other hMember => ?_
  rcases member with ⟨name, v⟩
  rcases other with ⟨_, w⟩
  rcases hMember with ⟨rfl, hNull⟩
  refine (paired_cursorKey hNull).bind
    fun primary second hPrimary => ?_
  split
  · exact .ok ⟨hPrimary, rfl⟩
  · have hTie :
        (members.lookup t.settings.tiebreaker).getD .null =
            .null ↔
          (others.lookup t.settings.tiebreaker).getD .null =
            .null := by
      have hFound := NameMap.lookup_of_forall₂
        (R := fun v w : Json => v = .null ↔ w = .null)
        hMembers t.settings.tiebreaker
      generalize members.lookup t.settings.tiebreaker = v?
        at hFound
      generalize others.lookup t.settings.tiebreaker = w?
        at hFound
      cases hFound with
      | none => exact Iff.rfl
      | some hTieNull => exact hTieNull
    refine (paired_cursorKey hTie).map
      fun key other hKey => ?_
    exact ⟨hPrimary, congrArg some hKey⟩

/- After cursors alike queries stay alike. -/
theorem paired_applyCursor
    {cursor? other? : Option Json.Members}
    (hCursor :
      Option.Rel (List.Forall₂ Json.CursorAlike) cursor?
        other?)
    {q r : Query}
    (hQuery : q.Alike r) :
    Paired Query.Alike (t.applyCursor keys cursor? q)
      (t.applyCursor keys other? r) := by
  cases hCursor with
  | none => exact .ok hQuery
  | some hMembers =>
      refine (paired_cursorKeys hMembers).map ?_
      rintro ⟨primary, secondary⟩ ⟨first, second⟩
        ⟨hPrimary, hSecondary⟩
      have hTerm : primary.blank.term = first.blank.term :=
        congrArg Cursor.Key.term hPrimary
      rw [Cursor.Key.term_blank, Cursor.Key.term_blank]
        at hTerm
      have hTerms :
          secondary.map Cursor.Key.term =
            second.map Cursor.Key.term := by
        have hBlank := congrArg
          (Option.map Cursor.Key.term) hSecondary
        rw [Option.map_map, Option.map_map] at hBlank
        exact hBlank
      have hBoundary :
          (Cursor.boundary? primary secondary).map
              Condition.blank =
            (Cursor.boundary? first second).map
              Condition.blank := by
        rw [Cursor.boundary?_blank, Cursor.boundary?_blank,
          hPrimary, hSecondary]
      have hCondition :
          Filter.OptionAlike
            (Cursor.both q.condition
              (Cursor.boundary? primary secondary))
            (Cursor.both r.condition
              (Cursor.boundary? first second)) := by
        unfold Filter.OptionAlike
        rw [Cursor.both_blank, Cursor.both_blank, hBoundary,
          hQuery.condition]
      exact {
        condition := hCondition
        columns := hQuery.columns
        limit := hQuery.limit
        offset := hQuery.offset
        order := by
          simp only [Cursor.paginate, hTerm, hTerms] }

------------------------------------------------------------
-- Descriptions
------------------------------------------------------------

theorem paired_filterCondition?
    {filter? other? : Option Json.Members}
    (hFilter :
      Option.Rel (List.Forall₂ Json.EntryAlike) filter?
        other?) :
    Paired Filter.OptionAlike (t.filterCondition? filter?)
      (t.filterCondition? other?) := by
  cases hFilter with
  | none => exact .ok rfl
  | some hMembers =>
      refine (Filter.paired_ofMembers _ _ hMembers).bind
        fun f g hAlike => ?_
      exact Filter.paired_condition? .conjunctive hAlike

/- Descriptions of the same skeleton give queries alike. -/
theorem paired_translate
    {d e : Description}
    (hSkeleton : d.SameSkeleton e) :
    Paired Query.Alike (t.translate d) (t.translate e) := by
  unfold translate
  cases t.settings.maxDepth with
  | zero => exact .error _
  | succ levels =>
      intro q r hFirst hSecond
      rcases translateWithin_succ_eq_ok_iff.mp hFirst with
        ⟨condition, relations, columns, keys, order,
          hCondition, _, hColumns, hKeys, hOrder, hQuery⟩
      rcases translateWithin_succ_eq_ok_iff.mp hSecond with
        ⟨other, others, names, more, terms, hOther, _,
          hNames, hMore, hTerms, hResult⟩
      have hSameColumns : columns = names := by
        rw [hSkeleton.selection, hNames] at hColumns
        exact (Except.ok.inj hColumns).symm
      have hSameKeys : keys = more := by
        unfold Description.sortKeys at hKeys hMore
        rw [hSkeleton.orderBy, hMore] at hKeys
        exact (Except.ok.inj hKeys).symm
      have hSameOrder : order = terms := by
        rw [hSameKeys, hTerms] at hOrder
        exact (Except.ok.inj hOrder).symm
      have hPlain :
          (d.plainQuery condition relations columns
              order).Alike
            (e.plainQuery other others names terms) := {
        condition := paired_filterCondition? hSkeleton.filter
          condition other hCondition hOther
        columns := hSameColumns
        limit := hSkeleton.take
        offset := hSkeleton.skip
        order := hSameOrder }
      subst hSameKeys
      exact paired_applyCursor hSkeleton.cursor hPlain q r
        hQuery hResult

end Translator

------------------------------------------------------------
-- Statements
------------------------------------------------------------

theorem Statement.blankCount_eq
    {count other : Option UInt64}
    (hCount : count.isSome = other.isSome) :
    blankCount count = blankCount other := by
  cases count <;> cases other <;> simp_all [blankCount]

/- Queries alike give statements that differ in values only. -/
theorem Query.paired_statement
    {q r : Query}
    (hQuery : q.Alike r)
    (table : Table)
    (schema : Schema) :
    Except.Paired (fun s u => s.blank = u.blank)
      (q.statement table schema)
      (r.statement table schema) := by
  have hColumns :
      q.selectedColumns schema = r.selectedColumns schema := by
    unfold selectedColumns selectedNames
    rw [hQuery.columns]
  unfold statement
  rw [hColumns]
  refine .after _ fun selected => .ok ?_
  have hCondition :
      q.condition.map Condition.blank =
        r.condition.map Condition.blank :=
    hQuery.condition
  unfold Statement.blank
  rw [hCondition, hQuery.order,
    Statement.blankCount_eq hQuery.limit,
    Statement.blankCount_eq hQuery.offset]

end Criteria
