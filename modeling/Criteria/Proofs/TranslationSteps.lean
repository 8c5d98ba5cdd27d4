import Criteria.Proofs.CursorWalk
import Criteria.Statement

/-
  This file takes translations apart into their steps.

  Each lemma says exactly when a step succeeds and what it
  then gives, so that no later proof opens a definition of
  the translation.

  Key definitions include:
    * `Description.plainQuery`

  Main statements:
    * `NameMap.lookup_of_forall₂`
    * `Description.setMember_of_ne`
    * `Description.setNamed_eq_ok_iff`
    * `Translator.cursorKeys_eq_ok_iff`
    * `Translator.applyCursor_eq_ok_iff`
    * `Translator.relations?_eq_ok_iff`
    * `Translator.translateWithin_succ_eq_ok_iff`
    * `Query.statement_eq_ok_iff`
-/

------------------------------------------------------------
-- Members
------------------------------------------------------------

namespace Criteria

/- Lists of related values relate what is found in them. -/
theorem NameMap.lookup_of_forall₂
    {α β : Type}
    {R : α → β → Prop}
    {entries : List (String × α)}
    {others : List (String × β)}
    (hEntries :
      List.Forall₂
        (fun entry other =>
          other.1 = entry.1 ∧ R entry.2 other.2)
        entries others)
    (name : String) :
    Option.Rel R (entries.lookup name)
      (others.lookup name) := by
  induction hEntries with
  | nil => exact .none
  | cons hFirst _ ih =>
      rename_i entry other rest more _
      rcases entry with ⟨key, value⟩
      rcases other with ⟨_, related⟩
      rcases hFirst with ⟨rfl, hRelated⟩
      rw [lookup_cons_eq_if, lookup_cons_eq_if]
      split
      · exact .some hRelated
      · exact ih

namespace Description

/- A value that is not null is read as its member asks. -/
theorem setMember_of_ne
    {value : Json}
    (hValue : value ≠ .null)
    (d : Description)
    (member : Member) :
    d.setMember member value =
      match member with
      | .filter =>
          (fun ms => { d with filter := some ms }) <$>
            readMembers value
      | .relations =>
          (fun ms => { d with relations := some ms }) <$>
            readMembers value
      | .selection =>
          (fun ms => { d with selection := some ms }) <$>
            readMembers value
      | .take =>
          (fun n => { d with take := some n }) <$>
            readCount value
      | .skip =>
          (fun n => { d with skip := some n }) <$>
            readCount value
      | .orderBy =>
          (fun order => { d with orderBy := some order }) <$>
            readOrderBy value
      | .cursor =>
          (fun ms => { d with cursor := some ms }) <$>
            readMembers value := by
  cases value with
  | null => exact absurd rfl hValue
  | _ => cases member <;> rfl

/- A named value is set as the member that has the name. -/
theorem setNamed_eq_ok_iff
    {d read : Description}
    {key : String}
    {value : Json} :
    d.setNamed (key, value) = .ok read ↔
      ∃ member : Member, key = member.name ∧
        d.setMember member value = .ok read := by
  unfold setNamed
  simp only [← Member.ofName?_eq_some_iff]
  cases Member.ofName? key with
  | none => simp [fail]
  | some member => simp

end Description

end Criteria

------------------------------------------------------------
-- Cursors
------------------------------------------------------------

namespace Criteria

namespace Translator

open Except

variable {t : Translator}
variable {keys : List SortKey}
variable {members : Json.Members}

theorem cursorValue?_null (kind : Kind) :
    cursorValue? kind .null = .ok none :=
  rfl

theorem cursorValue?_of_ne
    {kind : Kind}
    {operand : Json}
    (hOperand : operand ≠ .null) :
    cursorValue? kind operand =
      some <$> Coercion.scalar "cursor" kind operand := by
  cases operand with
  | null => exact absurd rfl hOperand
  | _ => rfl

/- Only the operand of a key that is not null can fail. -/
theorem cursorValue?_eq_error_iff
    {kind : Kind}
    {operand : Json}
    {e : Error} :
    cursorValue? kind operand = .error e ↔
      operand ≠ .null ∧
        Coercion.scalar "cursor" kind operand = .error e := by
  by_cases hNull : operand = .null
  · simp [hNull, cursorValue?_null]
  · rw [cursorValue?_of_ne hNull, map_eq_error_iff]
    exact (and_iff_right hNull).symm

/- A key of a known field, with what its operand gives. -/
theorem cursorKey_eq_ok_iff
    {name : String}
    {operand : Json}
    {key : Cursor.Key} :
    t.cursorKey keys name operand = .ok key ↔
      ∃ field value?,
        t.schema.resolve name = .ok field ∧
        cursorValue? field.kind operand = .ok value? ∧
        key = ⟨name, field.column,
          SortKey.directionIn keys name, value?⟩ := by
  unfold cursorKey
  simp only [bind_eq_ok_iff]
  constructor
  · rintro ⟨field, hField, value?, hValue, hKey⟩
    exact ⟨field, value?, hField, hValue,
      (Except.ok.inj hKey).symm⟩
  · rintro ⟨field, value?, hField, hValue, rfl⟩
    exact ⟨field, hField, value?, hValue, rfl⟩

/-
  The first key is the one member besides the tiebreaker, and
  the tiebreaker is then the second. It is the first where
  there is no other member.
-/
theorem cursorKeys_eq_ok_iff
    {primary : Cursor.Key}
    {secondary : Option Cursor.Key} :
    t.cursorKeys keys members = .ok (primary, secondary) ↔
      ∃ name operand,
        primaryMember t.settings.tiebreaker members =
          .ok (name, operand) ∧
        t.cursorKey keys name operand = .ok primary ∧
        ((name = t.settings.tiebreaker ∧
          secondary = none) ∨
        (name ≠ t.settings.tiebreaker ∧ ∃ key,
          t.cursorKey keys t.settings.tiebreaker
              ((members.lookup
                t.settings.tiebreaker).getD .null) =
            .ok key ∧
          secondary = some key)) := by
  unfold cursorKeys
  simp only [bind_eq_ok_iff]
  constructor
  · rintro ⟨⟨name, operand⟩, hMember, first, hFirst, hKeys⟩
    by_cases hName : name = t.settings.tiebreaker
    · rw [if_pos hName] at hKeys
      cases hKeys
      exact ⟨name, operand, hMember, hFirst,
        .inl ⟨hName, rfl⟩⟩
    · rw [if_neg hName, bind_eq_ok_iff] at hKeys
      rcases hKeys with ⟨key, hKey, hPair⟩
      cases hPair
      exact ⟨name, operand, hMember, hFirst,
        .inr ⟨hName, key, hKey, rfl⟩⟩
  · rintro ⟨name, operand, hMember, hFirst, hKeys⟩
    refine ⟨(name, operand), hMember, primary, hFirst, ?_⟩
    rcases hKeys with ⟨hName, rfl⟩ | ⟨hName, key, hKey, rfl⟩
    · rw [if_pos hName]
      rfl
    · rw [if_neg hName, bind_eq_ok_iff]
      exact ⟨key, hKey, rfl⟩

/- The first member is the only one of its kind. -/
theorem primaryMember_eq_ok_iff
    {tiebreaker : String}
    {member : String × Json} :
    primaryMember tiebreaker members = .ok member ↔
      (members.filter fun m => m.1 ≠ tiebreaker) =
          [member] ∨
        ((members.filter fun m => m.1 ≠ tiebreaker) = [] ∧
          (members.find? fun m => m.1 = tiebreaker) =
            some member) := by
  unfold primaryMember
  generalize (members.filter fun m => m.1 ≠ tiebreaker) =
    others
  match others with
  | [] =>
      cases members.find? fun m => m.1 = tiebreaker <;> simp
  | [other] => simp
  | first :: second :: rest => simp

/- The first member stands under its name. -/
theorem primaryMember_cases
    {tiebreaker name : String}
    {operand : Json}
    (hMember :
      primaryMember tiebreaker members =
        .ok (name, operand)) :
    members.lookup name = some operand ∧
    ((name = tiebreaker ∧
        (members.find? fun m => m.1 ≠ tiebreaker) = none) ∨
      (name ≠ tiebreaker ∧
        (members.find? fun m => m.1 ≠ tiebreaker) =
          some (name, operand))) := by
  rcases primaryMember_eq_ok_iff.mp hMember with
    hOther | ⟨hNone, hTie⟩
  · have hName : name ≠ tiebreaker := by
      have hIn :
          (name, operand) ∈
            members.filter fun m => m.1 ≠ tiebreaker := by
        rw [hOther]
        exact List.mem_singleton_self _
      simpa using (List.mem_filter.mp hIn).2
    refine ⟨?_, .inr ⟨hName, ?_⟩⟩
    · rw [← NameMap.lookup_filter_ne hName, hOther]
      simp
    · rw [← List.head?_filter, hOther]
      rfl
  · have hName : name = tiebreaker := by
      simpa using List.find?_some hTie
    refine ⟨?_, .inl ⟨hName, ?_⟩⟩
    · rw [NameMap.lookup_eq_find?, hName, hTie]
      rfl
    · rw [← List.head?_filter, hNone]
      rfl

/- With a cursor a query begins after the keys of it. -/
theorem applyCursor_eq_ok_iff
    {q r : Query} :
    t.applyCursor keys (some members) q = .ok r ↔
      ∃ primary secondary,
        t.cursorKeys keys members =
          .ok (primary, secondary) ∧
        r = pagedQuery q primary secondary := by
  constructor
  · intro hApply
    rcases bind_eq_ok_iff.mp hApply with
      ⟨⟨primary, secondary⟩, hKeys, hQuery⟩
    exact ⟨primary, secondary, hKeys,
      (Except.ok.inj hQuery).symm⟩
  · rintro ⟨primary, secondary, hKeys, rfl⟩
    exact applyCursor_eq_ok hKeys

------------------------------------------------------------
-- Members of a Description
------------------------------------------------------------

/- A relation is a description without a filter, or a flag. -/
theorem relation_eq_ok_iff
    {translate : Description → Except Error Query}
    {name : String}
    {value : Json}
    {entry : String × Relation} :
    relation translate (name, value) = .ok entry ↔
      (∃ members d q, value = .object members ∧
        Description.ofMembers members = .ok d ∧
        d.filter = none ∧ translate d = .ok q ∧
        entry = (name, .nested q)) ∨
      ((∀ members, value ≠ .object members) ∧
        entry = (name, .flag value)) := by
  cases value with
  | object members =>
      simp only [relation, bind_eq_ok_iff]
      constructor
      · rintro ⟨d, hRead, hRelation⟩
        cases hFilter : d.filter with
        | some filter =>
            simp only [hFilter, Option.isSome_some, if_true]
              at hRelation
            cases hRelation
        | none =>
            simp only [hFilter, Option.isSome_none,
              Bool.false_eq_true, if_false, bind_eq_ok_iff]
              at hRelation
            rcases hRelation with ⟨q, hQuery, hEntry⟩
            exact .inl ⟨members, d, q, rfl, hRead, hFilter,
              hQuery, (Except.ok.inj hEntry).symm⟩
      · rintro (⟨_, d, q, hMembers, hRead, hFilter, hQuery,
          rfl⟩ | ⟨hFlag, _⟩)
        · cases hMembers
          refine ⟨d, hRead, ?_⟩
          simp only [hFilter, Option.isSome_none,
            Bool.false_eq_true, if_false, hQuery]
          rfl
        · exact absurd rfl (hFlag members)
  | _ =>
      simp [relation, eq_comm (a := entry)]

/- It is refused as unreadable, for a filter, or as a query. -/
theorem relation_eq_error_iff
    {translate : Description → Except Error Query}
    {name : String}
    {value : Json}
    {e : Error} :
    relation translate (name, value) = .error e ↔
      ∃ members, value = .object members ∧
        (Description.ofMembers members = .error e ∨
        ∃ d, Description.ofMembers members = .ok d ∧
          ((d.filter ≠ none ∧
            e = .unsupportedShape (.nestedWhere name)) ∨
          (d.filter = none ∧ translate d = .error e))) := by
  cases value with
  | object members =>
      simp only [relation, bind_eq_error_iff,
        Json.object.injEq, exists_eq_left']
      refine or_congr_right (exists_congr fun d => ?_)
      refine and_congr_right fun _ => ?_
      cases hFilter : d.filter with
      | some filter =>
          simp [eq_comm (a := e)]
      | none =>
          have hNested :
              (do
                let q ← translate d
                return (name, Relation.nested q)) =
                  .error e ↔
                translate d = .error e :=
            map_eq_error_iff
          simpa using hNested
  | _ => simp [relation]

theorem relations?_eq_ok_iff
    {translate : Description → Except Error Query}
    {relations : Option (NameMap Relation)} :
    relations? translate (some members) = .ok relations ↔
      ∃ entries,
        members.mapM (relation translate) = .ok entries ∧
        relations = some (NameMap.ofList entries) := by
  simp only [relations?, bind_eq_ok_iff]
  constructor
  · rintro ⟨entries, hEntries, hRelations⟩
    exact ⟨entries, hEntries,
      (Except.ok.inj hRelations).symm⟩
  · rintro ⟨entries, hEntries, rfl⟩
    exact ⟨entries, hEntries, rfl⟩

theorem filterCondition?_eq_ok_iff
    {c? : Option Condition} :
    t.filterCondition? (some members) = .ok c? ↔
      ∃ f,
        Filter.parse t.settings.maxDepth members = .ok f ∧
        f.condition? t.schema .conjunctive = .ok c? :=
  bind_eq_ok_iff

end Translator

/- The query of a description before its cursor applies. -/
def Description.plainQuery
    (d : Description)
    (condition : Option Condition)
    (relations : Option (NameMap Relation))
    (columns : Option (NameMap Bool))
    (order : List SortTerm) : Query :=
  { condition := condition
    relations := relations
    columns := columns
    limit := d.take
    offset := d.skip
    order := order }

namespace Translator

open Except

variable {t : Translator}

/- A description is translated member by member. -/
theorem translateWithin_succ_eq_ok_iff
    {levels : Nat}
    {d : Description}
    {q : Query} :
    t.translateWithin (levels + 1) d = .ok q ↔
      ∃ condition relations columns keys order,
        t.filterCondition? d.filter = .ok condition ∧
        relations? (t.translateWithin levels) d.relations =
          .ok relations ∧
        columns? d.selection = .ok columns ∧
        d.sortKeys = .ok keys ∧
        t.sortTerms keys = .ok order ∧
        t.applyCursor keys d.cursor
            (d.plainQuery condition relations columns
              order) =
          .ok q := by
  rw [translateWithin]
  simp only [bind_eq_ok_iff, Description.plainQuery]
  constructor
  · rintro ⟨condition, hCondition, relations, hRelations,
      columns, hColumns, keys, hKeys, order, hOrder, hQuery⟩
    exact ⟨condition, relations, columns, keys, order,
      hCondition, hRelations, hColumns, hKeys, hOrder,
      hQuery⟩
  · rintro ⟨condition, relations, columns, keys, order,
      hCondition, hRelations, hColumns, hKeys, hOrder,
      hQuery⟩
    exact ⟨condition, hCondition, relations, hRelations,
      columns, hColumns, keys, hKeys, order, hOrder, hQuery⟩

end Translator

------------------------------------------------------------
-- Statements
------------------------------------------------------------

/- A statement has the selected columns, or else all. -/
theorem Query.statement_eq_ok_iff
    {q : Query}
    {table : Table}
    {schema : Schema}
    {s : Statement} :
    q.statement table schema = .ok s ↔
      ∃ selected,
        q.selectedColumns schema = .ok selected ∧
        s = {
          table := table.name
          columns :=
            if selected = [] then table.columns
            else selected
          condition := q.condition
          order := q.order.map fun term =>
            (term.column, term.direction)
          limit := q.limit
          offset := q.offset } := by
  simp only [Query.statement, Except.bind_eq_ok_iff]
  constructor
  · rintro ⟨selected, hSelected, hStatement⟩
    exact ⟨selected, hSelected,
      (Except.ok.inj hStatement).symm⟩
  · rintro ⟨selected, hSelected, rfl⟩
    exact ⟨selected, hSelected, rfl⟩

end Criteria
