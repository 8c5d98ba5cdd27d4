import Criteria.Proofs.ByteOrder
import Criteria.Proofs.KnownNames
import Criteria.Proofs.Permutation
import Criteria.Proofs.Renaming

/-
  This file proves what the statement of a query says.

  A query is applied to a table unless it selects a name that
  the schema does not know; the first such name is the error.
  A statement has the columns of the selected names, and all
  columns of the table if no name is selected. All else of it
  is as the query has it. So of the selection of a description
  only the names that it gives true count, and the names of
  filters, orders and cursors never fail a statement.

  Key definitions include:
    * `Query.Selects`
    * `Query.InByteOrder`
    * `Query.FirstUnknown`
    * `Query.Mirrored`
    * `Query.clauses`
    * `Description.Chooses`
    * `Description.HasFlatSelection`

  Main statements:
    * `Query.statement_eq_error_iff`
    * `Query.exists_statement_eq_error_iff`
    * `Query.statement_eq_ok_iff_mirrored`
    * `Translator.agree_translate_of_chooses`
    * `Translator.statement_mirrors`
-/

------------------------------------------------------------
-- Statements of a Query
------------------------------------------------------------

namespace Criteria

open Except

namespace Query

/- A name is given true by the selection of a query. -/
def Selects
    (q : Query)
    (name : String) : Prop :=
  ∃ columns, q.columns = some columns ∧
    (name, true) ∈ columns

/- The names of a selection ascend by their bytes. -/
def InByteOrder (q : Query) : Prop :=
  ∀ columns, q.columns = some columns →
    columns.Pairwise fun a b =>
      Text.bytes a.1 < Text.bytes b.1

/- Of the selected names that are not known the first. -/
structure FirstUnknown
    (q : Query)
    (schema : Schema)
    (name : String) : Prop where
  selected : q.Selects name
  unknown : schema.find? name = none
  first :
    ∀ other, q.Selects other → schema.find? other = none →
      other = name ∨ Text.bytes name < Text.bytes other

/-
  What the statement of a query says: the columns of the
  selected names in the order of the names, or all columns
  if no name is selected, and all else from the query.
-/
structure Mirrored
    (q : Query)
    (table : Table)
    (schema : Schema)
    (s : Statement) : Prop where
  source : s.table = table.name
  all : (∀ name, ¬ q.Selects name) →
    s.columns = table.columns
  chosen : (∃ name, q.Selects name) →
    ∃ names,
      (names.Pairwise fun a b =>
        Text.bytes a < Text.bytes b) ∧
      (∀ name, name ∈ names ↔ q.Selects name) ∧
      List.Forall₂
        (fun name column => ∃ field,
          schema.find? name = some field ∧
          field.column = column)
        names s.columns
  condition : s.condition = q.condition
  order : s.order = q.order.map fun term =>
    (term.column, term.direction)
  limit : s.limit = q.limit
  offset : s.offset = q.offset

/-
  The clauses of the statement of a query, each where the
  query has something to put into it.
-/
def clauses
    (q : Query)
    (table : Table) : Sql :=
  (q.condition.toList.flatMap fun c =>
    .text " WHERE " :: c.sql) ++
  (if q.order = [] then []
  else
    [.text (" ORDER BY " ++ ", ".intercalate
      (q.order.map fun term =>
        Statement.qualified table.name term.column ++ " " ++
          Statement.directionWord term.direction))]) ++
  (q.limit.toList.flatMap fun n =>
    [.text " LIMIT ", .value (.unsigned n)]) ++
  (q.offset.toList.flatMap fun n =>
    [.text " OFFSET ", .value (.unsigned n)])

variable {q : Query}

theorem mem_selectedNames_iff (name : String) :
    name ∈ q.selectedNames ↔ q.Selects name := by
  unfold selectedNames Selects
  cases q.columns <;> simp

theorem ascending_selectedNames
    (hOrder : q.InByteOrder) :
    q.selectedNames.Pairwise (· < ·) := by
  unfold selectedNames
  unfold InByteOrder at hOrder
  cases hColumns : q.columns with
  | none => exact .nil
  | some columns =>
      apply NameMap.ascending_chosen
      exact (hOrder columns hColumns).imp
        fun hBytes => Text.bytes_lt_iff.mp hBytes

/- Columns are looked up by the selected names, in order. -/
theorem selectedColumns_eq_ok_iff
    {schema : Schema}
    {columns : List Column} :
    q.selectedColumns schema = .ok columns ↔
      List.Forall₂
        (fun name column => ∃ field,
          schema.find? name = some field ∧
          field.column = column)
        q.selectedNames columns := by
  unfold selectedColumns
  rw [mapM_eq_ok_iff]
  have hEach : ∀ (name : String) (column : Column),
      (do return (← schema.resolve name).column) =
          (.ok column : Except Error Column) ↔
        ∃ field, schema.find? name = some field ∧
          field.column = column := by
    intro name column
    simp only [← schema.resolve_eq_ok_iff]
    exact map_eq_ok_iff
  simp only [hEach]

theorem selectedColumns_eq_error_iff
    {schema : Schema}
    {e : Error} :
    q.selectedColumns schema = .error e ↔
      ∃ before name after,
        q.selectedNames = before ++ name :: after ∧
        (∀ other ∈ before, schema.find? other ≠ none) ∧
        schema.find? name = none ∧
        e = .invalidField name := by
  unfold selectedColumns
  rw [mapM_eq_error_iff]
  have hFound : ∀ name : String,
      (∃ column,
        (do return (← schema.resolve name).column) =
          (.ok column : Except Error Column)) ↔
        schema.find? name ≠ none := by
    intro name
    unfold Schema.resolve
    cases schema.find? name <;> simp [bind, Except.bind,
      pure, Except.pure]
  have hMissing : ∀ name : String,
      (do return (← schema.resolve name).column) =
          (.error e : Except Error Column) ↔
        schema.find? name = none ∧
          e = .invalidField name := by
    intro name
    rw [← schema.resolve_eq_error_iff]
    exact map_eq_error_iff
  simp only [hFound, hMissing]

/- A statement fails as the first unknown name does. -/
theorem statement_eq_error_iff
    (hOrder : q.InByteOrder)
    {table : Table}
    {schema : Schema}
    {e : Error} :
    q.statement table schema = .error e ↔
      ∃ name, q.FirstUnknown schema name ∧
        e = .invalidField name := by
  have hAscending := ascending_selectedNames hOrder
  have hStatement :
      q.statement table schema = .error e ↔
        q.selectedColumns schema = .error e :=
    map_eq_error_iff
  rw [hStatement, selectedColumns_eq_error_iff]
  constructor
  · rintro ⟨before, name, after, hNames, hBefore, hName, rfl⟩
    refine ⟨name, ⟨?_, hName, ?_⟩, rfl⟩
    · rw [← mem_selectedNames_iff, hNames]
      simp
    · intro other hOther hUnknown
      rw [← mem_selectedNames_iff, hNames,
        List.mem_append, List.mem_cons] at hOther
      rw [hNames] at hAscending
      rcases hOther with hEarlier | hSame | hLater
      · exact absurd hUnknown (hBefore other hEarlier)
      · exact .inl hSame
      · right
        apply Text.bytes_lt
        have hRest := (List.pairwise_append.mp hAscending).2.1
        exact (List.pairwise_cons.mp hRest).1 other hLater
  · rintro ⟨name, ⟨hSelected, hUnknown, hFirst⟩, rfl⟩
    rw [← mem_selectedNames_iff] at hSelected
    rcases List.append_of_mem hSelected with
      ⟨before, after, hNames⟩
    refine ⟨before, name, after, hNames, ?_, hUnknown, rfl⟩
    intro other hOther hMissing
    have hBefore : other < name := by
      rw [hNames] at hAscending
      exact (List.pairwise_append.mp hAscending).2.2 other
        hOther name List.mem_cons_self
    have hIn : q.Selects other := by
      rw [← mem_selectedNames_iff, hNames]
      exact List.mem_append_left _ hOther
    rcases hFirst other hIn hMissing with rfl | hBytes
    · exact String.lt_irrefl _ hBefore
    · exact String.lt_asymm hBefore
        (Text.bytes_lt_iff.mp hBytes)

/- A statement fails where a selected name is unknown. -/
theorem exists_statement_eq_error_iff
    {table : Table}
    {schema : Schema} :
    (∃ e, q.statement table schema = .error e) ↔
      ∃ name, q.Selects name ∧
        schema.find? name = none := by
  have hStatement :
      (∃ e, q.statement table schema = .error e) ↔
        ∃ e, q.selectedColumns schema = .error e :=
    exists_congr fun e => map_eq_error_iff
  rw [hStatement]
  constructor
  · rintro ⟨e, hError⟩
    rcases selectedColumns_eq_error_iff.mp hError with
      ⟨before, name, after, hNames, _, hUnknown, _⟩
    refine ⟨name, ?_, hUnknown⟩
    rw [← mem_selectedNames_iff, hNames]
    simp
  · rintro ⟨name, hSelected, hUnknown⟩
    rw [exists_eq_error_iff]
    rintro ⟨columns, hColumns⟩
    rcases exists_of_forall₂
        (selectedColumns_eq_ok_iff.mp hColumns)
        ((mem_selectedNames_iff name).mpr hSelected) with
      ⟨_, _, field, hFound, _⟩
    rw [hUnknown] at hFound
    cases hFound

/- The selected names are one list, in ascending order. -/
theorem eq_selectedNames
    (hOrder : q.InByteOrder)
    {names : List String}
    (hNames :
      names.Pairwise fun a b => Text.bytes a < Text.bytes b)
    (hMembers : ∀ name, name ∈ names ↔ q.Selects name) :
    names = q.selectedNames := by
  have hAscending : names.Pairwise (· < ·) :=
    hNames.imp fun hBytes => Text.bytes_lt_iff.mp hBytes
  refine hAscending.eq_of_mem_iff
    (ascending_selectedNames hOrder) fun name => ?_
  rw [hMembers, mem_selectedNames_iff]

theorem selectedNames_eq_nil_iff :
    q.selectedNames = [] ↔ ∀ name, ¬ q.Selects name := by
  rw [List.eq_nil_iff_forall_not_mem]
  simp only [mem_selectedNames_iff]

/- What is said of a statement is all there is to it. -/
theorem statement_eq_ok_iff_mirrored
    (hOrder : q.InByteOrder)
    {table : Table}
    {schema : Schema}
    {s : Statement} :
    q.statement table schema = .ok s ↔
      q.Mirrored table schema s := by
  rw [statement_eq_ok_iff]
  constructor
  · rintro ⟨selected, hSelected, rfl⟩
    have hColumns := selectedColumns_eq_ok_iff.mp hSelected
    refine ⟨rfl, ?_, ?_, rfl, rfl, rfl, rfl⟩
    · intro hNone
      rw [selectedNames_eq_nil_iff.mpr hNone,
        List.forall₂_nil_left_iff] at hColumns
      simp [hColumns]
    · rintro ⟨name, hName⟩
      have hSome : selected ≠ [] := by
        rintro rfl
        rw [List.forall₂_nil_right_iff] at hColumns
        exact selectedNames_eq_nil_iff.mp hColumns name hName
      refine ⟨q.selectedNames, ?_, mem_selectedNames_iff, ?_⟩
      · exact (ascending_selectedNames hOrder).imp
          fun hLess => Text.bytes_lt hLess
      · simpa [hSome] using hColumns
  · rintro ⟨hSource, hAll, hChosen, hCondition, hTerms,
      hLimit, hOffset⟩
    rcases s with ⟨source, columns, condition, terms, limit,
      offset⟩
    subst hSource hCondition hTerms hLimit hOffset
    by_cases hNone : ∀ name, ¬ q.Selects name
    · refine ⟨[], ?_, ?_⟩
      · rw [selectedColumns_eq_ok_iff,
          selectedNames_eq_nil_iff.mpr hNone]
        exact .nil
      · simpa using hAll hNone
    · have hSome : ∃ name, q.Selects name :=
        not_forall_not.mp hNone
      rcases hChosen hSome with
        ⟨names, hNames, hMembers, hColumns⟩
      rw [eq_selectedNames hOrder hNames hMembers] at hColumns
      refine ⟨columns,
        selectedColumns_eq_ok_iff.mpr hColumns, ?_⟩
      have hFilled : columns ≠ [] := by
        rintro rfl
        rw [List.forall₂_nil_right_iff] at hColumns
        exact hNone (selectedNames_eq_nil_iff.mp hColumns)
      simp [hFilled]

/- The text of a statement ends in the clauses of its query. -/
theorem Mirrored.sql_eq
    {table : Table}
    {schema : Schema}
    {s : Statement}
    (hMirrored : q.Mirrored table schema s) :
    s.sql = s.columnsSql ++ q.clauses table := by
  have hCondition :
      s.conditionSql =
        q.condition.toList.flatMap fun c =>
          .text " WHERE " :: c.sql := by
    rw [Statement.conditionSql, hMirrored.condition]
    cases q.condition <;> simp
  have hOrder :
      s.orderSql =
        if q.order = [] then []
        else
          [.text (" ORDER BY " ++ ", ".intercalate
            (q.order.map fun term =>
              Statement.qualified table.name term.column ++
                " " ++ Statement.directionWord
                  term.direction))] := by
    rw [Statement.orderSql, hMirrored.order,
      hMirrored.source]
    cases q.order with
    | nil => simp
    | cons term rest => simp [Function.comp_def]
  have hCount : ∀ word (count : Option UInt64),
      Statement.countSql word count =
        count.toList.flatMap fun n =>
          [.text word, .value (.unsigned n)] := by
    intro word count
    cases count <;> rfl
  rw [Statement.sql, hCondition, hOrder, hCount, hCount,
    hMirrored.limit, hMirrored.offset, clauses]
  simp only [List.append_assoc]

end Query

end Criteria

------------------------------------------------------------
-- Selections of a Description
------------------------------------------------------------

namespace Criteria

open Except

namespace Description

/- A name is given true in the selection of a description. -/
def Chooses
    (d : Description)
    (name : String) : Prop :=
  ∃ members, d.selection = some members ∧
    (name, .bool true) ∈ members

/- A selection gives distinct names true or false. -/
def HasFlatSelection (d : Description) : Prop :=
  ∀ members, d.selection = some members →
    NameMap.Distinct members ∧
    ∀ member ∈ members, ∃ b, member.2 = .bool b

end Description

/- Queries that give the same statements. -/
structure Query.SameStatement (q r : Query) : Prop where
  condition : q.condition = r.condition
  order : q.order = r.order
  limit : q.limit = r.limit
  offset : q.offset = r.offset
  names : q.selectedNames = r.selectedNames

theorem Query.SameStatement.statement_eq
    {q r : Query}
    (hSame : q.SameStatement r)
    (table : Table)
    (schema : Schema) :
    q.statement table schema = r.statement table schema := by
  unfold statement selectedColumns
  rw [hSame.condition, hSame.order, hSame.limit,
    hSame.offset, hSame.names]

namespace Translator

open Json

variable {t : Translator}

/- A flat member is selected as it says. -/
theorem selectColumn_eq_ok_iff
    {member : String × Json}
    {column : String × Bool} :
    selectColumn member = .ok column ↔
      member = (column.1, .bool column.2) := by
  rcases member with ⟨name, value⟩
  rcases column with ⟨other, b⟩
  cases value with
  | bool c => simp [selectColumn]
  | _ => simp [selectColumn]

/- A selection that is read gives each name true or false. -/
theorem columns?_eq_ok_iff
    {members : Members}
    {columns : Option (NameMap Bool)} :
    columns? (some members) = .ok columns ↔
      ∃ entries : List (String × Bool),
        members = entries.map (fun entry =>
          (entry.1, .bool entry.2)) ∧
        columns = some (NameMap.ofList entries) := by
  have hRead : ∀ entries : List (String × Bool),
      members.mapM selectColumn = .ok entries ↔
        members = entries.map fun entry =>
          (entry.1, .bool entry.2) := by
    intro entries
    rw [mapM_eq_ok_iff]
    simp only [selectColumn_eq_ok_iff]
    rw [← List.forall₂_map_right_iff
      (f := fun entry : String × Bool =>
        (entry.1, Json.bool entry.2)), List.forall₂_eq_eq_eq]
  simp only [columns?, selectColumns, bind_eq_ok_iff, hRead]
  constructor
  · rintro ⟨map, ⟨entries, hMembers, hMap⟩, hColumns⟩
    cases hMap
    exact ⟨entries, hMembers, (Except.ok.inj hColumns).symm⟩
  · rintro ⟨entries, hMembers, rfl⟩
    exact ⟨_, ⟨entries, hMembers, rfl⟩, rfl⟩

/- The selection of a query has what its description has. -/
theorem selects_of_columns?
    {d : Description}
    {columns : Option (NameMap Bool)}
    (hColumns : columns? d.selection = .ok columns)
    {q : Query}
    (hQuery : q.columns = columns) :
    q.InByteOrder ∧
      (∀ name, q.Selects name → d.Chooses name) ∧
      (d.HasFlatSelection →
        ∀ name, d.Chooses name → q.Selects name) := by
  cases hSelection : d.selection with
  | none =>
      rw [hSelection] at hColumns
      cases hColumns
      simp [Query.InByteOrder, Query.Selects,
        Description.Chooses, hQuery, hSelection]
  | some members =>
      rw [hSelection, columns?_eq_ok_iff] at hColumns
      rcases hColumns with ⟨entries, rfl, rfl⟩
      have hMember : ∀ name,
          d.Chooses name ↔ (name, true) ∈ entries := by
        intro name
        simp [Description.Chooses, hSelection]
      have hSelects : ∀ name, q.Selects name ↔
          (name, true) ∈ NameMap.ofList entries := by
        intro name
        simp [Query.Selects, hQuery]
      have hMap := NameMap.ascending_ofList entries
      refine ⟨?_, ?_, ?_⟩
      · intro map hFound
        cases hQuery.symm.trans hFound
        exact hMap.imp fun hLess => Text.bytes_lt hLess
      · intro name hName
        rw [hSelects, NameMap.mem_iff_lookup hMap,
          NameMap.lookup_ofList] at hName
        rcases List.lookup_eq_some_iff.mp hName with
          ⟨before, after, hEntries, _⟩
        rw [hMember, ← List.mem_reverse, hEntries]
        simp
      · intro hFlat name hName
        rw [hMember] at hName
        rw [hSelects]
        have hDistinct : NameMap.Distinct entries := by
          have hNames := (hFlat _ hSelection).1
          simpa [NameMap.Distinct, Function.comp_def]
            using hNames
        exact (NameMap.ofList_perm_self hDistinct).mem_iff.mpr
          hName

/- The selection of a translated query, read on its own. -/
theorem columns_of_translate
    {d : Description}
    {q : Query}
    (hQuery : t.translate d = .ok q) :
    columns? d.selection = .ok q.columns := by
  unfold translate at hQuery
  cases hLevels : t.settings.maxDepth with
  | zero =>
      rw [hLevels] at hQuery
      cases hQuery
  | succ levels =>
      rw [hLevels] at hQuery
      rcases translateWithin_succ_eq_ok_iff.mp hQuery with
        ⟨_, _, columns, _, _, _, _, hColumns, _, _, hApplied⟩
      rw [hColumns]
      cases hCursor : d.cursor with
      | none =>
          rw [hCursor] at hApplied
          cases hApplied
          rfl
      | some members =>
          rw [hCursor] at hApplied
          rcases applyCursor_eq_ok_iff.mp hApplied with
            ⟨_, _, _, rfl⟩
          rfl

/- A flat selection is read. -/
theorem exists_columns?
    {d : Description}
    (hFlat : d.HasFlatSelection) :
    ∃ columns, columns? d.selection = .ok columns := by
  cases hSelection : d.selection with
  | none => exact ⟨none, rfl⟩
  | some members =>
      have hEntries : ∃ entries,
          members.mapM selectColumn = .ok entries := by
        refine exists_mapM_eq_ok_iff.mpr fun member hIn => ?_
        rcases (hFlat members hSelection).2 member hIn with
          ⟨b, hValue⟩
        exact ⟨(member.1, b), selectColumn_eq_ok_iff.mpr
          (Prod.ext rfl hValue)⟩
      rcases hEntries with ⟨entries, hEntries⟩
      refine ⟨some (NameMap.ofList entries), ?_⟩
      rw [columns?, selectColumns, hEntries]
      rfl

/- A cursor applies whatever is selected. -/
theorem agree_applyCursor
    (keys : List SortKey)
    (cursor? : Option Members)
    {q r : Query}
    (hSame : q.SameStatement r) :
    Agree Query.SameStatement (t.applyCursor keys cursor? q)
      (t.applyCursor keys cursor? r) := by
  cases cursor? with
  | none => exact .ok hSame
  | some members =>
      refine .after _ fun pair => .ok ?_
      exact {
        condition := by rw [hSame.condition, hSame.limit]
        order := by rw [hSame.condition, hSame.limit]
        limit := by rw [hSame.condition, hSame.limit]
        offset := hSame.offset
        names := hSame.names }

/-
  Descriptions that differ in their selections only, and give
  the same names true, have the same statements.
-/
theorem agree_translate_of_chooses
    {d e : Description}
    (hElse : { d with selection := e.selection } = e)
    (hFirst : d.HasFlatSelection)
    (hSecond : e.HasFlatSelection)
    (hChooses : ∀ name, d.Chooses name ↔ e.Chooses name) :
    Agree Query.SameStatement (t.translate d)
      (t.translate e) := by
  rcases exists_columns? hFirst with ⟨columns, hColumns⟩
  rcases exists_columns? hSecond with ⟨others, hOthers⟩
  have hNames : ∀ q r : Query,
      q.columns = columns → r.columns = others →
        q.selectedNames = r.selectedNames := by
    intro q r hQ hR
    rcases selects_of_columns? hColumns hQ with
      ⟨hOrder, hFrom, hTo⟩
    rcases selects_of_columns? hOthers hR with
      ⟨hOther, hFromOther, hToOther⟩
    refine (Query.ascending_selectedNames hOrder).eq_of_mem_iff
      (Query.ascending_selectedNames hOther) fun name => ?_
    rw [Query.mem_selectedNames_iff,
      Query.mem_selectedNames_iff]
    constructor
    · intro hName
      exact hToOther hSecond name
        ((hChooses name).mp (hFrom name hName))
    · intro hName
      exact hTo hFirst name
        ((hChooses name).mpr (hFromOther name hName))
  unfold translate
  cases t.settings.maxDepth with
  | zero => exact .error _
  | succ levels =>
      rw [← hElse] at hOthers ⊢
      rw [translateWithin, translateWithin, hColumns, hOthers]
      refine .after _ fun condition => ?_
      refine .after _ fun relations => ?_
      have hRead :
          Agree (fun given other =>
              given = columns ∧ other = others)
            (.ok columns : Except Error _) (.ok others) :=
        .ok ⟨rfl, rfl⟩
      refine hRead.bind fun given other hGiven => ?_
      refine .after _ fun keys => ?_
      refine .after _ fun order => ?_
      exact agree_applyCursor keys d.cursor {
        condition := rfl
        order := rfl
        limit := rfl
        offset := rfl
        names := hNames _ _ hGiven.1 hGiven.2 }

end Translator

end Criteria

------------------------------------------------------------
-- Translated and Applied
------------------------------------------------------------

namespace Criteria

namespace Translator

open Except

/-
  A query whose selection is in order fails on a table where
  a selected name is unknown, as the first of these, and has
  otherwise the one statement that says what the query does.
  Of the selections of two descriptions that are equal in all
  else only the names given true count, for the success and
  for the statement. A translated query has its selection in
  order and selects what its description chooses, and no name
  that the filter, an order or a cursor mentions fails it.
-/
theorem statement_mirrors (table : Table) :
    (∀ (q : Query) (schema : Schema), q.InByteOrder →
      ((∃ e, q.statement table schema = .error e) ↔
        ∃ name, q.Selects name ∧
          schema.find? name = none) ∧
      (∀ e, q.statement table schema = .error e ↔
        ∃ name, q.FirstUnknown schema name ∧
          e = .invalidField name) ∧
      (∀ s, q.statement table schema = .ok s ↔
        q.Mirrored table schema s) ∧
      ∀ s, q.statement table schema = .ok s →
        s.sql = s.columnsSql ++ q.clauses table) ∧
    (∀ (t : Translator) (schema : Schema)
      (d e : Description),
      { d with selection := e.selection } = e →
      d.HasFlatSelection → e.HasFlatSelection →
      (∀ name, d.Chooses name ↔ e.Chooses name) →
        (do (← t.translate d).statement table schema) =
          do (← t.translate e).statement table schema) ∧
    ∀ (t : Translator) (d : Description) (q : Query),
      t.translate d = .ok q →
        q.InByteOrder ∧
        (∀ name, q.Selects name → d.Chooses name) ∧
        ∀ name, d.Mentions t.settings.tiebreaker name →
          q.statement table t.schema ≠
            .error (.invalidField name) := by
  refine ⟨?_, ?_, ?_⟩
  · intro q schema hOrder
    refine ⟨Query.exists_statement_eq_error_iff,
      fun e => Query.statement_eq_error_iff hOrder,
      fun s => Query.statement_eq_ok_iff_mirrored hOrder, ?_⟩
    intro s hStatement
    exact (Query.statement_eq_ok_iff_mirrored hOrder
      |>.mp hStatement).sql_eq
  · intro t schema d e hElse hFirst hSecond hChooses
    have hAgree := agree_translate_of_chooses (t := t) hElse
      hFirst hSecond hChooses
    refine Agree.eq (hAgree.bind fun q r hSame => ?_)
    rw [hSame.statement_eq]
    exact .refl _ fun _ _ => rfl
  · intro t d q hQuery
    have hColumns : columns? d.selection = .ok q.columns :=
      columns_of_translate hQuery
    rcases selects_of_columns? hColumns rfl with
      ⟨hOrder, hChosen, _⟩
    refine ⟨hOrder, hChosen, ?_⟩
    intro name hMentions hError
    rcases exists_field_of_mentions hMentions hQuery with
      ⟨field, hFound⟩
    rcases (Query.statement_eq_error_iff hOrder).mp hError with
      ⟨other, hUnknown, hSame⟩
    cases hSame
    rw [hUnknown.unknown] at hFound
    cases hFound

/- Titles have a second name. -/
def titledTranslator : Translator :=
  { schema :=
      ⟨[("heading", ⟨⟨"title"⟩, .string, false⟩),
        ("title", ⟨⟨"title"⟩, .string, false⟩),
        ("views", ⟨⟨"views"⟩, .integer, false⟩)]⟩
    settings := ⟨32, "views"⟩ }

def titledTable : Table :=
  ⟨"posts", [⟨"title"⟩, ⟨"views"⟩]⟩

/- Rows with views, and of them what is selected. -/
def viewed (selection : Json.Members) : Description :=
  { Description.empty with
    filter := some
      [("views", .object [("gt", .number (.integer 0))])]
    selection := some selection
    take := some 5 }

/- Both names of the titles, and one not chosen. -/
def bothTitles : Json.Members :=
  [("title", .bool true), ("nope", .bool false),
    ("heading", .bool true)]

/- Both again, and nothing else. -/
def titlesOnly : Json.Members :=
  [("heading", .bool true), ("title", .bool true)]

/- Two names that are not known, around one that is. -/
def unknownTitles : Json.Members :=
  [("nope", .bool true), ("heading", .bool true),
    ("Nope", .bool true)]

theorem statement_mirrors_chosenTitles :
    (∃ q s,
      titledTranslator.translate (viewed bothTitles) =
        .ok q ∧
      q.statement titledTable titledTranslator.schema =
        .ok s ∧
      s.columns = [⟨"title"⟩, ⟨"title"⟩] ∧
      q.Mirrored titledTable titledTranslator.schema s ∧
      s.sql = s.columnsSql ++ q.clauses titledTable ∧
      (do
        (← titledTranslator.translate
          (viewed titlesOnly)).statement titledTable
            titledTranslator.schema) = .ok s ∧
      q.statement titledTable titledTranslator.schema ≠
        .error (.invalidField "views")) ∧
    ∃ q,
      titledTranslator.translate (viewed unknownTitles) =
        .ok q ∧
      q.FirstUnknown titledTranslator.schema "Nope" := by
  rcases statement_mirrors titledTable with
    ⟨hQuery, hSelection, hTranslated⟩
  constructor
  · have hApplied : ∃ q s,
        titledTranslator.translate (viewed bothTitles) =
          .ok q ∧
        q.statement titledTable titledTranslator.schema =
          .ok s ∧
        s.columns = [⟨"title"⟩, ⟨"title"⟩] :=
      ⟨_, _, rfl, rfl, rfl⟩
    rcases hApplied with ⟨q, s, hTranslate, hStatement, hTwice⟩
    rcases hTranslated _ _ _ hTranslate with
      ⟨hOrder, _, hKnown⟩
    rcases hQuery q titledTranslator.schema hOrder with
      ⟨_, _, hMirrored, hSql⟩
    refine ⟨q, s, hTranslate, hStatement, hTwice,
      (hMirrored s).mp hStatement, hSql s hStatement, ?_, ?_⟩
    · have hSame := hSelection titledTranslator
        titledTranslator.schema (viewed bothTitles)
        (viewed titlesOnly) rfl
        (by
          rintro _ ⟨⟩
          simp [NameMap.Distinct, bothTitles])
        (by
          rintro _ ⟨⟩
          simp [NameMap.Distinct, titlesOnly])
        (by
          intro name
          simp [Description.Chooses, viewed, bothTitles,
            titlesOnly, or_comm])
      rw [← hSame, hTranslate]
      exact hStatement
    · refine hKnown "views" (.inl ⟨_, rfl, .field ?_
        (List.mem_singleton_self _)⟩)
      intro op
      cases op <;> decide
  · have hApplied : ∃ q,
        titledTranslator.translate (viewed unknownTitles) =
          .ok q ∧
        q.statement titledTable titledTranslator.schema =
          .error (.invalidField "Nope") :=
      ⟨_, rfl, rfl⟩
    rcases hApplied with ⟨q, hTranslate, hError⟩
    have hOrder := (hTranslated _ _ _ hTranslate).1
    rcases ((hQuery q _ hOrder).2.1 _).mp hError with
      ⟨name, hFirst, hName⟩
    cases hName
    exact ⟨q, hTranslate, hFirst⟩

end Translator

end Criteria
