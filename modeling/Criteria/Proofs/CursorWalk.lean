import Criteria.Proofs.CursorBoundary
import Criteria.Proofs.PageWalk
import Criteria.Proofs.SortKeys
import Criteria.Proofs.SortedAnswer
import Criteria.Translation
import Mathlib.Data.List.Permutation

/-
  This file proves that walks by cursor are complete.

  A walk translates one description again and again, each time
  with a cursor that names the last row of the page before. If
  the keys of the cursor tell the matching rows apart, the
  pages put together are the matching rows, sorted by the keys
  and each of them once.

  Key definitions include:
    * `OrderedColumn.Denotes`
    * `Translator.walk`
    * `Translator.Leads`
    * `Translator.NamesByPair`

  Main statements:
    * `Coercion.kind?_scalar`
    * `Translator.translateWithin_plain`
    * `Translator.serves_of_leads`
    * `Translator.cursor_walks`
-/

------------------------------------------------------------
-- Coerced Values
------------------------------------------------------------

namespace Criteria

namespace Coercion

theorem exists_of_readable
    {α : Type}
    {op text : String}
    {kind : Kind}
    {wrap : α → Value}
    {read : List Char → Option α}
    {value : Value}
    (hRead :
      readable op kind text wrap read = .ok value) :
    ∃ a, wrap a = value := by
  unfold readable at hRead
  split at hRead
  · rename_i a _
    exact ⟨a, Except.ok.inj hRead⟩
  · contradiction

/- A value that an operand coerces to has its kind. -/
theorem kind?_scalar
    {op : String}
    {kind : Kind}
    {operand : Json}
    {value : Value}
    (hScalar : scalar op kind operand = .ok value) :
    value.kind? = some kind := by
  unfold scalar at hScalar
  split at hScalar
  case h_2 =>
    split at hScalar
    · cases hScalar
      rfl
    · contradiction
  case h_11 => contradiction
  all_goals
    first
    | cases hScalar
      rfl
    | rcases exists_of_readable hScalar with ⟨a, rfl⟩
      rfl

end Coercion

namespace OrderedColumn

variable {Row α : Type}
variable [LinearOrder α]
variable {contents : Contents Row}
variable {field : Field}

/- An operand stands for what a row stores in the column. -/
def Denotes
    (column : OrderedColumn contents field α)
    (row : Row)
    (operand : Json) : Prop :=
  ∃ value,
    Coercion.scalar "cursor" field.kind operand =
      .ok value ∧
    column.cell row = some (column.meaning value)

/- Rows compare as equal only if they store the same. -/
theorem cell_eq_of_compareRows
    (column : OrderedColumn contents field α)
    {direction : Direction}
    {a b : Row}
    (hEqual : column.compareRows direction a b = .eq) :
    column.cell a = column.cell b := by
  cases direction with
  | ascending =>
      have hCells :
          compare (column.cell a) (column.cell b) = .eq :=
        hEqual
      exact Std.LawfulEqCmp.eq_of_compare hCells
  | descending =>
      have hCells :
          compare (column.cell b) (column.cell a) = .eq :=
        hEqual
      exact (Std.LawfulEqCmp.eq_of_compare hCells).symm

end OrderedColumn

------------------------------------------------------------
-- Cursor Keys
------------------------------------------------------------

namespace Translator

variable {t : Translator}
variable {keys : List SortKey}
variable {field tie : Field}
variable {name : String}

/- A key without a value, by which a walk begins. -/
theorem cursorKey_null
    (hField : t.schema.resolve name = .ok field) :
    t.cursorKey keys name .null =
      .ok ⟨name, field.column,
        SortKey.directionIn keys name, none⟩ := by
  unfold cursorKey
  refine Except.bind_eq_ok_iff.mpr ⟨field, hField, ?_⟩
  rfl

/- A key with the value that its operand coerces to. -/
theorem cursorKey_value
    {operand : Json}
    {value : Value}
    (hField : t.schema.resolve name = .ok field)
    (hValue :
      Coercion.scalar "cursor" field.kind operand =
        .ok value) :
    t.cursorKey keys name operand =
      .ok ⟨name, field.column,
        SortKey.directionIn keys name, some value⟩ := by
  have hOperand :
      cursorValue? field.kind operand =
        .ok (some value) := by
    unfold cursorValue?
    split
    · rename_i hNull
      cases hKind : field.kind <;>
        simp [hKind, Coercion.scalar, Coercion.mismatch]
          at hValue
    · rw [hValue]
      rfl
  unfold cursorKey
  refine Except.bind_eq_ok_iff.mpr ⟨field, hField, ?_⟩
  exact Except.bind_eq_ok_iff.mpr ⟨_, hOperand, rfl⟩

/- The tiebreaker alone is the one key of a cursor. -/
theorem cursorKeys_single
    {operand : Json}
    {primary : Cursor.Key}
    (hPrimary :
      t.cursorKey keys t.settings.tiebreaker operand =
        .ok primary) :
    t.cursorKeys keys
        [(t.settings.tiebreaker, operand)] =
      .ok (primary, none) := by
  have hMember :
      primaryMember t.settings.tiebreaker
          [(t.settings.tiebreaker, operand)] =
        .ok (t.settings.tiebreaker, operand) := by
    simp [primaryMember]
  unfold cursorKeys
  refine Except.bind_eq_ok_iff.mpr ⟨_, hMember, ?_⟩
  refine Except.bind_eq_ok_iff.mpr ⟨_, hPrimary, ?_⟩
  rw [if_pos rfl]
  rfl

/-
  Another field is the first key of a cursor. The tiebreaker
  is the second, with its value or with null.
-/
theorem cursorKeys_pair
    {members : Json.Members}
    {operand : Json}
    {primary secondary : Cursor.Key}
    (hOther : name ≠ t.settings.tiebreaker)
    (hMember :
      primaryMember t.settings.tiebreaker members =
        .ok (name, operand))
    (hPrimary :
      t.cursorKey keys name operand = .ok primary)
    (hSecondary :
      t.cursorKey keys t.settings.tiebreaker
          ((members.lookup
            t.settings.tiebreaker).getD .null) =
        .ok secondary) :
    t.cursorKeys keys members =
      .ok (primary, some secondary) := by
  unfold cursorKeys
  refine Except.bind_eq_ok_iff.mpr ⟨_, hMember, ?_⟩
  refine Except.bind_eq_ok_iff.mpr ⟨_, hPrimary, ?_⟩
  rw [if_neg hOther]
  exact Except.bind_eq_ok_iff.mpr ⟨_, hSecondary, rfl⟩

/- The members of a cursor of two keys, in either order. -/
theorem members_of_perm
    {tiebreaker : String}
    {members : Json.Members}
    {v w : Json}
    (hOther : name ≠ tiebreaker)
    (hMembers :
      members.Perm [(name, v), (tiebreaker, w)]) :
    primaryMember tiebreaker members = .ok (name, v) ∧
    members.lookup tiebreaker = some w := by
  rcases List.perm_pair.mp hMembers with rfl | rfl
  · constructor
    · simp [primaryMember, hOther]
    · simp [NameMap.lookup_cons_eq_if, hOther.symm]
  · constructor
    · simp [primaryMember, hOther]
    · simp

------------------------------------------------------------
-- Translation with a Cursor
------------------------------------------------------------

/- A query that begins after the keys of a cursor. -/
def pagedQuery
    (q : Query)
    (primary : Cursor.Key)
    (secondary : Option Cursor.Key) : Query :=
  { q with
    condition :=
      Cursor.both q.condition
        (Cursor.boundary? primary secondary)
    order :=
      primary.term ::
        (secondary.map Cursor.Key.term).toList }

/-
  A description is translated with a cursor as it is without,
  and the cursor is then applied to the query.
-/
theorem translateWithin_plain
    {levels : Nat}
    {d : Description}
    {q : Query}
    (hPlain :
      t.translateWithin levels { d with cursor := none } =
        .ok q) :
    q.limit = d.take ∧
    q.offset = d.skip ∧
    ∃ keys, d.sortKeys = .ok keys ∧
      ∀ cursor?,
        t.translateWithin levels
            { d with cursor := cursor? } =
          t.applyCursor keys cursor? q := by
  cases levels with
  | zero => contradiction
  | succ levels =>
      unfold translateWithin at hPlain ⊢
      simp only [Except.bind_eq_ok_iff] at hPlain
      rcases hPlain with
        ⟨condition, hCondition, relations, hRelations,
          columns, hColumns, keys, hKeys, order, hOrder,
          hQuery⟩
      cases hQuery
      refine ⟨rfl, rfl, keys, hKeys, ?_⟩
      intro cursor?
      have hSortKeys :
          Description.sortKeys { d with cursor := cursor? } =
            .ok keys :=
        hKeys
      simp only [hCondition, hRelations, hColumns, hSortKeys,
        hOrder, bind, Except.bind]

/- The keys of a cursor bound the query and sort it. -/
theorem applyCursor_eq_ok
    {q : Query}
    {members : Json.Members}
    {primary : Cursor.Key}
    {secondary : Option Cursor.Key}
    (hMembers :
      t.cursorKeys keys members =
        .ok (primary, secondary)) :
    t.applyCursor keys (some members) q =
      .ok (pagedQuery q primary secondary) :=
  Except.bind_eq_ok_iff.mpr ⟨_, hMembers, rfl⟩

------------------------------------------------------------
-- Walks of a Description
------------------------------------------------------------

variable {Row : Type}

/-
  The walk of a description through a table: it is translated
  with each cursor, and the query is answered from the table.
-/
def walk
    (t : Translator)
    (d : Description)
    (contents : Contents Row)
    (size : UInt64)
    (names : Row → Json.Members → Prop) : Walk Row :=
  { size := size.toNat
    fetch := fun cursor page =>
      ∃ q, t.translate { d with cursor := some cursor } =
        .ok q ∧ contents.Answer q page
    names := names }

/-
  A cursor leads to some rows of a list if it has keys, which
  sort the list as `order` does and bound it to these rows.
-/
def Leads
    (t : Translator)
    (keys : List SortKey)
    (contents : Contents Row)
    (order : Row → Row → Ordering)
    (all : List Row)
    (cursor : Json.Members)
    (reached : Row → Bool) : Prop :=
  ∃ primary secondary,
    t.cursorKeys keys cursor = .ok (primary, secondary) ∧
    (∀ a ∈ all, ∀ b ∈ all,
      contents.compareBy
          (primary.term ::
            (secondary.map Cursor.Key.term).toList) a b =
        order a b) ∧
    ∀ a ∈ all,
      contents.keeps
          (Cursor.boundary? primary secondary) a =
        reached a

section

variable {d : Description}
variable {q : Query}
variable {size : UInt64}
variable {contents : Contents Row}
variable {names : Row → Json.Members → Prop}
variable {order : Row → Row → Ordering}
variable [Std.TransCmp order]
variable {all : List Row}

/- The page after a cursor begins the rows it leads to. -/
theorem fetch_iff
    {cursor : Json.Members}
    {reached : Row → Bool}
    (hPlain :
      t.translate { d with cursor := none } = .ok q)
    (hKeys : d.sortKeys = .ok keys)
    (hTake : d.take = some size)
    (hSkip : d.skip = none)
    (hPerm : all.Perm (contents.matching q.condition))
    (hStrict : all.Pairwise fun a b => order a b = .lt)
    (hLeads :
      t.Leads keys contents order all cursor reached)
    (page : List Row) :
    (t.walk d contents size names).fetch cursor page ↔
      page = (all.filter reached).take size.toNat := by
  rcases hLeads with
    ⟨primary, secondary, hCursor, hOrder, hReached⟩
  rcases translateWithin_plain hPlain with
    ⟨hTaken, hSkipped, found, hFound, hApplied⟩
  cases hFound.symm.trans hKeys
  have hLimit :
      (pagedQuery q primary secondary).limit = some size :=
    hTaken.trans hTake
  have hOffset :
      (pagedQuery q primary secondary).offset = none :=
    hSkipped.trans hSkip
  have hTranslate :
      t.translate { d with cursor := some cursor } =
        .ok (pagedQuery q primary secondary) :=
    (hApplied (some cursor)).trans (applyCursor_eq_ok hCursor)
  have hFilter :
      all.filter (contents.keeps
          (Cursor.boundary? primary secondary)) =
        all.filter reached :=
    List.filter_congr hReached
  have hMatching :
      (all.filter reached).Perm
        (contents.matching
          (Cursor.both q.condition
            (Cursor.boundary? primary secondary))) := by
    rw [contents.matching_both, ← hFilter]
    exact hPerm.filter _
  have hFiltered :
      (all.filter reached).Pairwise
        fun a b => order a b = .lt :=
    hStrict.sublist List.filter_sublist
  have hAnswer :
      contents.Answer (pagedQuery q primary secondary)
          page ↔
        page = (all.filter reached).take size.toNat := by
    refine Contents.answer_iff order hLimit hOffset
      hMatching hFiltered ?_ page
    intro a hFirst b hSecond
    exact hOrder a (List.mem_of_mem_filter hFirst)
      b (List.mem_of_mem_filter hSecond)
  constructor
  · rintro ⟨found, hFound, hPage⟩
    cases hTranslate.symm.trans hFound
    exact hAnswer.mp hPage
  · intro hPage
    exact ⟨_, hTranslate, hAnswer.mpr hPage⟩

/-
  The walk serves the sorted rows if its first cursor leads to
  all of them and a cursor of a row to the greater ones.
-/
theorem serves_of_leads
    {first : Json.Members}
    (hPlain :
      t.translate { d with cursor := none } = .ok q)
    (hKeys : d.sortKeys = .ok keys)
    (hTake : d.take = some size)
    (hSize : 0 < size)
    (hSkip : d.skip = none)
    (hPerm : all.Perm (contents.matching q.condition))
    (hStrict : all.Pairwise fun a b => order a b = .lt)
    (hFirst :
      t.Leads keys contents order all first
        (fun _ => true))
    (hNext : ∀ row next, names row next →
      t.Leads keys contents order all next
        (fun a => order row a = .lt)) :
    (t.walk d contents size names).Serves first all := by
  constructor
  case size_pos =>
    exact UInt64.lt_iff_toNat_lt.mp hSize
  case fetch_first =>
    intro page
    have hFetch :
        (t.walk d contents size names).fetch first page ↔
          page =
            (all.filter fun _ => true).take size.toNat :=
      fetch_iff hPlain hKeys hTake hSkip hPerm hStrict
        hFirst page
    rwa [List.filter_true] at hFetch
  case fetch_next =>
    intro before rest row next hSplit hNames page
    have hFetch :
        (t.walk d contents size names).fetch next page ↔
          page =
            (all.filter fun a => order row a = .lt).take
              size.toNat :=
      fetch_iff hPlain hKeys hTake hSkip hPerm hStrict
        (hNext row next hNames) page
    rw [hSplit] at hStrict hFetch
    rwa [Contents.filter_after order hStrict] at hFetch

/- So it enumerates rows that the order tells apart. -/
theorem enumerates_of_leads
    {first : Json.Members}
    (hPlain :
      t.translate { d with cursor := none } = .ok q)
    (hKeys : d.sortKeys = .ok keys)
    (hTake : d.take = some size)
    (hSize : 0 < size)
    (hSkip : d.skip = none)
    (hDistinct :
      (contents.matching q.condition).Pairwise
        fun a b => order a b ≠ .eq)
    (hFirst : ∀ all : List Row,
      all.Perm (contents.matching q.condition) →
        t.Leads keys contents order all first
          (fun _ => true))
    (hNext : ∀ all : List Row,
      all.Perm (contents.matching q.condition) →
        ∀ row next, names row next →
          t.Leads keys contents order all next
            (fun a => order row a = .lt)) :
    (t.walk d contents size names).Enumerates first order
      (contents.matching q.condition) := by
  rcases Contents.exists_sorted order _ hDistinct with
    ⟨all, hPerm, hStrict⟩
  have hServes :=
    serves_of_leads hPlain hKeys hTake hSize hSkip hPerm
      hStrict (hFirst all hPerm) (hNext all hPerm)
  exact ⟨all, hPerm, hStrict, hServes.covers⟩

end

------------------------------------------------------------
-- Cursors of Rows
------------------------------------------------------------

section

variable {α β : Type}
variable [LinearOrder α] [LinearOrder β]
variable {contents : Contents Row}
variable {all : List Row}

/- A cursor with what a row stores in one column. -/
def NamesBySingle
    (ties : OrderedColumn contents tie β)
    (tiebreaker : String)
    (row : Row)
    (cursor : Json.Members) : Prop :=
  ∃ w, cursor = [(tiebreaker, w)] ∧ ties.Denotes row w

/- A cursor with what a row stores in two columns. -/
def NamesByPair
    (column : OrderedColumn contents field α)
    (ties : OrderedColumn contents tie β)
    (name tiebreaker : String)
    (row : Row)
    (cursor : Json.Members) : Prop :=
  ∃ v w,
    cursor.Perm [(name, v), (tiebreaker, w)] ∧
    column.Denotes row v ∧
    ties.Denotes row w

/- Rows by one column, and by another one where equal. -/
def pairOrder
    (column : OrderedColumn contents field α)
    (direction : Direction)
    (ties : OrderedColumn contents tie β)
    (tieDirection : Direction) : Row → Row → Ordering :=
  compareLex (column.compareRows direction)
    (ties.compareRows tieDirection)

instance
    (column : OrderedColumn contents field α)
    (direction : Direction)
    (ties : OrderedColumn contents tie β)
    (tieDirection : Direction) :
    Std.TransCmp
      (pairOrder column direction ties tieDirection) :=
  inferInstanceAs (Std.TransCmp (compareLex _ _))

/- Rows that are equal in this order store the same. -/
theorem cells_eq_of_pairOrder
    (column : OrderedColumn contents field α)
    (ties : OrderedColumn contents tie β)
    {direction tieDirection : Direction}
    {a b : Row}
    (hEqual :
      pairOrder column direction ties tieDirection a b =
        .eq) :
    column.cell a = column.cell b ∧
    ties.cell a = ties.cell b := by
  rcases compareLex_eq_eq.mp hEqual with
    ⟨hFirst, hSecond⟩
  exact ⟨column.cell_eq_of_compareRows hFirst,
    ties.cell_eq_of_compareRows hSecond⟩

theorem leads_single_first
    (ties : OrderedColumn contents tie β)
    (hTie :
      t.schema.resolve t.settings.tiebreaker = .ok tie)
    (hStored : ∀ row ∈ all, (ties.cell row).isSome) :
    t.Leads keys contents
      (ties.compareRows
        (SortKey.directionIn keys t.settings.tiebreaker))
      all [(t.settings.tiebreaker, .null)]
      (fun _ => true) := by
  refine ⟨_, none,
    cursorKeys_single (cursorKey_null hTie), ?_, ?_⟩
  · intro a hFirst b hSecond
    exact Contents.compareBy_single ties rfl
      (hStored a hFirst) (hStored b hSecond)
  · intro a _
    rfl

theorem leads_single_next
    (ties : OrderedColumn contents tie β)
    {row : Row}
    {cursor : Json.Members}
    (hTie :
      t.schema.resolve t.settings.tiebreaker = .ok tie)
    (hStored : ∀ row ∈ all, (ties.cell row).isSome)
    (hNames :
      NamesBySingle ties t.settings.tiebreaker row
        cursor) :
    t.Leads keys contents
      (ties.compareRows
        (SortKey.directionIn keys t.settings.tiebreaker))
      all cursor
      (fun a =>
        ties.compareRows
            (SortKey.directionIn keys
              t.settings.tiebreaker) row a = .lt) := by
  rcases hNames with ⟨w, rfl, value, hValue, hCell⟩
  refine ⟨_, none,
    cursorKeys_single (cursorKey_value hTie hValue), ?_, ?_⟩
  · intro a hFirst b hSecond
    exact Contents.compareBy_single ties rfl
      (hStored a hFirst) (hStored b hSecond)
  · intro a hMember
    exact Contents.keeps_boundary_single
      ⟨rfl, rfl, Coercion.kind?_scalar hValue, hCell⟩
      (hStored a hMember)

theorem leads_pair_first
    (column : OrderedColumn contents field α)
    (ties : OrderedColumn contents tie β)
    (hOther : name ≠ t.settings.tiebreaker)
    (hField : t.schema.resolve name = .ok field)
    (hTie :
      t.schema.resolve t.settings.tiebreaker = .ok tie)
    (hStored : ∀ row ∈ all,
      (column.cell row).isSome ∧ (ties.cell row).isSome) :
    t.Leads keys contents
      (pairOrder column (SortKey.directionIn keys name) ties
        (SortKey.directionIn keys t.settings.tiebreaker))
      all [(name, .null)] (fun _ => true) := by
  have hMember :
      primaryMember t.settings.tiebreaker
        [(name, .null)] = .ok (name, .null) := by
    simp [primaryMember, hOther]
  have hNone :
      [(name, Json.null)].lookup t.settings.tiebreaker =
        none := by
    simp [NameMap.lookup_cons_eq_if, hOther.symm]
  have hSecondary :
      t.cursorKey keys t.settings.tiebreaker
          (([(name, Json.null)].lookup
            t.settings.tiebreaker).getD .null) =
        .ok ⟨t.settings.tiebreaker, tie.column,
          SortKey.directionIn keys t.settings.tiebreaker,
          none⟩ := by
    rw [hNone]
    exact cursorKey_null hTie
  refine ⟨_, some _,
    cursorKeys_pair hOther hMember (cursorKey_null hField)
      hSecondary, ?_, ?_⟩
  · intro a hFirst b hSecond
    exact Contents.compareBy_pair column ties rfl rfl
      (hStored a hFirst) (hStored b hSecond)
  · intro a _
    rfl

theorem leads_pair_next
    (column : OrderedColumn contents field α)
    (ties : OrderedColumn contents tie β)
    {row : Row}
    {cursor : Json.Members}
    (hOther : name ≠ t.settings.tiebreaker)
    (hField : t.schema.resolve name = .ok field)
    (hTie :
      t.schema.resolve t.settings.tiebreaker = .ok tie)
    (hStored : ∀ row ∈ all,
      (column.cell row).isSome ∧ (ties.cell row).isSome)
    (hNames :
      NamesByPair column ties name t.settings.tiebreaker
        row cursor) :
    t.Leads keys contents
      (pairOrder column (SortKey.directionIn keys name) ties
        (SortKey.directionIn keys t.settings.tiebreaker))
      all cursor
      (fun a =>
        pairOrder column (SortKey.directionIn keys name) ties
            (SortKey.directionIn keys t.settings.tiebreaker)
            row a = .lt) := by
  rcases hNames with
    ⟨v, w, hMembers, ⟨value, hValue, hCell⟩,
      ⟨tieValue, hTieValue, hTieCell⟩⟩
  rcases members_of_perm hOther hMembers with
    ⟨hMember, hLookup⟩
  have hSecondary :
      t.cursorKey keys t.settings.tiebreaker
          ((cursor.lookup
            t.settings.tiebreaker).getD .null) =
        .ok ⟨t.settings.tiebreaker, tie.column,
          SortKey.directionIn keys t.settings.tiebreaker,
          some tieValue⟩ := by
    rw [hLookup]
    exact cursorKey_value hTie hTieValue
  refine ⟨_, some _,
    cursorKeys_pair hOther hMember
      (cursorKey_value hField hValue) hSecondary, ?_, ?_⟩
  · intro a hFirst b hSecond
    exact Contents.compareBy_pair column ties rfl rfl
      (hStored a hFirst) (hStored b hSecond)
  · intro a hMember
    exact Contents.keeps_boundary_pair
      ⟨rfl, rfl, Coercion.kind?_scalar hValue, hCell⟩
      ⟨rfl, rfl, Coercion.kind?_scalar hTieValue, hTieCell⟩
      (hStored a hMember).1 (hStored a hMember).2

------------------------------------------------------------
-- Completeness
------------------------------------------------------------

/-
  A walk by cursor enumerates the rows that match its filter,
  sorted by the keys in the directions that the order of the
  description gives them. It starts at null and goes from the
  last row of each page to the page after it. The keys are
  another field and the tiebreaker, if no two rows agree on
  both, or the tiebreaker alone, if no two rows agree on it.
-/
theorem cursor_walks
    {d : Description}
    {q : Query}
    {size : UInt64}
    (ties : OrderedColumn contents tie β)
    (hPlain :
      t.translate { d with cursor := none } = .ok q)
    (hTake : d.take = some size)
    (hSize : 0 < size)
    (hSkip : d.skip = none)
    (hTie :
      t.schema.resolve t.settings.tiebreaker = .ok tie)
    (hTies : ∀ row ∈ contents.matching q.condition,
      (ties.cell row).isSome) :
    ∃ tieDirection,
      SortKey.Directs d.orderMembers t.settings.tiebreaker
        tieDirection ∧
      (∀ (name : String)
          (field : Field)
          (column : OrderedColumn contents field α),
        name ≠ t.settings.tiebreaker →
        t.schema.resolve name = .ok field →
        (∀ row ∈ contents.matching q.condition,
          (column.cell row).isSome) →
        ((contents.matching q.condition).Pairwise
          fun a b =>
            column.cell a = column.cell b →
              ties.cell a ≠ ties.cell b) →
        ∃ direction,
          SortKey.Directs d.orderMembers name direction ∧
          (t.walk d contents size
              (NamesByPair column ties name
                t.settings.tiebreaker)).Enumerates
            [(name, .null)]
            (pairOrder column direction ties tieDirection)
            (contents.matching q.condition)) ∧
      (((contents.matching q.condition).Pairwise
          fun a b => ties.cell a ≠ ties.cell b) →
        (t.walk d contents size
            (NamesBySingle ties
              t.settings.tiebreaker)).Enumerates
          [(t.settings.tiebreaker, .null)]
          (ties.compareRows tieDirection)
          (contents.matching q.condition)) := by
  rcases translateWithin_plain hPlain with
    ⟨_, _, keys, hKeys, _⟩
  rw [Description.orderMembers_of_sortKeys hKeys]
  refine ⟨_, SortKey.directs_directionIn keys _, ?_, ?_⟩
  · intro name field column hOther hField hColumn hDistinct
    have hStored
        (all : List Row)
        (hPerm :
          all.Perm (contents.matching q.condition)) :
        ∀ row ∈ all,
          (column.cell row).isSome ∧
          (ties.cell row).isSome := by
      intro row hMember
      have hMatching := hPerm.mem_iff.mp hMember
      exact ⟨hColumn row hMatching, hTies row hMatching⟩
    refine ⟨_, SortKey.directs_directionIn keys name,
      enumerates_of_leads hPlain hKeys hTake hSize hSkip
        ?_ ?_ ?_⟩
    · apply hDistinct.imp
      intro a b hDiffer hEqual
      rcases cells_eq_of_pairOrder column ties hEqual with
        ⟨hFirst, hSecond⟩
      exact hDiffer hFirst hSecond
    · intro all hPerm
      exact leads_pair_first column ties hOther hField hTie
        (hStored all hPerm)
    · intro all hPerm row next hNames
      exact leads_pair_next column ties hOther hField hTie
        (hStored all hPerm) hNames
  · intro hDistinct
    have hStored
        (all : List Row)
        (hPerm :
          all.Perm (contents.matching q.condition)) :
        ∀ row ∈ all, (ties.cell row).isSome := by
      intro row hMember
      exact hTies row (hPerm.mem_iff.mp hMember)
    refine enumerates_of_leads hPlain hKeys hTake hSize
      hSkip ?_ ?_ ?_
    · apply hDistinct.imp
      intro a b hDiffer hEqual
      exact hDiffer (ties.cell_eq_of_compareRows hEqual)
    · intro all hPerm
      exact leads_single_first ties hTie (hStored all hPerm)
    · intro all hPerm row next hNames
      exact leads_single_next ties hTie (hStored all hPerm)
        hNames

end

/- Rows have an id each, and views that may be alike. -/
def viewsTranslator : Translator :=
  { schema :=
      ⟨[("id", ⟨⟨"id"⟩, .integer, false⟩),
        ("views", ⟨⟨"views"⟩, .integer, false⟩)]⟩
    settings := ⟨32, "id"⟩ }

/- Two rows with views a page, the most views first. -/
def mostViewed : Description :=
  { Description.empty with
    filter := some
      [("views", .object [("gt", .number (.integer 0))])]
    take := some 2
    orderBy := some (.single [("views", .string "desc")]) }

/- The first two of these rows do not match. -/
def viewedRows : List IntegerRow :=
  [[("id", 6), ("views", 0)], [("id", 5)],
    [("id", 4), ("views", 5)], [("id", 3), ("views", 7)],
    [("id", 2), ("views", 5)], [("id", 1), ("views", 5)]]

/-
  The three rows with the same views are on two pages, by
  falling views and rising ids.
-/
theorem cursor_walks_mixedDirections :
    ∃ q : Query,
      viewsTranslator.translate mostViewed = .ok q ∧
      (viewsTranslator.walk mostViewed
          (Contents.ofIntegers viewedRows) 2
          (NamesByPair
            (.ofIntegers viewedRows
              ⟨⟨"views"⟩, .integer, false⟩)
            (.ofIntegers viewedRows
              ⟨⟨"id"⟩, .integer, false⟩)
            "views" "id")).Enumerates
        [("views", .null)]
        (pairOrder
          (.ofIntegers viewedRows
            ⟨⟨"views"⟩, .integer, false⟩) .descending
          (.ofIntegers viewedRows
            ⟨⟨"id"⟩, .integer, false⟩) .ascending)
        ((Contents.ofIntegers viewedRows).matching
          q.condition) ∧
      (viewsTranslator.walk mostViewed
          (Contents.ofIntegers viewedRows) 2
          (NamesBySingle
            (.ofIntegers viewedRows
              ⟨⟨"id"⟩, .integer, false⟩) "id")).Enumerates
        [("id", .null)]
        (OrderedColumn.compareRows
          (.ofIntegers viewedRows
            ⟨⟨"id"⟩, .integer, false⟩) .ascending)
        ((Contents.ofIntegers viewedRows).matching
          q.condition) := by
  refine ⟨_, rfl, ?_⟩
  have hIds : SortKey.Directs mostViewed.orderMembers "id"
      .ascending :=
    .unnamed (by simp [mostViewed, Description.orderMembers,
      OrderBy.members])
  have hViews :
      SortKey.Directs mostViewed.orderMembers "views"
        .descending :=
    @SortKey.Directs.named _ _ [] [] _ rfl (by simp)
  rcases @cursor_walks viewsTranslator
      ⟨⟨"id"⟩, .integer, false⟩ IntegerRow Int Int _ _
      (Contents.ofIntegers viewedRows) mostViewed _ 2
      (.ofIntegers viewedRows ⟨⟨"id"⟩, .integer, false⟩)
      rfl rfl (by decide) rfl rfl (by decide) with
    ⟨tieDirection, hTie, hPair, hSingle⟩
  cases hTie.functional hIds
  rcases hPair "views" ⟨⟨"views"⟩, .integer, false⟩
      (.ofIntegers viewedRows ⟨⟨"views"⟩, .integer, false⟩)
      (by decide) rfl (by decide) (by decide) with
    ⟨direction, hName, hWalk⟩
  cases hName.functional hViews
  exact ⟨hWalk, hSingle (by decide)⟩

end Translator

end Criteria
