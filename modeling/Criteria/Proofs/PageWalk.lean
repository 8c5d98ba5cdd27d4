import Criteria.Json
import Mathlib.Logic.Relation

/-
  This file defines walks through a list, page by page.

  A walk fetches the page after a cursor. If the page is full,
  a cursor that names its last row leads to the next page. A
  page that is not full ends the walk.

  The proof follows the states of a walk: the rows that were
  fetched are the first rows of the list, and the cursor leads
  to the rows that are left.

  Key definitions include:
    * `Walk.Step`
    * `Walk.Serves`
    * `Walk.Covers`

  Main statements:
    * `Walk.Along.step`
    * `Walk.Serves.along`
    * `Walk.Serves.covers`
-/

------------------------------------------------------------
-- Walks
------------------------------------------------------------

namespace Criteria

/- How pages of rows are fetched and rows named. -/
structure Walk (Row : Type) where
  size : Nat
  fetch : Json.Members → List Row → Prop
  names : Row → Json.Members → Prop

namespace Walk

variable {Row : Type}

/- The pages so far and the next cursor, none at the end. -/
structure State (Row : Type) where
  pages : List (List Row)
  cursor : Option Json.Members

def start (first : Json.Members) : State Row :=
  ⟨[], some first⟩

/- A page is fetched, and the walk ends or goes on. -/
inductive Step
    (walk : Walk Row) : State Row → State Row → Prop where
  | stop
      {pages : List (List Row)}
      {cursor : Json.Members}
      {page : List Row}
      (hFetch : walk.fetch cursor page)
      (hShort : page.length < walk.size) :
      Step walk ⟨pages, some cursor⟩ ⟨pages ++ [page], none⟩
  | turn
      {pages : List (List Row)}
      {cursor next : Json.Members}
      {page : List Row}
      {row : Row}
      (hFetch : walk.fetch cursor page)
      (hFull : walk.size ≤ page.length)
      (hLast : page.getLast? = some row)
      (hNames : walk.names row next) :
      Step walk ⟨pages, some cursor⟩
        ⟨pages ++ [page], some next⟩

def Reaches
    (walk : Walk Row)
    (first : Json.Members) : State Row → Prop :=
  Relation.ReflTransGen walk.Step (start first)

/-
  A walk covers a list if its pages are the list once it has
  ended, and are the first rows of it before. The number of
  pages is bounded. Where cursors name all rows the walk does
  not get stuck, so it ends.
-/
structure Covers
    (walk : Walk Row)
    (first : Json.Members)
    (all : List Row) : Prop where
  complete
    (pages : List (List Row))
    (hReach : walk.Reaches first ⟨pages, none⟩) :
    pages.flatten = all
  ordered
    (state : State Row)
    (hReach : walk.Reaches first state) :
    state.pages.flatten <+: all
  bounded
    (state : State Row)
    (hReach : walk.Reaches first state) :
    state.pages.length ≤ all.length / walk.size + 1
  progress
    (hNamed : ∀ row ∈ all, ∃ cursor, walk.names row cursor)
    (pages : List (List Row))
    (cursor : Json.Members)
    (hReach : walk.Reaches first ⟨pages, some cursor⟩) :
    ∃ next, walk.Step ⟨pages, some cursor⟩ next
  ends
    (hNamed : ∀ row ∈ all, ∃ cursor, walk.names row cursor) :
    ∃ pages, walk.Reaches first ⟨pages, none⟩

/- Some strictly sorted list of these rows is covered. -/
def Enumerates
    (walk : Walk Row)
    (first : Json.Members)
    (order : Row → Row → Ordering)
    (rows : List Row) : Prop :=
  ∃ all : List Row,
    all.Perm rows ∧
    all.Pairwise (fun a b => order a b = .lt) ∧
    walk.Covers first all

------------------------------------------------------------
-- Serving a List
------------------------------------------------------------

/-
  What pages have to be for a walk to cover a list: the first
  page begins with the list, and a cursor that names a row
  leads to the rows after it.
-/
structure Serves
    (walk : Walk Row)
    (first : Json.Members)
    (all : List Row) : Prop where
  size_pos : 0 < walk.size
  fetch_first
    (page : List Row) :
    walk.fetch first page ↔ page = all.take walk.size
  fetch_next
    (before rest : List Row)
    (row : Row)
    (next : Json.Members)
    (hSplit : all = before ++ row :: rest)
    (hNames : walk.names row next)
    (page : List Row) :
    walk.fetch next page ↔ page = rest.take walk.size

/-
  The states of a walk through a list. Every page but the last
  is full, so the rows so far count the pages.
-/
inductive Along
    (walk : Walk Row)
    (all : List Row) : State Row → Prop where
  | running
      {pages : List (List Row)}
      {cursor : Json.Members}
      (rest : List Row)
      (hSplit : all = pages.flatten ++ rest)
      (hFull :
        pages.flatten.length = walk.size * pages.length)
      (hFetch : ∀ page,
        walk.fetch cursor page ↔
          page = rest.take walk.size) :
      Along walk all ⟨pages, some cursor⟩
  | ended
      {pages : List (List Row)}
      (hAll : pages.flatten = all)
      (hBound :
        pages.length ≤ all.length / walk.size + 1) :
      Along walk all ⟨pages, none⟩

/- Full pages are no more than fit into the list. -/
theorem pages_le
    {all rest : List Row}
    {pages : List (List Row)}
    {size : Nat}
    (hSize : 0 < size)
    (hSplit : all = pages.flatten ++ rest)
    (hFull : pages.flatten.length = size * pages.length) :
    pages.length ≤ all.length / size := by
  rw [Nat.le_div_iff_mul_le hSize, hSplit,
    List.length_append, hFull, Nat.mul_comm]
  omega

/- A page that is not full holds all the rows left. -/
theorem take_eq_of_short
    {rest : List Row}
    {size : Nat}
    (hShort : (rest.take size).length < size) :
    rest.take size = rest := by
  apply List.take_of_length_le
  rw [List.length_take] at hShort
  omega

/- A full page ends with the row before the rows left. -/
theorem split_of_full
    {rest : List Row}
    {size : Nat}
    {row : Row}
    (hLast : (rest.take size).getLast? = some row) :
    ∃ init,
      rest.take size = init ++ [row] ∧
      rest = init ++ row :: rest.drop size := by
  rcases List.getLast?_eq_some_iff.mp hLast with
    ⟨init, hInit⟩
  refine ⟨init, hInit, ?_⟩
  calc rest
      = rest.take size ++ rest.drop size :=
        (List.take_append_drop size rest).symm
    _ = init ++ row :: rest.drop size := by
        rw [hInit]
        simp

/- One step of a walk keeps it along the list. -/
theorem Along.step
    {walk : Walk Row}
    {first : Json.Members}
    {all : List Row}
    {state next : State Row}
    (hServes : walk.Serves first all)
    (hAlong : walk.Along all state)
    (hStep : walk.Step state next) :
    walk.Along all next := by
  cases hStep with
  | stop hFetch hShort =>
      cases hAlong with
      | running rest hSplit hFull hPage =>
          obtain rfl := (hPage _).mp hFetch
          have hFits :=
            pages_le hServes.size_pos hSplit hFull
          refine .ended ?_ ?_
          · rw [take_eq_of_short hShort, hSplit]
            simp
          · rw [List.length_append, List.length_singleton]
            omega
  | @turn pages _ _ _ row hFetch hLong hLast hNames =>
      cases hAlong with
      | running rest hSplit hFull hPage =>
          obtain rfl := (hPage _).mp hFetch
          rcases split_of_full hLast with
            ⟨init, hInit, hRest⟩
          refine .running (rest.drop walk.size) ?_ ?_ ?_
          · rw [hSplit, List.flatten_append,
              List.flatten_singleton, List.append_assoc,
              List.take_append_drop]
          · rw [List.length_take] at hLong
            rw [List.flatten_append, List.length_append,
              List.flatten_singleton, List.length_take,
              List.length_append, List.length_singleton,
              Nat.mul_succ, hFull]
            omega
          · have hNext :
                all = (pages.flatten ++ init) ++
                  row :: rest.drop walk.size := by
              rw [hSplit, List.append_assoc]
              exact congrArg _ hRest
            exact hServes.fetch_next _ _ _ _ hNext hNames

/- So does every run of a walk. -/
theorem Serves.along
    {walk : Walk Row}
    {first : Json.Members}
    {all : List Row}
    {state : State Row}
    (hServes : walk.Serves first all)
    (hReach : walk.Reaches first state) :
    walk.Along all state := by
  induction hReach with
  | refl =>
      exact .running all rfl rfl hServes.fetch_first
  | tail _ hStep ih => exact ih.step hServes hStep

/- The last row of a full page is a row of the list. -/
theorem Along.exists_step
    {walk : Walk Row}
    {all : List Row}
    {pages : List (List Row)}
    {cursor : Json.Members}
    (hSize : 0 < walk.size)
    (hAlong : walk.Along all ⟨pages, some cursor⟩)
    (hNamed : ∀ row ∈ all, ∃ cursor, walk.names row cursor) :
    ∃ next, walk.Step ⟨pages, some cursor⟩ next := by
  cases hAlong with
  | running rest hSplit hFull hPage =>
      have hFetch := (hPage _).mpr rfl
      rcases Nat.lt_or_ge
          (rest.take walk.size).length walk.size with
        hShort | hLong
      · exact ⟨_, .stop hFetch hShort⟩
      · have hNonempty : rest.take walk.size ≠ [] := by
          apply List.ne_nil_of_length_pos
          omega
        have hLast :=
          List.getLast?_eq_some_getLast hNonempty
        have hMember :
            (rest.take walk.size).getLast hNonempty ∈
              all := by
          rw [hSplit]
          exact List.mem_append_right _
            (List.mem_of_mem_take (List.getLast_mem _))
        rcases hNamed _ hMember with ⟨next, hNames⟩
        exact ⟨_, .turn hFetch hLong hLast hNames⟩

/- The number of pages is bounded in every state. -/
theorem Along.length_le
    {walk : Walk Row}
    {all : List Row}
    {state : State Row}
    (hSize : 0 < walk.size)
    (hAlong : walk.Along all state) :
    state.pages.length ≤ all.length / walk.size + 1 := by
  cases hAlong with
  | running rest hSplit hFull hPage =>
      exact Nat.le_succ_of_le (pages_le hSize hSplit hFull)
  | ended hAll hBound => exact hBound

/- A step adds a page. -/
theorem Step.length_eq
    {walk : Walk Row}
    {state next : State Row}
    (hStep : walk.Step state next) :
    next.pages.length = state.pages.length + 1 := by
  cases hStep with
  | stop hFetch hShort => simp
  | turn hFetch hFull hLast hNames => simp

/-
  A walk goes on until it ends, by induction on the number of
  pages that may still come.
-/
theorem Serves.exists_end
    {walk : Walk Row}
    {first : Json.Members}
    {all : List Row}
    (hServes : walk.Serves first all)
    (hNamed : ∀ row ∈ all, ∃ cursor, walk.names row cursor)
    (pages : List (List Row))
    (cursor : Option Json.Members)
    (hReach : walk.Reaches first ⟨pages, cursor⟩) :
    ∃ final, walk.Reaches first ⟨final, none⟩ := by
  cases cursor with
  | none => exact ⟨pages, hReach⟩
  | some cursor =>
      rcases (hServes.along hReach).exists_step
          hServes.size_pos hNamed with ⟨next, hStep⟩
      have hNext : walk.Reaches first next :=
        hReach.tail hStep
      have hBound :=
        (hServes.along hNext).length_le hServes.size_pos
      have hLonger := hStep.length_eq
      exact hServes.exists_end hNamed
        next.pages next.cursor hNext
termination_by all.length / walk.size + 1 - pages.length
decreasing_by
  simp only at hLonger
  omega

/- A walk that serves a list covers it. -/
theorem Serves.covers
    {walk : Walk Row}
    {first : Json.Members}
    {all : List Row}
    (hServes : walk.Serves first all) :
    walk.Covers first all := by
  constructor
  case complete =>
    intro pages hReach
    cases hServes.along hReach with
    | ended hAll hBound => exact hAll
  case ordered =>
    intro state hReach
    cases hServes.along hReach with
    | running rest hSplit hFull hPage =>
        exact ⟨rest, hSplit.symm⟩
    | ended hAll hBound =>
        exact ⟨[], by simpa using hAll⟩
  case bounded =>
    intro state hReach
    exact (hServes.along hReach).length_le hServes.size_pos
  case progress =>
    intro hNamed pages cursor hReach
    exact (hServes.along hReach).exists_step
      hServes.size_pos hNamed
  case ends =>
    intro hNamed
    exact hServes.exists_end hNamed [] (some first) .refl

end Walk

end Criteria
