import Criteria.NameMap
import Criteria.Proofs.Outcome
import Criteria.Truth
import Mathlib.Data.List.Induction
import Mathlib.Data.List.Perm.Basic

/-
  This file relates computations over lists in another order.

  Two computations run in parallel if both fail, be it with
  different errors, or both succeed with related results. A
  traversal runs in parallel with that of the same elements
  in another order. Named values with names of their own are
  found, and sorted into a map, in whatever order they stand.

  Key definitions include:
    * `Except.Parallel`
    * `NameMap.Distinct`

  Main statements:
    * `Except.Parallel.mapM`
    * `Except.Parallel.mapM_perm`
    * `Except.Parallel.mapM_moved`
    * `NameMap.lookup_perm`
    * `NameMap.ofList_perm`
    * `NameMap.parallel_ofList`
    * `Truth.all_perm` and `Truth.any_perm`
-/

------------------------------------------------------------
-- Parallel Runs
------------------------------------------------------------

namespace Except

variable {ε α β γ δ : Type}

/- Both fail somehow, or both succeed with related results. -/
inductive Parallel
    (R : α → β → Prop) :
    Except ε α → Except ε β → Prop where
  | ok {a : α} {b : β} (hRelated : R a b) :
      Parallel R (.ok a) (.ok b)
  | error (e f : ε) : Parallel R (.error e) (.error f)

namespace Parallel

variable {R : α → β → Prop}
variable {S : γ → δ → Prop}
variable {x : Except ε α}
variable {y : Except ε β}

/- A computation runs in parallel with itself. -/
theorem refl
    {R : α → α → Prop}
    (x : Except ε α)
    (hRefl : ∀ a, R a a) : Parallel R x x := by
  cases x with
  | error e => exact .error e e
  | ok a => exact .ok (hRefl a)

theorem mono
    {wider : α → β → Prop}
    (hParallel : Parallel R x y)
    (hWider : ∀ a b, R a b → wider a b) :
    Parallel wider x y := by
  cases hParallel with
  | ok hRelated => exact .ok (hWider _ _ hRelated)
  | error e f => exact .error e f

theorem trans
    {T : β → γ → Prop}
    {U : α → γ → Prop}
    {z : Except ε γ}
    (hFirst : Parallel R x y)
    (hSecond : Parallel T y z)
    (hTrans : ∀ a b c, R a b → T b c → U a c) :
    Parallel U x z := by
  cases hFirst with
  | ok hRelated =>
      cases hSecond with
      | ok hNext => exact .ok (hTrans _ _ _ hRelated hNext)
  | error e f =>
      cases hSecond with
      | error f g => exact .error e g

/- Sequences run in parallel where their steps do. -/
theorem bind
    {f : α → Except ε γ}
    {g : β → Except ε δ}
    (hFirst : Parallel R x y)
    (hNext : ∀ a b, R a b → Parallel S (f a) (g b)) :
    Parallel S (x >>= f) (y >>= g) := by
  cases hFirst with
  | ok hRelated => exact hNext _ _ hRelated
  | error e f => exact .error e f

/- After the same first step only what follows matters. -/
theorem after
    (x : Except ε α)
    {f : α → Except ε γ}
    {g : α → Except ε δ}
    (hNext : ∀ a, Parallel S (f a) (g a)) :
    Parallel S (x >>= f) (x >>= g) := by
  cases x with
  | error e => exact .error e e
  | ok a => exact hNext a

theorem map
    {f : α → γ}
    {g : β → δ}
    (hFirst : Parallel R x y)
    (hResult : ∀ a b, R a b → S (f a) (g b)) :
    Parallel S (f <$> x) (g <$> y) := by
  cases hFirst with
  | ok hRelated => exact .ok (hResult _ _ hRelated)
  | error e f => exact .error e f

/- Parallel runs succeed together. -/
theorem exists_ok_iff (hParallel : Parallel R x y) :
    (∃ a, x = .ok a) ↔ ∃ b, y = .ok b := by
  cases hParallel <;> simp

theorem related
    {a : α}
    {b : β}
    (hParallel : Parallel R (.ok a : Except ε α) (.ok b)) :
    R a b := by
  cases hParallel with
  | ok hRelated => exact hRelated

/- What is known of the first result can be used later. -/
theorem knowing
    {known : α → Prop}
    (hParallel : Parallel R x y)
    (hKnown : ∀ a, x = .ok a → known a) :
    Parallel (fun a b => known a ∧ R a b) x y := by
  cases hParallel with
  | ok hRelated => exact .ok ⟨hKnown _ rfl, hRelated⟩
  | error e f => exact .error e f

/- Runs that succeed together and relatedly are parallel. -/
theorem of_iff
    (hSucceeds : (∃ a, x = .ok a) ↔ ∃ b, y = .ok b)
    (hRelated : ∀ a b, x = .ok a → y = .ok b → R a b) :
    Parallel R x y := by
  cases x with
  | error e =>
      cases y with
      | error f => exact .error e f
      | ok b => simp at hSucceeds
  | ok a =>
      cases y with
      | error f => simp at hSucceeds
      | ok b => exact .ok (hRelated a b rfl rfl)

/- Traversals are parallel where they are on each element. -/
theorem mapM
    {f : α → Except ε γ}
    {g : β → Except ε δ}
    {items : List α}
    {others : List β}
    (hItems :
      List.Forall₂ (fun a b => Parallel S (f a) (g b))
        items others) :
    Parallel (List.Forall₂ S) (items.mapM f)
      (others.mapM g) := by
  induction hItems with
  | nil => exact .ok .nil
  | cons hFirst _ ih =>
      rw [List.mapM_cons, List.mapM_cons]
      refine hFirst.bind fun c d hRelated => ?_
      exact ih.map fun rest more hRest =>
        .cons hRelated hRest

/- Elements can be traversed in any order. -/
theorem mapM_perm
    (f : α → Except ε γ)
    {items others : List α}
    (hPerm : items.Perm others) :
    Parallel List.Perm (items.mapM f) (others.mapM f) := by
  have hSucceeds :
      (∃ results, items.mapM f = .ok results) ↔
        ∃ results, others.mapM f = .ok results := by
    rw [exists_mapM_eq_ok_iff, exists_mapM_eq_ok_iff]
    simp only [hPerm.mem_iff]
  refine .of_iff hSucceeds ?_
  intro results more hResults hMore
  rcases List.perm_comp_forall₂ hPerm.symm
      (mapM_eq_ok_iff.mp hResults) with
    ⟨moved, hMoved, hBack⟩
  have hSame : moved = more :=
    Except.ok.inj ((mapM_eq_ok_iff.mpr hMoved).symm.trans hMore)
  rw [← hSame]
  exact hBack.symm

/- Related elements can be traversed in any order. -/
theorem mapM_moved
    {f : α → Except ε γ}
    {g : β → Except ε δ}
    {items middle : List α}
    {others : List β}
    (hPerm : items.Perm middle)
    (hItems :
      List.Forall₂ (fun a b => Parallel S (f a) (g b))
        middle others) :
    Parallel
      (fun cs ds => ∃ es, cs.Perm es ∧ List.Forall₂ S es ds)
      (items.mapM f) (others.mapM g) :=
  (mapM_perm f hPerm).trans (mapM hItems)
    fun _ es _ hMoved hRelated => ⟨es, hMoved, hRelated⟩

end Parallel

end Except

------------------------------------------------------------
-- Distinct Names
------------------------------------------------------------

namespace Criteria

namespace NameMap

variable {α β : Type}

/- No two values have the same name. -/
def Distinct (entries : List (String × α)) : Prop :=
  (entries.map Prod.fst).Nodup

namespace Distinct

variable {entries others : List (String × α)}

theorem perm
    (hDistinct : Distinct entries)
    (hPerm : entries.Perm others) : Distinct others :=
  (hPerm.map Prod.fst).nodup_iff.mp hDistinct

theorem tail
    {entry : String × α}
    (hDistinct : Distinct (entry :: entries)) :
    Distinct entries :=
  (List.nodup_cons.mp hDistinct).2

/- The first name does not come again. -/
theorem ne_of_mem
    {entry other : String × α}
    (hDistinct : Distinct (entry :: entries))
    (hOther : other ∈ entries) : other.1 ≠ entry.1 := by
  intro hName
  have hFirst := (List.nodup_cons.mp hDistinct).1
  exact hFirst (hName ▸ List.mem_map_of_mem hOther)

theorem lookup_tail
    {name : String}
    {value : α}
    (hDistinct : Distinct ((name, value) :: entries)) :
    entries.lookup name = none := by
  rw [List.lookup_eq_none_iff]
  intro other hOther
  have hName := hDistinct.ne_of_mem hOther
  exact bne_iff_ne.mpr (Ne.symm hName)

/- Under distinct names all values are found. -/
theorem mem_iff_lookup
    (hDistinct : Distinct entries)
    (name : String)
    (value : α) :
    (name, value) ∈ entries ↔
      entries.lookup name = some value := by
  induction entries with
  | nil => simp
  | cons entry rest ih =>
      rcases entry with ⟨key, first⟩
      rw [List.mem_cons, lookup_cons_eq_if,
        ih hDistinct.tail]
      by_cases hKey : name = key
      · simp [hKey, hDistinct.lookup_tail, eq_comm]
      · simp [hKey]

end Distinct

variable {entries others : List (String × α)}

/- A distinct name is found wherever it stands. -/
theorem lookup_perm
    (hDistinct : Distinct entries)
    (hPerm : entries.Perm others)
    (name : String) :
    entries.lookup name = others.lookup name := by
  induction hPerm with
  | nil => rfl
  | cons entry _ ih =>
      rcases entry with ⟨key, value⟩
      rw [lookup_cons_eq_if, lookup_cons_eq_if,
        ih hDistinct.tail]
  | swap first second rest =>
      rcases first with ⟨key, value⟩
      rcases second with ⟨other, more⟩
      have hKeys : key ≠ other :=
        hDistinct.ne_of_mem List.mem_cons_self
      simp only [lookup_cons_eq_if]
      by_cases hFirst : name = key
      · have hOther : name ≠ other := hFirst ▸ hKeys
        simp [hFirst, hKeys]
      · simp [hFirst]
  | trans hFirst _ ihFirst ihSecond =>
      exact (ihFirst hDistinct).trans
        (ihSecond (hDistinct.perm hFirst))

/- A distinct name is found with its value. -/
theorem find?_perm
    (hDistinct : Distinct entries)
    (hPerm : entries.Perm others)
    (name : String) :
    (entries.find? fun entry => entry.1 = name) =
      others.find? fun entry => entry.1 = name := by
  have hFound : ∀ list : List (String × α),
      (list.find? fun entry => entry.1 = name) =
        (list.lookup name).map fun value => (name, value) := by
    intro list
    induction list with
    | nil => rfl
    | cons entry rest ih =>
        rcases entry with ⟨key, value⟩
        rw [lookup_cons_eq_if]
        by_cases hKey : key = name
        · simp [hKey]
        · simpa [hKey, Ne.symm hKey] using ih
  rw [hFound, hFound, lookup_perm hDistinct hPerm]

/- A new name is put somewhere. -/
theorem insert_perm
    {name : String}
    {value : α}
    {map : NameMap α}
    (hNew : map.lookup name = none) :
    (insert name value map).Perm ((name, value) :: map) := by
  induction map with
  | nil => exact .refl _
  | cons entry rest ih =>
      rcases entry with ⟨key, old⟩
      rw [lookup_cons_eq_if] at hNew
      rw [insert]
      split
      · exact .refl _
      · split
        · rename_i hSame
          simp [hSame] at hNew
        · rename_i hDiffer
          rw [if_neg hDiffer] at hNew
          exact ((ih hNew).cons _).trans (.swap _ _ _)

/- A map holds the values of distinct names, each once. -/
theorem ofList_perm_self
    (hDistinct : Distinct entries) :
    (ofList entries).Perm entries := by
  induction entries using List.reverseRecOn with
  | nil => exact .refl _
  | append_singleton entries entry ih =>
      rcases entry with ⟨name, value⟩
      have hLast :
          (entries ++ [(name, value)]).Perm
            ((name, value) :: entries) :=
        List.perm_append_comm
      have hMoved := hDistinct.perm hLast
      have hHeld := ih hMoved.tail
      have hNew : (ofList entries).lookup name = none := by
        rw [lookup_perm (hMoved.tail.perm hHeld.symm) hHeld]
        exact hMoved.lookup_tail
      have hInsert :
          ofList (entries ++ [(name, value)]) =
            insert name value (ofList entries) := by
        rw [ofList, List.foldl_append]
        rfl
      rw [hInsert]
      exact (insert_perm hNew).trans
        ((hHeld.cons _).trans hLast.symm)

/- Distinct names give a map in whatever order they stand. -/
theorem ofList_perm
    (hDistinct : Distinct entries)
    (hPerm : entries.Perm others) :
    ofList entries = ofList others := by
  have hSame : (ofList entries).Perm (ofList others) :=
    (ofList_perm_self hDistinct).trans
      (hPerm.trans
        (ofList_perm_self (hDistinct.perm hPerm)).symm)
  refine hSame.eq_of_pairwise ?_ (ascending_ofList entries)
    (ascending_ofList others)
  intro first second _ _ hLess hMore
  exact absurd hMore (String.lt_asymm hLess)

section Related

variable {R : String × α → String × β → Prop}
variable (hNames : ∀ entry other, R entry other →
  other.1 = entry.1)

include hNames in
theorem Distinct.of_forall₂
    {entries : List (String × α)}
    {others : List (String × β)}
    (hDistinct : Distinct entries)
    (hEntries : List.Forall₂ R entries others) :
    Distinct others := by
  have hSame :
      others.map Prod.fst = entries.map Prod.fst := by
    induction hEntries with
    | nil => rfl
    | cons hFirst _ ih =>
        rw [List.map_cons, List.map_cons,
          hNames _ _ hFirst, ih hDistinct.tail]
  unfold Distinct
  rwa [hSame]

include hNames in
/- Related values are put at the same place. -/
theorem forall₂_insert
    {entry : String × α}
    {other : String × β}
    {map : NameMap α}
    {more : NameMap β}
    (hEntry : R entry other)
    (hMaps : List.Forall₂ R map more) :
    List.Forall₂ R (insert entry.1 entry.2 map)
      (insert other.1 other.2 more) := by
  rcases entry with ⟨name, value⟩
  rcases other with ⟨_, related⟩
  cases hNames _ _ hEntry
  induction hMaps with
  | nil => exact .cons hEntry .nil
  | @cons first second rest remaining hFirst hRest ih =>
      rcases first with ⟨key, old⟩
      rcases second with ⟨_, moreOld⟩
      cases hNames _ _ hFirst
      rw [insert, insert]
      split
      · exact .cons hEntry (.cons hFirst hRest)
      · split
        · exact .cons hEntry hRest
        · exact .cons hFirst ih

include hNames in
theorem forall₂_ofList
    {entries : List (String × α)}
    {others : List (String × β)}
    (hEntries : List.Forall₂ R entries others) :
    List.Forall₂ R (ofList entries) (ofList others) := by
  have hFold : ∀ (map : NameMap α) (more : NameMap β),
      List.Forall₂ R map more →
        List.Forall₂ R
          (entries.foldl
            (fun map entry => insert entry.1 entry.2 map)
            map)
          (others.foldl
            (fun map entry => insert entry.1 entry.2 map)
            more) := by
    induction hEntries with
    | nil => exact fun _ _ hMaps => hMaps
    | cons hFirst _ ih =>
        intro map more hMaps
        exact ih _ _ (forall₂_insert hNames hFirst hMaps)
  exact hFold [] [] .nil

end Related

/-
  Distinct names that are kept by a traversal give related
  maps, in whatever order they stand.
-/
theorem parallel_ofList
    {ε γ δ : Type}
    {R : String × γ → String × δ → Prop}
    {f : String × α → Except ε (String × γ)}
    {g : String × β → Except ε (String × δ)}
    {members middle : List (String × α)}
    {others : List (String × β)}
    (hKept : ∀ member entry, f member = .ok entry →
      entry.1 = member.1)
    (hNames : ∀ entry other, R entry other →
      other.1 = entry.1)
    (hDistinct : Distinct members)
    (hPerm : members.Perm middle)
    (hEach :
      List.Forall₂ (fun a b => Except.Parallel R (f a) (g b))
        middle others) :
    Except.Parallel (List.Forall₂ R)
      (ofList <$> members.mapM f)
      (ofList <$> others.mapM g) := by
  have hResults : ∀ entries, members.mapM f = .ok entries →
      Distinct entries :=
    fun entries hEntries => hDistinct.of_forall₂ hKept
      (Except.mapM_eq_ok_iff.mp hEntries)
  have hMoved := Except.Parallel.mapM_moved hPerm hEach
  refine (hMoved.knowing hResults).map ?_
  rintro entries more ⟨hEntries, moved, hSame, hRelated⟩
  rw [ofList_perm hEntries hSame]
  exact forall₂_ofList hNames hRelated

end NameMap

------------------------------------------------------------
-- Truth Values
------------------------------------------------------------

namespace Truth

theorem and_left_comm (a b c : Truth) :
    a.and (b.and c) = b.and (a.and c) := by
  cases a <;> cases b <;> cases c <;> rfl

theorem or_left_comm (a b c : Truth) :
    a.or (b.or c) = b.or (a.or c) := by
  cases a <;> cases b <;> cases c <;> rfl

variable {values others : List Truth}

theorem all_perm
    (hPerm : values.Perm others) :
    all values = all others := by
  have hComm : LeftCommutative and := ⟨and_left_comm⟩
  exact hPerm.foldr_eq Truth.holds

theorem any_perm
    (hPerm : values.Perm others) :
    any values = any others := by
  have hComm : LeftCommutative or := ⟨or_left_comm⟩
  exact hPerm.foldr_eq Truth.fails

end Truth

end Criteria
