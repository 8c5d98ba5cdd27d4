/-
  This file defines lists of named values in ascending order
  of their names.

  Names are compared by code points, which is the order of
  their bytes in UTF-8.

  Key definitions include:
    * `NameMap.insert`
    * `NameMap.ofList`
    * `NameMap.Ascending`

  Main statements:
    * `NameMap.lookup_ofList`
    * `NameMap.ascending_ofList`
    * `NameMap.mem_iff_lookup`
-/

namespace Criteria

abbrev NameMap (α : Type) := List (String × α)

namespace NameMap

variable {α : Type}

/- Put a value at the place of its name. -/
def insert
    (name : String)
    (value : α) : NameMap α → NameMap α
  | [] => [(name, value)]
  | (other, old) :: rest =>
      if name < other then (name, value) :: (other, old) :: rest
      else if name = other then (name, value) :: rest
      else (other, old) :: insert name value rest

/- Of values with the same name the last one stays. -/
def ofList (entries : List (String × α)) : NameMap α :=
  entries.foldl
    (fun map entry => insert entry.1 entry.2 map) []

/- A list of pairs is searched from its start. -/
theorem lookup_cons_eq_if
    (name key : String)
    (value : α)
    (rest : List (String × α)) :
    ((key, value) :: rest).lookup name =
      if name = key then some value else rest.lookup name := by
  by_cases hName : name = key
  · simp [hName]
  · rw [List.lookup_cons, beq_false_of_ne hName]
    simp [hName]

/- What is found under a name is the first of that name. -/
theorem lookup_eq_find?
    (name : String)
    (entries : List (String × α)) :
    entries.lookup name =
      (entries.find? fun entry => entry.1 = name).map
        fun entry => entry.2 := by
  induction entries with
  | nil => rfl
  | cons entry rest ih =>
      rcases entry with ⟨key, value⟩
      rw [lookup_cons_eq_if]
      by_cases hKey : key = name
      · simp [hKey]
      · simp [hKey, Ne.symm hKey, ih]

/- Without the entries of another name it is the same. -/
theorem lookup_filter_ne
    {name other : String}
    (hOther : name ≠ other)
    (entries : List (String × α)) :
    (entries.filter fun entry => entry.1 ≠ other).lookup
        name =
      entries.lookup name := by
  induction entries with
  | nil => rfl
  | cons entry rest ih =>
      rcases entry with ⟨key, value⟩
      by_cases hKey : key = other
      · have hName : name ≠ key := hKey ▸ hOther
        simpa [hKey, lookup_cons_eq_if, hOther] using ih
      · simpa [hKey, lookup_cons_eq_if] using
          congrArg (if name = key then some value else ·) ih

------------------------------------------------------------
-- Maps
------------------------------------------------------------

/- A value is found under its name and hides no other name. -/
theorem lookup_insert
    (name other : String)
    (value : α)
    (map : NameMap α) :
    (insert name value map).lookup other =
      if other = name then some value
      else map.lookup other := by
  induction map with
  | nil => rw [insert, lookup_cons_eq_if]
  | cons entry rest ih =>
      rcases entry with ⟨key, old⟩
      rw [insert]
      split
      · rw [lookup_cons_eq_if]
      · split
        · rename_i hSame
          subst hSame
          by_cases hOther : other = name <;>
            simp [lookup_cons_eq_if, hOther]
        · rename_i hDiffer
          by_cases hOther : other = name
          · have hKey : other ≠ key := by
              rw [hOther]
              exact hDiffer
            rw [lookup_cons_eq_if, if_neg hKey, ih,
              if_pos hOther, if_pos hOther]
          · simp [lookup_cons_eq_if, ih, hOther]

/- Of the entries with a name the last one is found. -/
theorem lookup_ofList
    (name : String)
    (entries : List (String × α)) :
    (ofList entries).lookup name =
      entries.reverse.lookup name := by
  have hFold : ∀ map : NameMap α,
      (entries.foldl
          (fun map entry => insert entry.1 entry.2 map)
          map).lookup name =
        (entries.reverse.lookup name).or
          (map.lookup name) := by
    induction entries with
    | nil =>
        intro map
        rfl
    | cons entry rest ih =>
        intro map
        rcases entry with ⟨key, value⟩
        rw [List.foldl_cons, ih, List.reverse_cons,
          List.lookup_append, lookup_insert,
          lookup_cons_eq_if, Option.or_assoc]
        congr 1
        by_cases hKey : name = key <;> simp [hKey]
  exact (hFold []).trans (Option.or_none)

/- The names of a map ascend. -/
def Ascending (map : NameMap α) : Prop :=
  map.Pairwise fun a b => a.1 < b.1

theorem mem_insert
    {name : String}
    {value : α}
    {map : NameMap α}
    {entry : String × α}
    (hEntry : entry ∈ insert name value map) :
    entry = (name, value) ∨ entry ∈ map := by
  induction map with
  | nil => exact .inl (List.mem_singleton.mp hEntry)
  | cons first rest ih =>
      rcases first with ⟨key, old⟩
      rw [insert] at hEntry
      split at hEntry
      · exact List.mem_cons.mp hEntry
      · split at hEntry
        · exact (List.mem_cons.mp hEntry).imp_right
            (List.mem_cons_of_mem _)
        · rcases List.mem_cons.mp hEntry with rfl | hRest
          · exact .inr List.mem_cons_self
          · exact (ih hRest).imp_right
              (List.mem_cons_of_mem _)

theorem ascending_insert
    (name : String)
    (value : α)
    {map : NameMap α}
    (hMap : Ascending map) :
    Ascending (insert name value map) := by
  induction map with
  | nil => exact List.pairwise_singleton _ _
  | cons first rest ih =>
      rcases first with ⟨key, old⟩
      have hFirst := List.pairwise_cons.mp hMap
      rw [insert]
      split
      · rename_i hBefore
        refine List.pairwise_cons.mpr ⟨?_, hMap⟩
        intro entry hEntry
        rcases List.mem_cons.mp hEntry with rfl | hRest
        · exact hBefore
        · exact String.lt_trans hBefore
            (hFirst.1 entry hRest)
      · rename_i hNotBefore
        split
        · rename_i hSame
          subst hSame
          exact List.pairwise_cons.mpr hFirst
        · rename_i hDiffer
          have hAfter : key < name := by
            refine String.not_le.mp fun hLe => hDiffer ?_
            exact String.le_antisymm hLe
              (String.not_lt.mp hNotBefore)
          refine List.pairwise_cons.mpr ⟨?_, ih hFirst.2⟩
          intro entry hEntry
          rcases mem_insert hEntry with rfl | hRest
          · exact hAfter
          · exact hFirst.1 entry hRest

theorem ascending_ofList
    (entries : List (String × α)) :
    Ascending (ofList entries) := by
  have hFold : ∀ map : NameMap α, Ascending map →
      Ascending
        (entries.foldl
          (fun map entry => insert entry.1 entry.2 map)
          map) := by
    induction entries with
    | nil =>
        intro map hMap
        exact hMap
    | cons entry rest ih =>
        intro map hMap
        exact ih _ (ascending_insert entry.1 entry.2 hMap)
  exact hFold [] .nil

/- A map holds exactly what is found in it. -/
theorem mem_iff_lookup
    {map : NameMap α}
    (hMap : Ascending map)
    (name : String)
    (value : α) :
    (name, value) ∈ map ↔ map.lookup name = some value := by
  induction map with
  | nil => simp
  | cons entry rest ih =>
      rcases entry with ⟨key, first⟩
      have hFirst := List.pairwise_cons.mp hMap
      rw [List.mem_cons, lookup_cons_eq_if, ih hFirst.2]
      by_cases hKey : name = key
      · have hRest : rest.lookup name ≠ some value := by
          intro hFound
          have hAfter := hFirst.1 _
            ((ih hFirst.2).mpr hFound)
          rw [hKey] at hAfter
          exact String.lt_irrefl _ hAfter
        simp [hKey] at hRest ⊢
        simp [hRest, eq_comm]
      · simp [hKey]

end NameMap

end Criteria
