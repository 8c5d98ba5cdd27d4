import Criteria.Description
import Criteria.Proofs.Outcome

/-
  This file proves how sort keys are read, and which direction
  they give to a field.

  Each member of a sort order is one key, and the first
  without a direction is the error. Of the members that name a
  field the first one directs it. A field that none of them
  names is ascending.

  Key definitions include:
    * `SortKey.entry`
    * `SortKey.HasDirection`
    * `Description.orderMembers`
    * `SortKey.Directs`

  Main statements:
    * `OrderBy.keys_eq_ok_iff`
    * `OrderBy.keys_eq_error_iff`
    * `SortKey.Directs.functional`
    * `SortKey.directs_directionIn`
-/

------------------------------------------------------------
-- Reading Sort Keys
------------------------------------------------------------

namespace Criteria

open Except

namespace SortKey

/- The member that a key is read from. -/
def entry (key : SortKey) : String × Json :=
  (key.field, .string key.direction.word)

/- A member gives a direction by one of the two words. -/
def HasDirection (member : String × Json) : Prop :=
  ∃ direction : Direction,
    member.2 = .string direction.word

theorem directionOf_eq_ok_iff
    {field : String}
    {value : Json}
    {direction : Direction} :
    directionOf field value = .ok direction ↔
      value = .string direction.word := by
  cases value with
  | string word =>
      rw [Json.string.injEq,
        ← Direction.ofWord?_eq_some_iff]
      unfold directionOf
      dsimp only
      cases Direction.ofWord? word <;> simp
  | _ => simp [directionOf]

theorem directionOf_eq_error_iff
    {field : String}
    {value : Json}
    {e : Error} :
    directionOf field value = .error e ↔
      ¬ HasDirection (field, value) ∧
        e = .unsupportedShape (.direction field value) := by
  have hDirection :
      HasDirection (field, value) ↔
        ∃ direction, directionOf field value =
          .ok direction := by
    simp only [directionOf_eq_ok_iff, HasDirection]
  rw [hDirection]
  unfold directionOf
  dsimp only
  split <;> simp [eq_comm (a := e)]

theorem ofMember_eq_ok_iff
    {member : String × Json}
    {key : SortKey} :
    ofMember member = .ok key ↔ member = key.entry := by
  rcases member with ⟨field, value⟩
  rcases key with ⟨name, direction⟩
  simp only [ofMember, bind_eq_ok_iff,
    directionOf_eq_ok_iff, entry, Prod.mk.injEq]
  constructor
  · rintro ⟨_, hValue, hKey⟩
    cases hKey
    exact ⟨rfl, hValue⟩
  · rintro ⟨rfl, hValue⟩
    exact ⟨direction, hValue, rfl⟩

theorem ofMember_eq_error_iff
    {member : String × Json}
    {e : Error} :
    ofMember member = .error e ↔
      ¬ HasDirection member ∧
        e = .unsupportedShape
          (.direction member.1 member.2) :=
  map_eq_error_iff.trans directionOf_eq_error_iff

theorem exists_ofMember_iff
    {member : String × Json} :
    (∃ key, ofMember member = .ok key) ↔
      HasDirection member := by
  rcases member with ⟨field, value⟩
  simp only [ofMember_eq_ok_iff, entry, Prod.mk.injEq]
  constructor
  · rintro ⟨key, _, hValue⟩
    exact ⟨key.direction, hValue⟩
  · rintro ⟨direction, hValue⟩
    exact ⟨⟨field, direction⟩, rfl, hValue⟩

/- There is one key for each member, in their order. -/
theorem ofMembers_eq_ok_iff
    {members : Json.Members}
    {keys : List SortKey} :
    ofMembers members = .ok keys ↔
      members = keys.map entry := by
  rw [ofMembers, mapM_eq_ok_iff]
  simp only [ofMember_eq_ok_iff]
  rw [← List.forall₂_map_right_iff, List.forall₂_eq_eq_eq]

/- The first member without a direction is the error. -/
theorem ofMembers_eq_error_iff
    {members : Json.Members}
    {e : Error} :
    ofMembers members = .error e ↔
      ∃ before field value after,
        members = before ++ (field, value) :: after ∧
        (∀ member ∈ before, HasDirection member) ∧
        ¬ HasDirection (field, value) ∧
        e = .unsupportedShape (.direction field value) := by
  rw [ofMembers, mapM_eq_error_iff]
  simp only [exists_ofMember_iff, ofMember_eq_error_iff,
    Prod.exists]

end SortKey

namespace OrderBy

variable {order : OrderBy}

theorem keys_eq_ok_iff
    {keys : List SortKey} :
    order.keys = .ok keys ↔
      order.members = keys.map SortKey.entry :=
  SortKey.ofMembers_eq_ok_iff

theorem keys_eq_error_iff
    {e : Error} :
    order.keys = .error e ↔
      ∃ before field value after,
        order.members =
          before ++ (field, value) :: after ∧
        (∀ member ∈ before, SortKey.HasDirection member) ∧
        ¬ SortKey.HasDirection (field, value) ∧
        e = .unsupportedShape (.direction field value) :=
  SortKey.ofMembers_eq_error_iff

end OrderBy

namespace Description

/- The members of the sort order, none if there is none. -/
def orderMembers
    (d : Description) : Json.Members :=
  match d.orderBy with
  | some order => order.members
  | none => []

theorem sortKeys_of_orderBy
    {d : Description}
    {order : OrderBy}
    (hOrder : d.orderBy = some order) :
    d.sortKeys = order.keys := by
  rw [sortKeys, hOrder]

theorem orderMembers_of_sortKeys
    {d : Description}
    {keys : List SortKey}
    (hKeys : d.sortKeys = .ok keys) :
    d.orderMembers = keys.map SortKey.entry := by
  unfold sortKeys at hKeys
  unfold orderMembers
  cases hOrder : d.orderBy with
  | none =>
      rw [hOrder] at hKeys
      cases hKeys
      rfl
  | some order =>
      rw [hOrder] at hKeys
      exact OrderBy.keys_eq_ok_iff.mp hKeys

end Description

------------------------------------------------------------
-- Directions
------------------------------------------------------------

/- The first member that names a field directs it. -/
inductive SortKey.Directs
    (members : Json.Members)
    (name : String) : Direction → Prop where
  | named
      {before after : Json.Members}
      {direction : Direction}
      (hMembers :
        members =
          before ++ (name, .string direction.word) :: after)
      (hFirst : ∀ member ∈ before, member.1 ≠ name) :
      Directs members name direction
  | unnamed
      (hUnnamed : ∀ member ∈ members, member.1 ≠ name) :
      Directs members name .ascending

theorem SortKey.Directs.lookup_eq
    {members : Json.Members}
    {name : String}
    {direction : Direction}
    (hDirects : Directs members name direction) :
    members.lookup name = some (.string direction.word) ∨
      members.lookup name = none ∧
        direction = .ascending := by
  have hAbsent : ∀ before : Json.Members,
      (∀ member ∈ before, member.1 ≠ name) →
        before.lookup name = none := by
    intro before hBefore
    refine List.lookup_eq_none_iff.mpr fun member hMember => ?_
    exact bne_iff_ne.mpr (hBefore member hMember).symm
  cases hDirects with
  | named hMembers hFirst =>
      left
      rw [hMembers, List.lookup_append, hAbsent _ hFirst,
        List.lookup_cons_self]
      rfl
  | unnamed hUnnamed =>
      exact .inr ⟨hAbsent members hUnnamed, rfl⟩

/- A field has only one direction. -/
theorem SortKey.Directs.functional
    {members : Json.Members}
    {name : String}
    {direction other : Direction}
    (hFirst : Directs members name direction)
    (hSecond : Directs members name other) :
    direction = other := by
  rcases hFirst.lookup_eq with hWord | ⟨hNone, rfl⟩
  · rcases hSecond.lookup_eq with hOther | ⟨hNone, _⟩
    · rw [hWord, Option.some.injEq, Json.string.injEq,
        ← Direction.ofWord?_eq_some_iff] at hOther
      have hSelf :=
        (Direction.ofWord?_eq_some_iff _ direction).mpr rfl
      exact Option.some.inj (hSelf.symm.trans hOther)
    · rw [hWord] at hNone
      cases hNone
  · rcases hSecond.lookup_eq with hOther | ⟨_, rfl⟩
    · rw [hNone] at hOther
      cases hOther
    · rfl

/- The direction of a field, ascending if undeclared. -/
def SortKey.directionIn
    (keys : List SortKey)
    (name : String) : Direction :=
  (declared? keys name).getD .ascending

theorem SortKey.directs_directionIn
    (keys : List SortKey)
    (name : String) :
    Directs (keys.map entry) name
      (directionIn keys name) := by
  unfold directionIn declared?
  cases hFound : keys.find? fun key => key.field = name with
  | none =>
      refine .unnamed ?_
      simpa [entry] using List.find?_eq_none.mp hFound
  | some key =>
      rcases List.find?_eq_some_iff_append.mp hFound with
        ⟨hName, before, after, rfl, hBefore⟩
      have hField : key.field = name := by
        simpa using hName
      have hSplit :
          (before ++ key :: after).map entry =
            before.map entry ++
              (name, .string key.direction.word) ::
                after.map entry := by
        rw [List.map_append, List.map_cons, entry, hField]
      exact .named hSplit (by simpa [entry] using hBefore)

end Criteria
