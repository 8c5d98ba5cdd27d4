import Criteria.Proofs.Permutation
import Criteria.Proofs.TranslationSteps

/-
  This file proves what reading a description keeps of its
  members.

  A member is read apart from the others: whether its value
  is accepted depends on the member only, and the description
  has the value as it was written, but for null, which is the
  same as no value. Where names are distinct an object is
  read if all its members are, and each of them is kept.

  Key definitions include:
    * `Json.present?`
    * `Description.Member.Accepts`
    * `Description.IsMember`

  Main statements:
    * `Description.memberJson?_setMember`
    * `Description.exists_ofMembers_iff`
    * `Description.memberJson?_ofMembers`
-/

------------------------------------------------------------
-- Values as Written
------------------------------------------------------------

namespace Criteria

/- A value that is not null. -/
def Json.present? : Json → Option Json
  | .null => none
  | value => some value

theorem Json.present?_of_ne
    {value : Json}
    (hValue : value ≠ .null) :
    value.present? = some value := by
  cases value with
  | null => exact absurd rfl hValue
  | _ => rfl

namespace Description

open Except

theorem readMembers_eq_ok_iff
    {value : Json}
    {members : Json.Members} :
    readMembers value = .ok members ↔
      value = .object members := by
  cases value <;> simp [readMembers, fail]

/- A count that is read is written as it was. -/
theorem countJson_of_readCount
    {value : Json}
    {count : UInt64}
    (hRead : readCount value = .ok count) :
    countJson count = value := by
  unfold readCount at hRead
  split at hRead
  · rename_i n
    split at hRead
    · cases hRead
    · rename_i hNonneg
      split at hRead
      · rename_i hBound
        cases hRead
        have hSmall : n.toNat < 2 ^ 64 := by
          have hPower : Int.pow 2 64 = 18446744073709551616 :=
            rfl
          omega
        have hSame : ((UInt64.ofNat n.toNat).toNat : Int) = n := by
          rw [UInt64.toNat_ofNat_of_lt' hSmall]
          omega
        rw [countJson, hSame]
      · cases hRead
  · cases hRead

theorem map_object_of_mapM_orderElement?
    {items : List Json}
    {sequence : List Json.Members}
    (hItems : items.mapM orderElement? = some sequence) :
    sequence.map Json.object = items := by
  induction items generalizing sequence with
  | nil =>
      cases hItems
      rfl
  | cons item rest ih =>
      rw [List.mapM_cons] at hItems
      rcases Option.bind_eq_some_iff.mp hItems with
        ⟨members, hFirst, hTail⟩
      rcases Option.bind_eq_some_iff.mp hTail with
        ⟨others, hRest, hAll⟩
      cases hAll
      have hItem : item = .object members := by
        cases item with
        | object inner =>
            cases hFirst
            rfl
        | _ => cases hFirst
      rw [List.map_cons, ih hRest, hItem]

/- So is an order. -/
theorem orderByJson_of_readOrderBy
    {value : Json}
    {order : OrderBy}
    (hRead : readOrderBy value = .ok order) :
    orderByJson order = value := by
  unfold readOrderBy at hRead
  split at hRead
  · cases hRead
    rfl
  · split at hRead
    · rename_i sequence hItems
      cases hRead
      exact congrArg Json.array
        (map_object_of_mapM_orderElement? hItems)
    · cases hRead
  · cases hRead

theorem countJson_injective
    {count other : UInt64}
    (hSame : countJson count = countJson other) :
    count = other := by
  simp only [countJson, Json.number.injEq,
    Number.integer.injEq, Int.natCast_inj] at hSame
  exact UInt64.toNat_inj.mp hSame

theorem orderByJson_injective
    {order other : OrderBy}
    (hSame : orderByJson order = orderByJson other) :
    order = other := by
  have hObject : Function.Injective Json.object :=
    fun _ _ hEqual => Json.object.inj hEqual
  cases order <;> cases other <;>
    simp_all [orderByJson, hObject.list_map.eq_iff]

------------------------------------------------------------
-- Single Members
------------------------------------------------------------

/- A value that can be read as a member. -/
def Member.Accepts
    (member : Member)
    (value : Json) : Prop :=
  ∃ d, empty.setMember member value = .ok d

/- It can be read whatever else was read before. -/
theorem exists_setMember_iff
    (d : Description)
    (member : Member)
    (value : Json) :
    (∃ e, d.setMember member value = .ok e) ↔
      member.Accepts value := by
  unfold Member.Accepts
  by_cases hValue : value = .null
  · subst hValue
    exact ⟨fun _ => ⟨empty, rfl⟩, fun _ => ⟨d, rfl⟩⟩
  · rw [setMember_of_ne hValue, setMember_of_ne hValue]
    cases member <;> simp [map_eq_ok_iff]

/- A member is set to its value and hides no other member. -/
theorem memberJson?_setMember
    {d e : Description}
    {member : Member}
    {value : Json}
    (hSet : d.setMember member value = .ok e)
    (other : Member) :
    e.memberJson? other =
      if other = member then
        value.present?.or (d.memberJson? other)
      else d.memberJson? other := by
  by_cases hValue : value = .null
  · subst hValue
    cases hSet
    simp [Json.present?]
  · rw [Json.present?_of_ne hValue, Option.some_or]
    rw [setMember_of_ne hValue] at hSet
    cases member with
    | take | skip =>
        rcases map_eq_ok_iff.mp hSet with ⟨count, hRead, rfl⟩
        have hWritten := countJson_of_readCount hRead
        cases other <;> simp [memberJson?, hWritten]
    | orderBy =>
        rcases map_eq_ok_iff.mp hSet with ⟨order, hRead, rfl⟩
        have hWritten := orderByJson_of_readOrderBy hRead
        cases other <;> simp [memberJson?, hWritten]
    | filter | relations | selection | cursor =>
        rcases map_eq_ok_iff.mp hSet with
          ⟨members, hRead, rfl⟩
        have hWritten := readMembers_eq_ok_iff.mp hRead
        cases other <;> simp [memberJson?, hWritten]

theorem Member.name_injective
    {member other : Member}
    (hName : member.name = other.name) : member = other := by
  have hFound := ofName?_name member
  rw [hName, ofName?_name other] at hFound
  exact (Option.some.inj hFound).symm

------------------------------------------------------------
-- Objects of Members
------------------------------------------------------------

/- A named value that is a member of a description. -/
def IsMember (entry : String × Json) : Prop :=
  ∃ member : Member,
    entry.1 = member.name ∧ member.Accepts entry.2

theorem exists_setNamed_iff
    (d : Description)
    (entry : String × Json) :
    (∃ e, d.setNamed entry = .ok e) ↔ IsMember entry := by
  rcases entry with ⟨key, value⟩
  simp only [setNamed_eq_ok_iff]
  constructor
  · rintro ⟨e, member, hKey, hSet⟩
    exact ⟨member, hKey,
      (exists_setMember_iff d member value).mp ⟨e, hSet⟩⟩
  · rintro ⟨member, hKey, hAccepts⟩
    rcases (exists_setMember_iff d member value).mpr
        hAccepts with
      ⟨e, hSet⟩
    exact ⟨e, member, hKey, hSet⟩

/- An object is read where each of its members is. -/
theorem exists_foldlM_setNamed_iff
    (d : Description)
    (members : Json.Members) :
    (∃ e, members.foldlM setNamed d = .ok e) ↔
      ∀ entry ∈ members, IsMember entry := by
  induction members generalizing d with
  | nil => simp [pure, Except.pure]
  | cons entry rest ih =>
      rw [List.foldlM_cons, List.forall_mem_cons,
        ← exists_setNamed_iff d entry]
      constructor
      · rintro ⟨e, hRead⟩
        rcases bind_eq_ok_iff.mp hRead with
          ⟨next, hFirst, hRest⟩
        exact ⟨⟨next, hFirst⟩, (ih next).mp ⟨e, hRest⟩⟩
      · rintro ⟨⟨next, hFirst⟩, hRest⟩
        rcases (ih next).mpr hRest with ⟨e, hRead⟩
        exact ⟨e, bind_eq_ok_iff.mpr ⟨next, hFirst, hRead⟩⟩

theorem exists_ofMembers_iff
    (members : Json.Members) :
    (∃ d, ofMembers members = .ok d) ↔
      ∀ entry ∈ members, IsMember entry :=
  exists_foldlM_setNamed_iff empty members

theorem memberJson?_foldlM
    {d e : Description}
    {members : Json.Members}
    (hDistinct : NameMap.Distinct members)
    (hRead : members.foldlM setNamed d = .ok e)
    (member : Member) :
    e.memberJson? member =
      ((members.lookup member.name).bind
        Json.present?).or (d.memberJson? member) := by
  induction members generalizing d with
  | nil =>
      cases hRead
      rfl
  | cons entry rest ih =>
      rcases entry with ⟨key, value⟩
      rw [List.foldlM_cons] at hRead
      rcases bind_eq_ok_iff.mp hRead with
        ⟨next, hFirst, hRest⟩
      rcases setNamed_eq_ok_iff.mp hFirst with
        ⟨first, rfl, hSet⟩
      rw [ih hDistinct.tail hRest,
        memberJson?_setMember hSet member,
        NameMap.lookup_cons_eq_if]
      by_cases hMember : member = first
      · subst hMember
        rw [hDistinct.lookup_tail, if_pos rfl, if_pos rfl]
        rfl
      · have hName : member.name ≠ first.name :=
          fun hSame => hMember (Member.name_injective hSame)
        rw [if_neg hMember, if_neg hName]

/- A description has the values of the object it is read of. -/
theorem memberJson?_ofMembers
    {d : Description}
    {members : Json.Members}
    (hDistinct : NameMap.Distinct members)
    (hRead : ofMembers members = .ok d)
    (member : Member) :
    d.memberJson? member =
      (members.lookup member.name).bind Json.present? := by
  have hEmpty : empty.memberJson? member = none := by
    cases member <;> rfl
  rw [memberJson?_foldlM hDistinct hRead member, hEmpty,
    Option.or_none]

end Description

end Criteria
