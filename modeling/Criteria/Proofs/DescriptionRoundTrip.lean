import Criteria.Proofs.DescriptionMembers

/-
  This file proves that descriptions are written so that they
  are read again as they were.

  What is written is an object of the members that are there,
  in their declared order. A value that is read, be it an
  object in any order or an array by position, is written as
  its members that are not null, each as it was.

  Key definitions include:
    * `Description.givenMembers`
    * `Description.presentMembers`

  Main statements:
    * `Description.ofMembers_toMembers`
    * `Description.ofItems_eq_ok_iff`
    * `Description.toMembers_perm`
    * `Description.json_round_trip`
-/

------------------------------------------------------------
-- Values that are Written
------------------------------------------------------------

namespace Criteria

namespace Description

open Except

theorem readCount_countJson (count : UInt64) :
    readCount (countJson count) = .ok count := by
  have hBound : (count.toNat : Int) < Int.pow 2 64 :=
    Int.ofNat_lt.mpr count.toNat_lt
  have hNonneg : ¬ (count.toNat : Int) < 0 := by omega
  simp only [countJson, readCount, if_neg hNonneg,
    if_pos hBound, Int.toNat_natCast, UInt64.ofNat_toNat]

theorem mapM_orderElement?_map_object
    (items : List Json.Members) :
    (items.map Json.object).mapM orderElement? =
      some items := by
  induction items with
  | nil => rfl
  | cons members rest ih =>
      rw [List.map_cons, List.mapM_cons, ih]
      rfl

theorem readOrderBy_orderByJson (order : OrderBy) :
    readOrderBy (orderByJson order) = .ok order := by
  cases order with
  | single members => rfl
  | sequence items =>
      rw [orderByJson, readOrderBy,
        mapM_orderElement?_map_object]

/- The value of a member can be read as that member. -/
theorem accepts_of_memberJson?
    {d : Description}
    {member : Member}
    {value : Json}
    (hValue : d.memberJson? member = some value) :
    member.Accepts value := by
  cases member with
  | take | skip =>
      rcases Option.map_eq_some_iff.mp hValue with
        ⟨count, _, rfl⟩
      exact ⟨_, (setMember_of_ne (by simp [countJson]) _
        _).trans (map_eq_ok_iff.mpr
          ⟨count, readCount_countJson count, rfl⟩)⟩
  | orderBy =>
      rcases Option.map_eq_some_iff.mp hValue with
        ⟨order, _, rfl⟩
      have hPresent : orderByJson order ≠ .null := by
        cases order <;> simp [orderByJson]
      exact ⟨_, (setMember_of_ne hPresent _ _).trans
        (map_eq_ok_iff.mpr
          ⟨order, readOrderBy_orderByJson order, rfl⟩)⟩
  | filter | relations | selection | cursor =>
      rcases Option.map_eq_some_iff.mp hValue with
        ⟨members, _, rfl⟩
      exact ⟨_, rfl⟩

/- What is written of a member is not null. -/
theorem shape_of_memberJson?
    {d : Description}
    {member : Member}
    {value : Json}
    (hValue : d.memberJson? member = some value) :
    value.shape ≠ .null := by
  cases member with
  | orderBy =>
      rcases Option.map_eq_some_iff.mp hValue with
        ⟨order, _, rfl⟩
      cases order <;> simp [orderByJson, Json.shape]
  | _ =>
      rcases Option.map_eq_some_iff.mp hValue with
        ⟨_, _, rfl⟩
      simp [countJson, Json.shape]

/- A description is known by what is written of it. -/
theorem eq_of_memberJson?
    {d e : Description}
    (hSame : ∀ member,
      d.memberJson? member = e.memberJson? member) :
    d = e := by
  have hObject : Function.Injective Json.object :=
    fun _ _ hEqual => Json.object.inj hEqual
  have hCount : Function.Injective countJson :=
    fun _ _ hEqual => countJson_injective hEqual
  have hOrder : Function.Injective orderByJson :=
    fun _ _ hEqual => orderByJson_injective hEqual
  have hFilter := Option.map_injective hObject (hSame .filter)
  have hRelations :=
    Option.map_injective hObject (hSame .relations)
  have hSelection :=
    Option.map_injective hObject (hSame .selection)
  have hTake := Option.map_injective hCount (hSame .take)
  have hSkip := Option.map_injective hCount (hSame .skip)
  have hOrderBy := Option.map_injective hOrder (hSame .orderBy)
  have hCursor := Option.map_injective hObject (hSame .cursor)
  cases d
  cases e
  congr

------------------------------------------------------------
-- Members that are Written
------------------------------------------------------------

theorem Member.mem_all (member : Member) :
    member ∈ Member.all := by
  cases member <;> decide

theorem Member.nodup_names :
    (Member.all.map Member.name).Nodup := by
  decide

theorem mem_toMembers_iff
    {d : Description}
    {name : String}
    {value : Json} :
    (name, value) ∈ d.toMembers ↔
      ∃ member : Member, name = member.name ∧
        d.memberJson? member = some value := by
  simp only [toMembers, List.mem_filterMap,
    Option.map_eq_some_iff, Prod.mk.injEq]
  constructor
  · rintro ⟨member, _, _, hValue, rfl, rfl⟩
    exact ⟨member, rfl, hValue⟩
  · rintro ⟨member, rfl, hValue⟩
    exact ⟨member, member.mem_all, value, hValue, rfl, rfl⟩

/- Members are written in their declared order. -/
theorem names_toMembers_sublist (d : Description) :
    (d.toMembers.map Prod.fst).Sublist
      (Member.all.map Member.name) := by
  unfold toMembers
  induction Member.all with
  | nil => exact .slnil
  | cons member rest ih =>
      rw [List.filterMap_cons]
      cases d.memberJson? member with
      | none => exact ih.cons _
      | some value => exact ih.cons_cons _

theorem distinct_toMembers (d : Description) :
    NameMap.Distinct d.toMembers :=
  Member.nodup_names.sublist d.names_toMembers_sublist

theorem lookup_toMembers
    (d : Description)
    (member : Member) :
    d.toMembers.lookup member.name =
      d.memberJson? member := by
  ext value
  rw [← d.distinct_toMembers.mem_iff_lookup,
    mem_toMembers_iff]
  constructor
  · rintro ⟨other, hName, hValue⟩
    cases Member.name_injective hName
    exact hValue
  · exact fun hValue => ⟨member, rfl, hValue⟩

/- What was written is read as it was. -/
theorem ofMembers_toMembers (d : Description) :
    ofMembers d.toMembers = .ok d := by
  have hMembers : ∀ entry ∈ d.toMembers, IsMember entry := by
    rintro ⟨name, value⟩ hEntry
    rcases mem_toMembers_iff.mp hEntry with
      ⟨member, hName, hValue⟩
    exact ⟨member, hName, accepts_of_memberJson? hValue⟩
  rcases (exists_ofMembers_iff _).mpr hMembers with
    ⟨e, hRead⟩
  -- What is written is never null, so none of it is lost.
  have hSame : e = d := by
    refine eq_of_memberJson? fun member => ?_
    rw [memberJson?_ofMembers d.distinct_toMembers hRead,
      lookup_toMembers]
    cases hValue : d.memberJson? member with
    | none => rfl
    | some value =>
        refine Json.present?_of_ne ?_
        rintro rfl
        exact shape_of_memberJson? hValue rfl
  rw [hRead, hSame]

------------------------------------------------------------
-- Members that are Given
------------------------------------------------------------

/- The members of a value, by their names or positions. -/
def givenMembers : Json → Json.Members
  | .object members => members
  | .array items => (Member.all.map Member.name).zip items
  | _ => []

/- A member that is null is not there. -/
def presentMembers (members : Json.Members) : Json.Members :=
  members.filter fun member => member.2.shape ≠ .null

/- Positions are names, as far as there are members. -/
theorem ofItems_eq_ok_iff
    {items : List Json}
    {d : Description} :
    ofItems items = .ok d ↔
      items.length ≤ Member.all.length ∧
        ofMembers (givenMembers (.array items)) = .ok d := by
  -- Items beyond the last member are dropped by `zip`.
  have hNamed :
      ofMembers (givenMembers (.array items)) =
        (Member.all.zip items).foldlM
          (fun d entry => d.setMember entry.1 entry.2)
          empty := by
    rw [ofMembers, givenMembers, List.zip_map_left,
      List.foldlM_map]
    congr 1
    funext d entry
    rw [Prod.map, setNamed, Member.ofName?_name]
    rfl
  rw [hNamed, ofItems, bind_eq_ok_iff]
  constructor
  · rintro ⟨read, hRead, hLength⟩
    split at hLength
    · cases hLength
    · rename_i hMost
      cases hLength
      exact ⟨Nat.le_of_not_lt hMost, hRead⟩
  · rintro ⟨hMost, hRead⟩
    refine ⟨d, hRead, ?_⟩
    rw [if_neg (Nat.not_lt.mpr hMost)]
    rfl

theorem names_zip_sublist
    (names : List String)
    (items : List Json) :
    ((names.zip items).map Prod.fst).Sublist names := by
  induction names generalizing items with
  | nil => exact .slnil
  | cons name rest ih =>
      cases items with
      | nil => exact List.nil_sublist _
      | cons item items => exact (ih items).cons_cons name

/- Only objects and arrays, not too long, are read. -/
theorem ofMembers_of_ofJson
    {value : Json}
    {d : Description}
    (hRead : ofJson value = .ok d) :
    ofMembers (givenMembers value) = .ok d ∧
      ((∃ members, value = .object members) ∨
        ∃ items, value = .array items ∧
          items.length ≤ Member.all.length) := by
  cases value with
  | object members => exact ⟨hRead, .inl ⟨members, rfl⟩⟩
  | array items =>
      rcases ofItems_eq_ok_iff.mp hRead with
        ⟨hLength, hNamed⟩
      exact ⟨hNamed, .inr ⟨items, rfl, hLength⟩⟩
  | _ => cases hRead

/- Members are written as they were read, but for null. -/
theorem toMembers_perm
    {d : Description}
    {members : Json.Members}
    (hDistinct : NameMap.Distinct members)
    (hRead : ofMembers members = .ok d) :
    d.toMembers.Perm (presentMembers members) := by
  have hNodup : (presentMembers members).Nodup :=
    (List.Nodup.of_map _ hDistinct).filter _
  -- Neither side repeats a member, so membership decides.
  refine (List.perm_ext_iff_of_nodup
    (List.Nodup.of_map _ d.distinct_toMembers) hNodup).mpr ?_
  rintro ⟨name, value⟩
  rw [mem_toMembers_iff, presentMembers, List.mem_filter,
    hDistinct.mem_iff_lookup]
  constructor
  · rintro ⟨member, rfl, hValue⟩
    have hShape := shape_of_memberJson? hValue
    rw [memberJson?_ofMembers hDistinct hRead] at hValue
    rcases Option.bind_eq_some_iff.mp hValue with
      ⟨given, hGiven, hPresent⟩
    cases given with
    | null => cases hPresent
    | _ =>
        cases hPresent
        exact ⟨hGiven, by simpa using hShape⟩
  · rintro ⟨hGiven, hShape⟩
    have hEntry := (hDistinct.mem_iff_lookup name value).mpr
      hGiven
    rcases (exists_ofMembers_iff members).mp ⟨d, hRead⟩ _
        hEntry with
      ⟨member, hName, _⟩
    refine ⟨member, hName, ?_⟩
    rw [memberJson?_ofMembers hDistinct hRead, ← hName,
      hGiven]
    refine Json.present?_of_ne ?_
    rintro rfl
    simp [Json.shape] at hShape

------------------------------------------------------------
-- Round Trips
------------------------------------------------------------

/-
  A description that is written is read as it was. A value
  that is read is an object, or an array with no more items
  than there are members and with the meaning of the object
  of them. It is written as the members that it gives and
  that are not null, in the declared order, and what is
  written has the meaning of the value.
-/
theorem json_round_trip :
    (∀ d : Description, ofJson d.toJson = .ok d) ∧
    ∀ (value : Json) (d : Description),
      (∀ members, value = .object members →
        NameMap.Distinct members) →
      ofJson value = .ok d →
        ((∃ members, value = .object members) ∨
          ∃ items, value = .array items ∧
            items.length ≤ Member.all.length) ∧
        ofJson (.object (givenMembers value)) = .ok d ∧
        (∃ members, d.toJson = .object members ∧
          members.Perm
            (presentMembers (givenMembers value)) ∧
          (members.map Prod.fst).Sublist
            ["where", "include", "select", "take", "skip",
              "orderBy", "cursor"]) ∧
        ofJson d.toJson = ofJson value ∧
        ∀ t : Translator,
          t.translateJson d.toJson = t.translateJson value := by
  refine ⟨ofMembers_toMembers, ?_⟩
  intro value d hDistinct hRead
  rcases ofMembers_of_ofJson hRead with ⟨hGiven, hForm⟩
  have hNames : NameMap.Distinct (givenMembers value) := by
    rcases hForm with ⟨members, rfl⟩ | ⟨items, rfl, _⟩
    · exact hDistinct members rfl
    · exact Member.nodup_names.sublist
        (names_zip_sublist _ items)
  have hAgain : ofJson d.toJson = ofJson value :=
    (ofMembers_toMembers d).trans hRead.symm
  refine ⟨hForm, hGiven, ?_, hAgain, ?_⟩
  · exact ⟨d.toMembers, rfl, toMembers_perm hNames hGiven,
      d.names_toMembers_sublist⟩
  · intro t
    rw [Translator.translateJson, Translator.translateJson,
      hAgain]

/- Five rows by views, with null where nothing is asked for. -/
def namedMembers : Json.Members :=
  [("orderBy", .array
      [.object [("views", .string "desc")], .object []]),
    ("where", .null),
    ("take", .number (.integer 5)),
    ("include", .object [])]

/- The same by position. -/
def positionedMembers : Json :=
  .array
    [.null, .object [], .null, .number (.integer 5), .null,
      .array
        [.object [("views", .string "desc")], .object []]]

theorem json_round_trip_namedMembers :
    NameMap.Distinct namedMembers ∧
    ∃ d, ofJson (.object namedMembers) = .ok d ∧
      ofJson positionedMembers = .ok d ∧
      ofJson d.toJson = .ok d ∧
      d.toMembers.map Prod.fst =
        ["include", "take", "orderBy"] ∧
      d.toMembers.Perm (presentMembers namedMembers) ∧
      d.toMembers.Perm
        (presentMembers (givenMembers positionedMembers)) ∧
      Translator.viewsTranslator.translateJson d.toJson =
        Translator.viewsTranslator.translateJson
          (.object namedMembers) ∧
      Translator.viewsTranslator.translateJson d.toJson =
        Translator.viewsTranslator.translateJson
          positionedMembers := by
  have hDistinct : NameMap.Distinct namedMembers := by
    simp [NameMap.Distinct, namedMembers]
  rcases json_round_trip with ⟨hWritten, hRead⟩
  rcases hRead (.object namedMembers) _ (by
      rintro _ ⟨⟩
      exact hDistinct) rfl with
    ⟨_, _, ⟨members, hMembers, hPerm, _⟩, _, hNamed⟩
  cases hMembers
  rcases hRead positionedMembers _ (by rintro _ ⟨⟩) rfl with
    ⟨_, _, ⟨others, hOthers, hOther, _⟩, _, hPositioned⟩
  cases hOthers
  exact ⟨hDistinct, _, rfl, rfl, hWritten _, rfl, hPerm,
    hOther, hNamed _, hPositioned _⟩

end Description

end Criteria
