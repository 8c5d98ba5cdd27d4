import Criteria.Proofs.FilterGrammar
import Criteria.Proofs.OrderGrouping
import Criteria.Proofs.Permutation

/-
  This file proves that translation looks only at the fields
  whose names a description mentions.

  The names it mentions are the field names in its filter, at
  every depth, and the names that it or its relations sort by
  or begin after, with the tiebreaker where there is a cursor.
  Of a schema that was built step by step, only the last
  field given to each of these names counts.

  Key definitions include:
    * `Schema.built`
    * `Schema.given?`
    * `Json.FilterMentions`
    * `Description.SortsBy`
    * `Description.Mentions`

  Main statements:
    * `Schema.find?_built`
    * `Filter.condition?_of_mentions`
    * `Translator.translateWithin_of_mentions`
    * `Translator.lookups_by_name`
-/

------------------------------------------------------------
-- Schemas Built by Steps
------------------------------------------------------------

namespace Criteria

namespace Schema

/- The schema of fields that are inserted one by one. -/
def built (steps : List (String × Field)) : Schema :=
  steps.foldl
    (fun schema step => schema.insert step.1 step.2) empty

/- The field that a name was given last. -/
def given?
    (steps : List (String × Field))
    (name : String) : Option Field :=
  steps.reverse.lookup name

theorem find?_built
    (steps : List (String × Field))
    (name : String) :
    (built steps).find? name = given? steps name := by
  induction steps using List.reverseRecOn with
  | nil => rfl
  | append_singleton steps step ih =>
      rcases step with ⟨key, field⟩
      unfold given? at ih ⊢
      rw [built, List.foldl_append, List.foldl_cons,
        List.foldl_nil, ← built, find?_insert, ih,
        List.reverse_append, List.reverse_singleton,
        List.singleton_append, NameMap.lookup_cons_eq_if]

variable {before after steps others : List (String × Field)}
variable {name other : String}
variable {field : Field}

/- What is given later goes before what was given earlier. -/
theorem given?_append
    (before after : List (String × Field))
    (name : String) :
    given? (before ++ after) name =
      (given? after name).or (given? before name) := by
  unfold given?
  rw [List.reverse_append, List.lookup_append]

theorem given?_singleton
    (name other : String)
    (field : Field) :
    given? [(name, field)] other =
      if other = name then some field else none := by
  unfold given?
  rw [List.reverse_singleton, NameMap.lookup_cons_eq_if,
    List.lookup_nil]

/- A field does not matter to the other names. -/
theorem given?_of_ne
    (hOther : other ≠ name) :
    given? (before ++ (name, field) :: after) other =
      given? (before ++ after) other := by
  rw [given?_append, given?_append, ← List.singleton_append,
    given?_append, given?_singleton, if_neg hOther,
    Option.or_none]

/- A field that is replaced later does not matter at all. -/
theorem given?_of_mem
    (hLater : name ∈ after.map Prod.fst)
    (other : String) :
    given? (before ++ (name, field) :: after) other =
      given? (before ++ after) other := by
  by_cases hOther : other = name
  · have hGiven : ∃ last, given? after name = some last := by
      refine Option.ne_none_iff_exists'.mp fun hNone => ?_
      rcases List.mem_map.mp hLater with ⟨step, hStep, rfl⟩
      have hMissing := List.lookup_eq_none_iff.mp hNone step
        (List.mem_reverse.mpr hStep)
      simp at hMissing
    rcases hGiven with ⟨last, hLast⟩
    rw [hOther, given?_append, given?_append,
      ← List.singleton_append, given?_append, hLast]
    rfl
  · exact given?_of_ne hOther

/- The order in which distinct names are given is nothing. -/
theorem given?_perm
    (hDistinct : NameMap.Distinct steps)
    (hPerm : steps.Perm others)
    (name : String) :
    given? steps name = given? others name :=
  NameMap.lookup_perm
    (hDistinct.perm (List.reverse_perm steps).symm)
    ((List.reverse_perm steps).trans
      (hPerm.trans (List.reverse_perm others).symm)) name

end Schema

------------------------------------------------------------
-- Mentioned Names
------------------------------------------------------------

open Criteria.Filter

/- A field name occurs in a filter object, at some depth. -/
inductive Json.FilterMentions
    (name : String) : Members → Prop where
  | field
      {members : Members}
      {value : Json}
      (hField : IsFieldName name)
      (hMember : (name, value) ∈ members) :
      FilterMentions name members
  | branch
      {members inner : Members}
      {op : Connective}
      (hMember : (op.word, .object inner) ∈ members)
      (hInner : FilterMentions name inner) :
      FilterMentions name members
  | branches
      {members inner : Members}
      {items : List Json}
      {op : Connective}
      (hMember : (op.word, .array items) ∈ members)
      (hItem : .object inner ∈ items)
      (hInner : FilterMentions name inner) :
      FilterMentions name members

/-
  A description or a relation in it sorts by a name, or
  begins after it, or has a cursor and it is the tiebreaker.
-/
inductive Description.SortsBy
    (tiebreaker name : String) : Description → Prop where
  | orderBy
      {d : Description}
      {value : Json}
      (hMember : (name, value) ∈ d.orderMembers) :
      SortsBy tiebreaker name d
  | cursor
      {d : Description}
      {members : Json.Members}
      {value : Json}
      (hCursor : d.cursor = some members)
      (hMember : (name, value) ∈ members) :
      SortsBy tiebreaker name d
  | tiebreaker
      {d : Description}
      {members : Json.Members}
      (hCursor : d.cursor = some members)
      (hName : name = tiebreaker) :
      SortsBy tiebreaker name d
  | relation
      {d e : Description}
      {key : String}
      {members inner : Json.Members}
      (hRelations : d.relations = some members)
      (hMember : (key, .object inner) ∈ members)
      (hRead : ofMembers inner = .ok e)
      (hInner : SortsBy tiebreaker name e) :
      SortsBy tiebreaker name d

/- A name is looked up for the filter or for an order. -/
def Description.Mentions
    (tiebreaker name : String)
    (d : Description) : Prop :=
  (∃ members, d.filter = some members ∧
    Json.FilterMentions name members) ∨
  d.SortsBy tiebreaker name

/- The word of a connective is no field name in a filter. -/
theorem Json.not_filterMentions_word
    (op : Connective)
    (members : Members) :
    ¬ FilterMentions op.word members := by
  intro hMentions
  induction hMentions with
  | field hField _ => exact hField op rfl
  | branch _ _ ih => exact ih
  | branches _ _ _ ih => exact ih

theorem Json.FilterMentions.mono
    {name : String}
    {members others : Members}
    (hMentions : FilterMentions name members)
    (hSubset : members ⊆ others) :
    FilterMentions name others := by
  cases hMentions with
  | field hField hMember =>
      exact .field hField (hSubset hMember)
  | branch hMember hInner =>
      exact .branch (hSubset hMember) hInner
  | branches hMember hItem hInner =>
      exact .branches (hSubset hMember) hItem hInner

/- What a description sorts by is no part of a selection. -/
theorem Description.SortsBy.selecting
    {tiebreaker name : String}
    {d : Description}
    {selection : Option Json.Members}
    (hSorts : SortsBy tiebreaker name
      { d with selection := selection })
    (other : Option Json.Members) :
    SortsBy tiebreaker name
      { d with selection := other } := by
  cases hSorts with
  | orderBy hMember => exact .orderBy hMember
  | cursor hCursor hMember => exact .cursor hCursor hMember
  | tiebreaker hCursor hName =>
      exact .tiebreaker hCursor hName
  | relation hRelations hMember hRead hInner =>
      exact .relation hRelations hMember hRead hInner

/- Nothing in a selection is looked up. -/
theorem Description.mentions_selection_iff
    (tiebreaker name : String)
    (d : Description)
    (selection : Option Json.Members) :
    Description.Mentions tiebreaker name
        { d with selection := selection } ↔
      d.Mentions tiebreaker name :=
  or_congr_right
    ⟨fun hSorts => hSorts.selecting d.selection,
      fun hSorts => SortsBy.selecting hSorts selection⟩

/- The word of a connective is mentioned only in an order. -/
theorem Description.mentions_word_iff
    (tiebreaker : String)
    (op : Connective)
    (d : Description) :
    d.Mentions tiebreaker op.word ↔
      d.SortsBy tiebreaker op.word := by
  constructor
  · rintro (⟨members, _, hFilter⟩ | hSorts)
    · exact absurd hFilter
        (Json.not_filterMentions_word op members)
    · exact hSorts
  · exact .inr

------------------------------------------------------------
-- Lookups of a Filter
------------------------------------------------------------

namespace Filter

open Json

variable {schema other : Schema}

/- Fields are looked up by their own names. -/
theorem fieldCondition?_of_find?
    {name : String}
    (hFind : schema.find? name = other.find? name)
    (context : Context)
    (content : Content) :
    fieldCondition? schema context name content =
      fieldCondition? other context name content := by
  unfold fieldCondition? Schema.resolve
  rw [hFind]

/- A field is mentioned by its own entry. -/
theorem find?_of_entry
    {name : String}
    {value : Json}
    (hSame : ∀ mentioned,
      FilterMentions mentioned [(name, value)] →
        schema.find? mentioned = other.find? mentioned)
    (hField : IsFieldName name) :
    schema.find? name = other.find? name :=
  hSame name (.field hField (List.mem_singleton_self _))

mutual

/- Schemas that agree on the names of a filter do on it. -/
theorem condition?_of_mentions :
    ∀ (f : Filter) (context : Context) {members : Members},
    ReadsAs (.object members) f →
    (∀ name, FilterMentions name members →
      schema.find? name = other.find? name) →
    f.condition? schema context =
      f.condition? other context
  | ⟨entries⟩, context, _, .object hEntries, hSame => by
      rw [condition?, condition?,
        entryConditions_of_mentions entries context hEntries
          hSame]

theorem entryConditions_of_mentions :
    ∀ (entries : List (Key × Content)) (context : Context)
      {members : Members},
    List.Forall₂ EntryReadsAs members entries →
    (∀ name, FilterMentions name members →
      schema.find? name = other.find? name) →
    entryConditions schema context entries =
      entryConditions other context entries
  | [], _, _, _, _ => rfl
  | (key, content) :: rest, context, member :: members,
      .cons hFirst hRest, hSame => by
      have hEntry := entryCondition?_of_mentions content
        context hFirst fun name hName =>
          hSame name (hName.mono (by simp))
      have hOthers := entryConditions_of_mentions rest context
        hRest fun name hName =>
          hSame name (hName.mono (by simp))
      rw [entryConditions, entryConditions, hEntry, hOthers]

theorem entryCondition?_of_mentions :
    ∀ (content : Content) (context : Context) {key : Key}
      {member : String × Json},
    EntryReadsAs member (key, content) →
    (∀ name, FilterMentions name [member] →
      schema.find? name = other.find? name) →
    entryCondition? schema context key content =
      entryCondition? other context key content
  | .null, context, _, _, hEntry, hSame => by
      cases hEntry with
      | null hField =>
          exact fieldCondition?_of_find?
            (find?_of_entry hSame hField) context .null
  | .literal value, context, _, _, hEntry, hSame => by
      cases hEntry with
      | literal hField _ _ =>
          exact fieldCondition?_of_find?
            (find?_of_entry hSame hField) context
            (.literal value)
  | .operators operators, context, _, _, hEntry, hSame => by
      cases hEntry with
      | operators hField _ =>
          exact fieldCondition?_of_find?
            (find?_of_entry hSame hField) context
            (.operators operators)
  | .branch item, context, _, _, hEntry, hSame => by
      cases hEntry with
      | @branch op value _ hValue =>
          cases value with
          | object inner =>
              have hItem := fun context =>
                condition?_of_mentions item context hValue
                  fun name hName => hSame name (.branch
                    (List.mem_singleton_self _) hName)
              cases op with
              | or =>
                  rw [entryCondition?, entryCondition?, hItem]
              | _ =>
                  simp only [entryCondition?, hItem]
          | _ => cases hValue
  | .branches items, context, _, _, hEntry, hSame => by
      cases hEntry with
      | @branches op values _ hItems =>
          have hEach :=
            itemConditions_of_mentions items hItems
              fun name inner hInner hName => hSame name
                (.branches (List.mem_singleton_self _) hInner
                  hName)
          rw [entryCondition?, entryCondition?]
          simp only [hEach]

theorem itemConditions_of_mentions :
    ∀ (items : List Filter) {values : List Json},
    List.Forall₂ ReadsAs values items →
    (∀ name inner, .object inner ∈ values →
      FilterMentions name inner →
        schema.find? name = other.find? name) →
    itemConditions schema items = itemConditions other items
  | [], _, _, _ => rfl
  | item :: rest, .object inner :: values,
      .cons hFirst hRest, hSame => by
      have hItem := condition?_of_mentions item .conjunctive
        hFirst fun name hName =>
          hSame name inner List.mem_cons_self hName
      have hOthers := itemConditions_of_mentions rest hRest
        fun name inside hInside hName =>
          hSame name inside (List.mem_cons_of_mem _ hInside)
            hName
      rw [itemConditions, itemConditions, hItem, hOthers]

end

end Filter

end Criteria

------------------------------------------------------------
-- Lookups of a Description
------------------------------------------------------------

namespace Criteria

namespace Translator

open Except Json

variable {settings : Settings}
variable {schema other : Schema}

theorem filterCondition?_of_mentions
    {filter? : Option Members}
    (hSame : ∀ name members, filter? = some members →
      FilterMentions name members →
        schema.find? name = other.find? name) :
    filterCondition? ⟨schema, settings⟩ filter? =
      filterCondition? ⟨other, settings⟩ filter? := by
  cases filter? with
  | none => rfl
  | some members =>
      refine bind_eq_bind fun f hParsed => ?_
      have hReads : Filter.ReadsAs (.object members) f :=
        Filter.readsAs_ofMembers _ _ _ _ hParsed
      exact Filter.condition?_of_mentions f .conjunctive
        hReads fun name hName => hSame name members rfl hName

/- Each key is looked up by the name of its field. -/
theorem sortTerms_of_find?
    {keys : List SortKey}
    (hSame : ∀ key ∈ keys,
      schema.find? key.field = other.find? key.field) :
    sortTerms ⟨schema, settings⟩ keys =
      sortTerms ⟨other, settings⟩ keys := by
  refine mapM_eq_mapM (List.forall₂_same.mpr ?_)
  intro key hKey
  unfold SortTerm.resolve Schema.resolve
  rw [hSame key hKey]

theorem cursorKey_of_find?
    {name : String}
    (hSame : schema.find? name = other.find? name)
    (keys : List SortKey)
    (value : Json) :
    cursorKey ⟨schema, settings⟩ keys name value =
      cursorKey ⟨other, settings⟩ keys name value := by
  unfold cursorKey Schema.resolve
  rw [hSame]

/- Fields of a cursor are looked up, and the tiebreaker. -/
theorem cursorKeys_of_find?
    {members : Members}
    (hMembers : ∀ name value, (name, value) ∈ members →
      schema.find? name = other.find? name)
    (hTie :
      schema.find? settings.tiebreaker =
        other.find? settings.tiebreaker)
    (keys : List SortKey) :
    cursorKeys ⟨schema, settings⟩ keys members =
      cursorKeys ⟨other, settings⟩ keys members := by
  refine bind_eq_bind fun member hMember => ?_
  have hIn : member ∈ members := by
    rcases primaryMember_eq_ok_iff.mp hMember with
      hOther | ⟨_, hFound⟩
    · have hKept := List.mem_singleton_self member
      rw [← hOther] at hKept
      exact List.mem_of_mem_filter hKept
    · exact List.mem_of_find?_eq_some hFound
  rw [cursorKey_of_find? (hMembers _ _ hIn)]
  simp only [cursorKey_of_find? hTie]

theorem applyCursor_of_find?
    {cursor? : Option Members}
    (hCursor : ∀ members, cursor? = some members →
      schema.find? settings.tiebreaker =
          other.find? settings.tiebreaker ∧
        ∀ name value, (name, value) ∈ members →
          schema.find? name = other.find? name)
    (keys : List SortKey)
    (q : Query) :
    applyCursor ⟨schema, settings⟩ keys cursor? q =
      applyCursor ⟨other, settings⟩ keys cursor? q := by
  cases cursor? with
  | none => rfl
  | some members =>
      rcases hCursor members rfl with ⟨hTie, hMembers⟩
      simp only [applyCursor,
        cursorKeys_of_find? hMembers hTie]

/- Relations are translated without their own filters. -/
theorem relations?_of_translate
    {f g : Description → Except Error Query}
    {relations? : Option Members}
    (hSame : ∀ members key inner d,
      relations? = some members →
      (key, .object inner) ∈ members →
      Description.ofMembers inner = .ok d →
      d.filter = none → f d = g d) :
    Translator.relations? f relations? =
      Translator.relations? g relations? := by
  cases relations? with
  | none => rfl
  | some members =>
      have hEntries :
          members.mapM (relation f) =
            members.mapM (relation g) := by
        refine mapM_eq_mapM (List.forall₂_same.mpr ?_)
        rintro ⟨key, value⟩ hMember
        cases value with
        | object inner =>
            refine bind_eq_bind fun d hRead => ?_
            cases hFilter : d.filter with
            | some filter => rfl
            | none =>
                simp only [Option.isSome_none,
                  Bool.false_eq_true, if_false,
                  hSame members key inner d rfl hMember
                    hRead hFilter]
        | _ => rfl
      simp only [Translator.relations?, hEntries]

/-
  Schemas that agree on the names that a description mentions
  agree on its translation. The levels of its relations are
  what the induction is on.
-/
theorem translateWithin_of_mentions
    (levels : Nat) :
    ∀ d : Description,
    (∀ name, d.Mentions settings.tiebreaker name →
      schema.find? name = other.find? name) →
    translateWithin ⟨schema, settings⟩ levels d =
      translateWithin ⟨other, settings⟩ levels d := by
  induction levels with
  | zero =>
      intro d _
      rfl
  | succ levels ih =>
      intro d hSame
      have hCondition :
          filterCondition? ⟨schema, settings⟩ d.filter =
            filterCondition? ⟨other, settings⟩ d.filter :=
        filterCondition?_of_mentions
          fun name members hFilter hName =>
            hSame name (.inl ⟨members, hFilter, hName⟩)
      have hRelations :
          relations?
              (translateWithin ⟨schema, settings⟩ levels)
              d.relations =
            relations?
              (translateWithin ⟨other, settings⟩ levels)
              d.relations := by
        refine relations?_of_translate ?_
        intro members key inner e hMembers hMember hRead
          hFilter
        refine ih e fun name hName => hSame name (.inr ?_)
        rcases hName with ⟨_, hSome, _⟩ | hSorts
        · rw [hFilter] at hSome
          cases hSome
        · exact .relation hMembers hMember hRead hSorts
      have hOrder : ∀ keys, d.sortKeys = .ok keys →
          sortTerms ⟨schema, settings⟩ keys =
            sortTerms ⟨other, settings⟩ keys := by
        intro keys hKeys
        refine sortTerms_of_find? fun key hKey => ?_
        have hMembers :=
          Description.orderMembers_of_sortKeys hKeys
        have hMember : key.entry ∈ d.orderMembers := by
          rw [hMembers]
          exact List.mem_map_of_mem hKey
        exact hSame key.field (.inr (.orderBy hMember))
      have hCursor : ∀ keys q,
          applyCursor ⟨schema, settings⟩ keys d.cursor q =
            applyCursor ⟨other, settings⟩ keys d.cursor
              q := by
        refine fun keys q => applyCursor_of_find? ?_ keys q
        intro members hCursor
        refine ⟨hSame _ (.inr (.tiebreaker hCursor rfl)), ?_⟩
        intro name value hMember
        exact hSame name (.inr (.cursor hCursor hMember))
      rw [translateWithin, translateWithin, hCondition,
        hRelations]
      refine bind_eq_bind fun condition _ => ?_
      refine bind_eq_bind fun relations _ => ?_
      refine bind_eq_bind fun columns _ => ?_
      refine bind_eq_bind fun keys hKeys => ?_
      rw [hOrder keys hKeys]
      exact bind_eq_bind fun order _ => hCursor keys _

/-
  Two schemas, however they were built, of which the same
  fields were given last to all mentioned names, translate a
  description to the same query or the same error. So a field
  that is not mentioned does not matter, nor one that carries
  the word of a connective unless something is sorted by it,
  nor one that is replaced, nor the order of distinct names,
  nor what is selected.
-/
theorem lookups_by_name
    (settings : Settings)
    (d : Description) :
    (∀ steps others : List (String × Field),
      (∀ name, d.Mentions settings.tiebreaker name →
        Schema.given? steps name =
          Schema.given? others name) →
      translate ⟨Schema.built steps, settings⟩ d =
        translate ⟨Schema.built others, settings⟩ d) ∧
    (∀ (before after : List (String × Field))
      (name : String) (field : Field),
      (¬ d.Mentions settings.tiebreaker name ∨
        (∃ op : Connective, name = op.word ∧
          ¬ d.SortsBy settings.tiebreaker name) ∨
        name ∈ after.map Prod.fst) →
      translate
          ⟨Schema.built (before ++ (name, field) :: after),
            settings⟩ d =
        translate
          ⟨Schema.built (before ++ after), settings⟩ d) ∧
    (∀ steps others : List (String × Field),
      NameMap.Distinct steps → steps.Perm others →
      translate ⟨Schema.built steps, settings⟩ d =
        translate ⟨Schema.built others, settings⟩ d) ∧
    ∀ (name : String) (selection : Option Members),
      Description.Mentions settings.tiebreaker name
          { d with selection := selection } ↔
        d.Mentions settings.tiebreaker name := by
  have hGiven : ∀ steps others : List (String × Field),
      (∀ name, d.Mentions settings.tiebreaker name →
        Schema.given? steps name =
          Schema.given? others name) →
      translate ⟨Schema.built steps, settings⟩ d =
        translate ⟨Schema.built others, settings⟩ d := by
    intro steps others hSame
    refine translateWithin_of_mentions _ d ?_
    intro name hName
    rw [Schema.find?_built, Schema.find?_built,
      hSame name hName]
  refine ⟨hGiven, ?_, ?_, ?_⟩
  · intro before after name field hUnused
    refine hGiven _ _ fun mentioned hMentioned => ?_
    have hUnmentioned :
        ¬ d.Mentions settings.tiebreaker name →
          mentioned ≠ name :=
      fun hNot hName => hNot (hName ▸ hMentioned)
    rcases hUnused with hNot | ⟨op, rfl, hNot⟩ | hLater
    · exact Schema.given?_of_ne (hUnmentioned hNot)
    · rw [← d.mentions_word_iff] at hNot
      exact Schema.given?_of_ne (hUnmentioned hNot)
    · exact Schema.given?_of_mem hLater mentioned
  · intro steps others hDistinct hPerm
    exact hGiven _ _ fun name _ =>
      Schema.given?_perm hDistinct hPerm name
  · intro name selection
    exact d.mentions_selection_iff settings.tiebreaker name
      selection

/- Titles of rows with views, and posts, after seven views. -/
def titlesAfter : Description :=
  { Description.empty with
    filter := some
      [("AND", .array [.object [("views",
        .object [("gt", .number (.integer 0))])]])]
    relations := some
      [("posts", .object
        [("orderBy", .object [("id", .string "desc")])])]
    selection := some [("title", .bool true)]
    cursor := some [("views", .number (.integer 7))] }

theorem mentions_titlesAfter
    {name : String}
    (hMentions : titlesAfter.Mentions "id" name) :
    name = "views" ∨ name = "id" := by
  rcases hMentions with ⟨members, hFilter, hName⟩ | hSorts
  · cases hFilter
    cases hName with
    | field hField hMember =>
        cases List.mem_singleton.mp hMember
        exact absurd rfl (hField .and)
    | branch hMember _ =>
        simp at hMember
    | branches hMember hItem hInner =>
        cases (Prod.mk.inj (List.mem_singleton.mp hMember)).2
        cases List.mem_singleton.mp hItem
        cases hInner with
        | field _ hMember =>
            cases List.mem_singleton.mp hMember
            exact .inl rfl
        | @branch _ _ op hMember _ =>
            cases op <;> simp [Connective.word] at hMember
        | branches hMember _ _ =>
            simp at hMember
  · cases hSorts with
    | orderBy hMember => cases hMember
    | cursor hCursor hMember =>
        cases hCursor
        cases List.mem_singleton.mp hMember
        exact .inl rfl
    | tiebreaker _ hName => exact .inr hName
    | relation hRelations hMember hRead hInner =>
        cases hRelations
        cases List.mem_singleton.mp hMember
        cases hRead
        cases hInner with
        | orderBy hMember =>
            cases List.mem_singleton.mp hMember
            exact .inr rfl
        | cursor hCursor _ => cases hCursor
        | tiebreaker hCursor _ => cases hCursor
        | relation hRelations _ _ _ => cases hRelations

/- Integers by name, one after the other. -/
def integerSteps
    (names : List String) : List (String × Field) :=
  names.map fun name => (name, ⟨⟨name⟩, .integer, false⟩)

/- The same among others, with views that are replaced. -/
def crowdedSteps : List (String × Field) :=
  ("views", ⟨⟨"seen"⟩, .string, true⟩) ::
    integerSteps ["AND", "id", "title", "views"]

theorem lookups_by_name_titlesAfter :
    (∀ name, titlesAfter.Mentions "id" name →
      Schema.given? crowdedSteps name =
        Schema.given? (integerSteps ["id", "views"]) name) ∧
    ∃ q,
      translate
          ⟨Schema.built (integerSteps ["id", "views"]),
            ⟨32, "id"⟩⟩ titlesAfter = .ok q ∧
      translate ⟨Schema.built crowdedSteps, ⟨32, "id"⟩⟩
          titlesAfter = .ok q := by
  have hGiven : ∀ name, titlesAfter.Mentions "id" name →
      Schema.given? crowdedSteps name =
        Schema.given? (integerSteps ["id", "views"])
          name := by
    intro name hMentions
    rcases mentions_titlesAfter hMentions with rfl | rfl
    · rfl
    · rfl
  have hSame :=
    (lookups_by_name ⟨32, "id"⟩ titlesAfter).1 _ _ hGiven
  exact ⟨hGiven, _, rfl, hSame⟩

end Translator

end Criteria
