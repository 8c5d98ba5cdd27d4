import Criteria.Proofs.FilterLeaves
import Criteria.Proofs.SchemaLookups

/-
  This file proves that the names which a translated
  description mentions are known.

  A filter has a condition only if the field of each of its
  leaves is found, and an order or a cursor has keys only if
  their fields are. Names of relations are known in turn, on
  every level.

  Main statements:
    * `Filter.exists_leaf_of_mentions`
    * `Filter.exists_field_of_mentions`
    * `Translator.exists_field_of_sortsBy`
    * `Translator.exists_field_of_mentions`
-/

------------------------------------------------------------
-- Names of a Filter
------------------------------------------------------------

namespace Criteria

open Except

/- What is related to a list has a partner for each element. -/
theorem exists_of_forall₂
    {α β : Type}
    {R : α → β → Prop}
    {items : List α}
    {others : List β}
    (hItems : List.Forall₂ R items others)
    {item : α}
    (hItem : item ∈ items) :
    ∃ other ∈ others, R item other := by
  induction hItems with
  | nil => cases hItem
  | cons hFirst _ ih =>
      rcases List.mem_cons.mp hItem with rfl | hLater
      · exact ⟨_, List.mem_cons_self, hFirst⟩
      · rcases ih hLater with ⟨other, hOther, hRelated⟩
        exact ⟨other, List.mem_cons_of_mem _ hOther,
          hRelated⟩

namespace Filter

open Json

theorem mem_entryLeaves_of_mem
    {key : Key}
    {content : Content}
    {entries : List (Key × Content)}
    (hEntry : (key, content) ∈ entries)
    {leaf : Key × Content}
    (hLeaf : leaf ∈ contentLeaves key content) :
    leaf ∈ entryLeaves entries := by
  induction entries with
  | nil => cases hEntry
  | cons entry rest ih =>
      rcases entry with ⟨other, more⟩
      rw [entryLeaves, List.mem_append]
      rcases List.mem_cons.mp hEntry with hSame | hLater
      · cases hSame
        exact .inl hLeaf
      · exact .inr (ih hLater)

theorem mem_itemLeaves_of_mem
    {item : Filter}
    {items : List Filter}
    (hItem : item ∈ items)
    {leaf : Key × Content}
    (hLeaf : leaf ∈ item.leaves) :
    leaf ∈ itemLeaves items := by
  induction items with
  | nil => cases hItem
  | cons other rest ih =>
      rw [itemLeaves, List.mem_append]
      rcases List.mem_cons.mp hItem with rfl | hLater
      · exact .inl hLeaf
      · exact .inr (ih hLater)

theorem not_isFieldName_word (op : Connective) :
    ¬ IsFieldName op.word :=
  fun hField => hField op rfl

/- Whatever a field holds, it is the one leaf of its entry. -/
theorem leaf_of_field
    {name : String}
    {value : Json}
    {entry : Key × Content}
    (hField : IsFieldName name)
    (hReads : EntryReadsAs (name, value) entry) :
    contentLeaves entry.1 entry.2 =
      [(.field name, entry.2)] := by
  cases hReads with
  | null => rfl
  | literal => rfl
  | operators => rfl
  | branch => exact absurd hField (not_isFieldName_word _)
  | branches => exact absurd hField (not_isFieldName_word _)

/- An object under a connective is read as a filter. -/
theorem exists_branch
    {op : Connective}
    {inner : Members}
    {entry : Key × Content}
    (hReads : EntryReadsAs (op.word, .object inner) entry) :
    ∃ f, ReadsAs (.object inner) f ∧
      contentLeaves entry.1 entry.2 = f.leaves := by
  generalize hWord : op.word = word at hReads
  generalize hValue : Json.object inner = value at hReads
  cases hReads with
  | null => cases hValue
  | literal hField =>
      exact absurd (hWord ▸ hField) (not_isFieldName_word op)
  | operators hField =>
      exact absurd (hWord ▸ hField) (not_isFieldName_word op)
  | branch hItem => exact ⟨_, hValue ▸ hItem, rfl⟩
  | branches => cases hValue

/- An array under a connective is read filter by filter. -/
theorem exists_branches
    {op : Connective}
    {items : List Json}
    {entry : Key × Content}
    (hReads : EntryReadsAs (op.word, .array items) entry) :
    ∃ filters, List.Forall₂ ReadsAs items filters ∧
      contentLeaves entry.1 entry.2 = itemLeaves filters := by
  generalize hWord : op.word = word at hReads
  generalize hValue : Json.array items = value at hReads
  cases hReads with
  | null => cases hValue
  | literal hField =>
      exact absurd (hWord ▸ hField) (not_isFieldName_word op)
  | operators hField =>
      exact absurd (hWord ▸ hField) (not_isFieldName_word op)
  | branch hItem =>
      subst hValue
      cases hItem
  | branches hItems =>
      cases hValue
      exact ⟨_, hItems, rfl⟩

/- A mentioned name is the field of some leaf. -/
theorem exists_leaf_of_mentions
    {name : String}
    {members : Members}
    (hMentions : FilterMentions name members)
    {f : Filter}
    (hRead : ReadsAs (.object members) f) :
    ∃ content, (.field name, content) ∈ f.leaves := by
  induction hMentions generalizing f with
  | field hField hMember =>
      rcases hRead with ⟨hEntries⟩
      rcases exists_of_forall₂ hEntries hMember with
        ⟨⟨key, content⟩, hEntry, hReads⟩
      refine ⟨content, mem_entryLeaves_of_mem hEntry ?_⟩
      rw [leaf_of_field hField hReads]
      exact List.mem_singleton_self _
  | branch hMember _ ih =>
      rcases hRead with ⟨hEntries⟩
      rcases exists_of_forall₂ hEntries hMember with
        ⟨entry, hEntry, hReads⟩
      rcases exists_branch hReads with ⟨g, hItem, hLeaves⟩
      rcases ih hItem with ⟨content, hLeaf⟩
      refine ⟨content, mem_entryLeaves_of_mem hEntry ?_⟩
      rw [hLeaves]
      exact hLeaf
  | branches hMember hItem _ ih =>
      rcases hRead with ⟨hEntries⟩
      rcases exists_of_forall₂ hEntries hMember with
        ⟨entry, hEntry, hReads⟩
      rcases exists_branches hReads with
        ⟨filters, hItems, hLeaves⟩
      rcases exists_of_forall₂ hItems hItem with
        ⟨g, hFilter, hReadsAs⟩
      rcases ih hReadsAs with ⟨content, hLeaf⟩
      refine ⟨content, mem_entryLeaves_of_mem hEntry ?_⟩
      rw [hLeaves]
      exact mem_itemLeaves_of_mem hFilter hLeaf

/- What a filter with a condition mentions is known. -/
theorem exists_field_of_mentions
    {schema : Schema}
    {name : String}
    {members : Members}
    (hMentions : FilterMentions name members)
    {f : Filter}
    (hRead : ReadsAs (.object members) f)
    {context : Context}
    {c? : Option Condition}
    (hCondition : f.condition? schema context = .ok c?) :
    ∃ field, schema.find? name = some field := by
  rcases exists_leaf_of_mentions hMentions hRead with
    ⟨content, hLeaf⟩
  have hLeaves : ∃ conditions,
      f.leaves.mapM (leafCondition? schema) =
        .ok conditions := by
    have hAgree := @agree_leaves schema context f
    rw [hCondition] at hAgree
    rcases hAgree.exists_ok with ⟨conditions, hLeaves, _⟩
    exact ⟨conditions, hLeaves⟩
  rcases exists_mapM_eq_ok_iff.mp hLeaves _ hLeaf with
    ⟨given, hGiven⟩
  rcases bind_eq_ok_iff.mp hGiven with ⟨field, hField, _⟩
  exact ⟨field, (schema.resolve_eq_ok_iff name field).mp
    hField⟩

end Filter

end Criteria

------------------------------------------------------------
-- Names of a Description
------------------------------------------------------------

namespace Criteria

open Except

namespace Translator

open Json

variable {t : Translator}

theorem exists_field_of_cursorKey
    {keys : List SortKey}
    {name : String}
    {operand : Json}
    {key : Cursor.Key}
    (hKey : t.cursorKey keys name operand = .ok key) :
    ∃ field, t.schema.find? name = some field := by
  rcases cursorKey_eq_ok_iff.mp hKey with
    ⟨field, _, hField, _⟩
  exact ⟨field, (t.schema.resolve_eq_ok_iff name field).mp
    hField⟩

/- The names of a cursor are known, and the tiebreaker is. -/
theorem exists_field_of_cursorKeys
    {keys : List SortKey}
    {members : Members}
    {primary : Cursor.Key}
    {secondary : Option Cursor.Key}
    (hKeys :
      t.cursorKeys keys members = .ok (primary, secondary))
    {name : String}
    (hName : name = t.settings.tiebreaker ∨
      ∃ value, (name, value) ∈ members) :
    ∃ field, t.schema.find? name = some field := by
  rcases cursorKeys_eq_ok_iff.mp hKeys with
    ⟨first, operand, hMember, hFirst, hSecond⟩
  have hTie : ∃ field,
      t.schema.find? t.settings.tiebreaker = some field := by
    rcases hSecond with ⟨hSame, _⟩ | ⟨_, key, hKey, _⟩
    · rw [← hSame]
      exact exists_field_of_cursorKey hFirst
    · exact exists_field_of_cursorKey hKey
  rcases hName with rfl | ⟨value, hIn⟩
  · exact hTie
  · by_cases hOther : name = t.settings.tiebreaker
    · rw [hOther]
      exact hTie
    · have hKept :
          (name, value) ∈ members.filter
            fun m => m.1 ≠ t.settings.tiebreaker := by
        simp [hIn, hOther]
      rcases primaryMember_eq_ok_iff.mp hMember with
        hOnly | ⟨hNone, _⟩
      · rw [hOnly, List.mem_singleton] at hKept
        cases hKept
        exact exists_field_of_cursorKey hFirst
      · rw [hNone] at hKept
        cases hKept

/- What a translated description sorts by is known. -/
theorem exists_field_of_sortsBy
    {name : String}
    {d : Description}
    (hSorts : d.SortsBy t.settings.tiebreaker name)
    {levels : Nat}
    {q : Query}
    (hQuery : t.translateWithin levels d = .ok q) :
    ∃ field, t.schema.find? name = some field := by
  induction hSorts generalizing levels q with
  | orderBy hMember =>
      cases levels with
      | zero => cases hQuery
      | succ levels =>
          rcases translateWithin_succ_eq_ok_iff.mp hQuery with
            ⟨_, _, _, keys, order, _, _, _, hKeys, hOrder, _⟩
          rw [Description.orderMembers_of_sortKeys hKeys]
            at hMember
          rcases List.mem_map.mp hMember with
            ⟨key, hKey, hEntry⟩
          cases hEntry
          rcases exists_mapM_eq_ok_iff.mp ⟨_, hOrder⟩ _ hKey
            with ⟨term, hTerm⟩
          rcases bind_eq_ok_iff.mp hTerm with
            ⟨field, hField, _⟩
          exact ⟨field,
            (t.schema.resolve_eq_ok_iff _ field).mp hField⟩
  | cursor hCursor hMember =>
      cases levels with
      | zero => cases hQuery
      | succ levels =>
          rcases translateWithin_succ_eq_ok_iff.mp hQuery with
            ⟨_, _, _, _, _, _, _, _, _, _, hApplied⟩
          rw [hCursor] at hApplied
          rcases applyCursor_eq_ok_iff.mp hApplied with
            ⟨_, _, hKeys, _⟩
          exact exists_field_of_cursorKeys hKeys
            (.inr ⟨_, hMember⟩)
  | tiebreaker hCursor hName =>
      cases levels with
      | zero => cases hQuery
      | succ levels =>
          rcases translateWithin_succ_eq_ok_iff.mp hQuery with
            ⟨_, _, _, _, _, _, _, _, _, _, hApplied⟩
          rw [hCursor] at hApplied
          rcases applyCursor_eq_ok_iff.mp hApplied with
            ⟨_, _, hKeys, _⟩
          exact exists_field_of_cursorKeys hKeys (.inl hName)
  | relation hRelations hMember hRead _ ih =>
      cases levels with
      | zero => cases hQuery
      | succ levels =>
          rcases translateWithin_succ_eq_ok_iff.mp hQuery with
            ⟨_, _, _, _, _, _, hWith, _⟩
          rw [hRelations] at hWith
          rcases relations?_eq_ok_iff.mp hWith with
            ⟨entries, hEntries, _⟩
          rcases exists_mapM_eq_ok_iff.mp ⟨_, hEntries⟩ _
            hMember with ⟨entry, hEntry⟩
          rcases relation_eq_ok_iff.mp hEntry with
            ⟨inner, e, r, hInner, hOther, _, hNested, _⟩ |
              ⟨hFlag, _⟩
          · cases hInner
            rw [hRead] at hOther
            cases hOther
            exact ih hNested
          · exact absurd rfl (hFlag _)

/- What a translated description mentions is known. -/
theorem exists_field_of_mentions
    {name : String}
    {d : Description}
    (hMentions : d.Mentions t.settings.tiebreaker name)
    {q : Query}
    (hQuery : t.translate d = .ok q) :
    ∃ field, t.schema.find? name = some field := by
  rcases hMentions with ⟨members, hFilter, hName⟩ | hSorts
  · unfold translate at hQuery
    cases hLevels : t.settings.maxDepth with
    | zero =>
        rw [hLevels] at hQuery
        cases hQuery
    | succ levels =>
        rw [hLevels] at hQuery
        rcases translateWithin_succ_eq_ok_iff.mp hQuery with
          ⟨_, _, _, _, _, hCondition, _⟩
        rw [hFilter] at hCondition
        rcases filterCondition?_eq_ok_iff.mp hCondition with
          ⟨f, hParsed, hGiven⟩
        exact Filter.exists_field_of_mentions hName
          (Filter.readsAs_ofMembers _ _ _ _ hParsed) hGiven
  · exact exists_field_of_sortsBy hSorts hQuery

end Translator

end Criteria
