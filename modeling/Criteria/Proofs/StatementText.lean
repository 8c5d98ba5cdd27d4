import Criteria.Proofs.Renaming
import Criteria.Proofs.Skeleton

/-
  This file proves that neither operands nor names of fields
  reach the text of a statement.

  Descriptions of the same skeleton give one text, with bound
  values of the same types in the same places. A description
  that is renamed with its schema gives the same statement.

  Main statements:
    * `Translator.text_of_skeleton`
-/

namespace Criteria

namespace Translator

/-
  Two descriptions of one skeleton that are translated and
  applied to a table differ in bound values only. Under other
  names of fields that leave the order of the selected names
  a description gives the statement that it gave before.
-/
theorem text_of_skeleton
    (t : Translator)
    (table : Table) :
    (∀ d e : Description, d.SameSkeleton e →
      ∀ (q r : Query) (s u : Statement),
        t.translate d = .ok q →
        t.translate e = .ok r →
        q.statement table t.schema = .ok s →
        r.statement table t.schema = .ok u →
          s.sql.template = u.sql.template ∧
          s.sql.values.length = u.sql.values.length ∧
          List.Forall₂ (fun v w => v.kind? = w.kind?)
            s.sql.values u.sql.values) ∧
    (∀ (ρ : Renaming) (d : Description) (q : Query)
        (s : Statement),
      t.translate d = .ok q →
      q.statement table t.schema = .ok s →
      (∀ a ∈ q.selectedNames, ∀ b ∈ q.selectedNames,
        a < b → ρ.apply a < ρ.apply b) →
        ∃ r, (t.rename ρ).translate (d.rename ρ) = .ok r ∧
          r.statement table (t.rename ρ).schema = .ok s) := by
  constructor
  · intro d e hSkeleton q r s u hFirst hSecond hS hU
    have hQuery : q.Alike r :=
      paired_translate hSkeleton q r hFirst hSecond
    have hBlank : s.blank = u.blank :=
      Query.paired_statement hQuery table t.schema s u hS hU
    have hKinds := Statement.kinds_of_blank hBlank
    exact ⟨Statement.template_eq_of_blank hBlank,
      hKinds.length_eq, hKinds⟩
  · intro ρ d q s hQuery hStatement hOrder
    rcases follows_translate ρ d q hQuery with
      ⟨r, hRenamed, hRenames⟩
    rcases Query.statement_of_renames hRenames hOrder table
        t.schema s hStatement with ⟨_, hSame, rfl⟩
    exact ⟨r, hRenamed, hSame⟩

/- Fields whose names are not those of their columns. -/
def articlesTranslator : Translator :=
  { schema :=
      ⟨[("id", ⟨⟨"article_id"⟩, .integer, false⟩),
        ("title", ⟨⟨"headline"⟩, .string, false⟩),
        ("views", ⟨⟨"hits"⟩, .integer, false⟩)]⟩
    settings := ⟨32, "id"⟩ }

/- Titles without a text or of some views, after a cursor. -/
def searchedPage
    (text : String)
    (views id : Int)
    (take : UInt64) : Description :=
  { Description.empty with
    filter := some
      [("OR", .array
        [.object
          [("title", .object
            [("mode", .string "insensitive"),
              ("not", .object
                [("contains", .string text)])])],
        .object [("views", .number (.integer views))]])]
    selection := some
      [("title", .bool true), ("id", .bool true)]
    take := some take
    cursor := some
      [("views", .number (.integer views)),
        ("id", .number (.integer id))] }

theorem sameSkeleton_searchedPage
    (text other : String)
    (views hits id key : Int)
    (take most : UInt64) :
    (searchedPage text views id take).SameSkeleton
      (searchedPage other hits key most) := by
  have hScalar : ∀ {v w : Json}, v.IsScalar → w.IsScalar →
      v ≠ .null → w ≠ .null → v.Alike w := by
    intro v w hV hW hFirst hSecond
    exact .scalar hV hW (iff_of_false hFirst hSecond)
  have hTitle : Filter.IsFieldName "title" := by
    intro op
    cases op <;> decide
  have hViews : Filter.IsFieldName "views" := by
    intro op
    cases op <;> decide
  have hContains : Json.OperatorAlike
      ("contains", .string text) ("contains", .string other) :=
    .operand (by decide)
      (hScalar trivial trivial (by simp) (by simp))
  have hOr : Json.EntryAlike
      ("OR", .array
        [.object
          [("title", .object
            [("mode", .string "insensitive"),
              ("not", .object
                [("contains", .string text)])])],
        .object [("views", .number (.integer views))]])
      ("OR", .array
        [.object
          [("title", .object
            [("mode", .string "insensitive"),
              ("not", .object
                [("contains", .string other)])])],
        .object [("views", .number (.integer hits))]]) := by
    refine .branches .or (.cons ?_ (.cons ?_ .nil))
    · exact .object (.cons (.operators hTitle
        (.cons (.mode _)
          (.cons (.nested (.cons hContains .nil)) .nil)))
        .nil)
    · exact .object (.cons (.operand hViews
        (hScalar trivial trivial (by simp) (by simp))) .nil)
  exact {
    filter := .some (.cons hOr .nil)
    selection := rfl
    take := rfl
    skip := rfl
    orderBy := rfl
    cursor := .some
      (.cons ⟨rfl, by simp⟩ (.cons ⟨rfl, by simp⟩ .nil)) }

/- All names with the same letters before them. -/
def prefixedNames : Renaming where
  apply := fun name => "article_" ++ name
  injective := by
    intro name other hSame
    exact (String.append_right_inj _).mp hSame
  isFieldName := by
    intro name _ op hWord
    have hLetters := congrArg String.toList hWord
    cases op <;> simp [Connective.word] at hLetters

/-
  A text that is meant to end the statement is bound, and the
  selected columns keep their order under the longer names.
-/
theorem text_of_skeleton_searchedPage :
    (∃ q r s u,
      articlesTranslator.translate
          (searchedPage "5%" 3 7 20) = .ok q ∧
      articlesTranslator.translate
          (searchedPage "'; DROP" 8 9 1) = .ok r ∧
      q.statement ⟨"articles", []⟩
          articlesTranslator.schema = .ok s ∧
      r.statement ⟨"articles", []⟩
          articlesTranslator.schema = .ok u ∧
      s.sql.template = u.sql.template) ∧
    ∃ q r s,
      articlesTranslator.translate
          (searchedPage "5%" 3 7 20) = .ok q ∧
      q.statement ⟨"articles", []⟩
          articlesTranslator.schema = .ok s ∧
      (articlesTranslator.rename prefixedNames).translate
          ((searchedPage "5%" 3 7 20).rename
            prefixedNames) = .ok r ∧
      r.statement ⟨"articles", []⟩
          (articlesTranslator.rename prefixedNames).schema =
        .ok s := by
  have hText :=
    articlesTranslator.text_of_skeleton ⟨"articles", []⟩
  constructor
  · refine ⟨_, _, _, _, rfl, rfl, rfl, rfl, ?_⟩
    exact (hText.1 _ _
      (sameSkeleton_searchedPage "5%" "'; DROP" 3 8 7 9 20 1)
      _ _ _ _ rfl rfl rfl rfl).1
  · have hRenamed := hText.2 prefixedNames
      (searchedPage "5%" 3 7 20) _ _ rfl rfl (by decide)
    rcases hRenamed with ⟨r, hQuery, hStatement⟩
    exact ⟨_, r, _, rfl, rfl, hQuery, hStatement⟩

end Translator

end Criteria
