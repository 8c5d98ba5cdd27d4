import Mathlib.Data.List.Forall2

/-
  This file relates computations that may fail to the steps
  they are made of.

  Two computations agree up to a relation if both fail with
  the same error or both succeed with related results. They
  are paired if nothing is asked of them unless both succeed,
  and one follows the other if it succeeds where that does.
  One is cut off from the other if it only ever stops
  earlier, with one error, and does so where something does
  not fit.

  Key definitions include:
    * `Except.inOrder`
    * `Except.ErrorsAre`
    * `Except.ResultsAre`
    * `Except.SameResults`
    * `Except.Agree`
    * `Except.Paired`
    * `Except.Follows`
    * `Except.CutOff`

  Main statements:
    * `Except.bind_eq_ok_iff`
    * `Except.mapM_eq_ok_iff`
    * `Except.exists_mapM_eq_ok_iff`
    * `Except.mapM_eq_mapM`
    * `Except.mapM_flatten`
    * `Except.exists_mapM_amid`
    * `Except.bind_eq_error_iff`
    * `Except.mapM_eq_error_iff`
    * `Except.inOrder_eq_error_iff`
    * `Except.Agree.bind`
    * `Except.Agree.mapM`
    * `Except.Agree.mapM_amid`
    * `Except.Agree.foldlM`
    * `Except.Paired.mapM`
    * `Except.Follows.mapM`
    * `Except.CutOff.bind`
    * `Except.CutOff.mapM`
-/

------------------------------------------------------------
-- Success
------------------------------------------------------------

namespace Except

variable {ε α β γ δ : Type}

/- A sequence succeeds where both of its steps do. -/
theorem bind_eq_ok_iff
    {x : Except ε α}
    {f : α → Except ε β}
    {b : β} :
    (x >>= f) = .ok b ↔ ∃ a, x = .ok a ∧ f a = .ok b := by
  cases x <;> simp [bind, Except.bind]

theorem map_eq_ok_iff
    {x : Except ε α}
    {f : α → β}
    {b : β} :
    (f <$> x) = .ok b ↔ ∃ a, x = .ok a ∧ f a = b := by
  cases x <;> simp [Functor.map, Except.map]

/- A list is traversed by going through its elements. -/
theorem mapM_eq_ok_iff
    {f : α → Except ε β}
    {items : List α}
    {results : List β} :
    items.mapM f = .ok results ↔
      List.Forall₂ (fun item result => f item = .ok result)
        items results := by
  induction items generalizing results with
  | nil =>
      cases results <;> simp [pure, Except.pure]
  | cons item items ih =>
      rw [List.mapM_cons, bind_eq_ok_iff,
        List.forall₂_cons_left_iff]
      constructor
      · rintro ⟨first, hFirst, hRest⟩
        rcases bind_eq_ok_iff.mp hRest with
          ⟨others, hOthers, hResults⟩
        cases hResults
        exact ⟨first, others, hFirst, ih.mp hOthers, rfl⟩
      · rintro ⟨first, others, hFirst, hOthers, rfl⟩
        refine ⟨first, hFirst, ?_⟩
        rw [ih.mpr hOthers]
        rfl

/- A traversal succeeds where it succeeds on each element. -/
theorem exists_mapM_eq_ok_iff
    {f : α → Except ε β}
    {items : List α} :
    (∃ results, items.mapM f = .ok results) ↔
      ∀ item ∈ items, ∃ result, f item = .ok result := by
  induction items with
  | nil => simp [pure, Except.pure]
  | cons item items ih =>
      simp only [mapM_eq_ok_iff] at ih ⊢
      rw [List.forall_mem_cons, ← ih]
      constructor
      · rintro ⟨results, hResults⟩
        rcases List.forall₂_cons_left_iff.mp hResults with
          ⟨first, rest, hFirst, hRest, rfl⟩
        exact ⟨⟨first, hFirst⟩, rest, hRest⟩
      · rintro ⟨⟨first, hFirst⟩, rest, hRest⟩
        exact ⟨first :: rest, .cons hFirst hRest⟩

/- What follows a step matters only for what it gives. -/
theorem bind_eq_bind
    {x : Except ε α}
    {f g : α → Except ε β}
    (hNext : ∀ a, x = .ok a → f a = g a) :
    (x >>= f) = (x >>= g) := by
  cases x with
  | error e => rfl
  | ok a => exact hNext a rfl

/- Traversals are equal where they are on each element. -/
theorem mapM_eq_mapM
    {f : α → Except ε γ}
    {g : β → Except ε γ}
    {items : List α}
    {others : List β}
    (hEach :
      List.Forall₂ (fun a b => f a = g b) items others) :
    items.mapM f = others.mapM g := by
  induction hEach with
  | nil => rfl
  | cons hFirst _ ih =>
      rw [List.mapM_cons, List.mapM_cons, hFirst, ih]

/- A list of lists is traversed list by list. -/
theorem mapM_flatten
    (f : α → Except ε β)
    (lists : List (List α)) :
    lists.flatten.mapM f =
      List.flatten <$> lists.mapM fun items =>
        items.mapM f := by
  induction lists with
  | nil => rfl
  | cons items lists ih =>
      rw [List.flatten_cons, List.mapM_append, ih,
        List.mapM_cons]
      cases items.mapM f with
      | error e => rfl
      | ok first =>
          cases lists.mapM fun items => items.mapM f <;> rfl

/- What is around one element gives the same for any other. -/
theorem exists_mapM_amid
    (f : α → Except ε β)
    (before after : List α) :
    ∃ first rest, ∀ item results,
      (before ++ item :: after).mapM f = .ok results →
        ∃ result, f item = .ok result ∧
          results = first ++ result :: rest := by
  refine ⟨(before.mapM f).toOption.getD [],
    (after.mapM f).toOption.getD [], ?_⟩
  intro item results hItems
  rw [List.mapM_append, bind_eq_ok_iff] at hItems
  rcases hItems with ⟨first, hFirst, hTail⟩
  rcases bind_eq_ok_iff.mp hTail with
    ⟨others, hOthers, hResults⟩
  cases hResults
  rw [List.mapM_cons, bind_eq_ok_iff] at hOthers
  rcases hOthers with ⟨result, hItem, hLater⟩
  rcases bind_eq_ok_iff.mp hLater with ⟨rest, hRest, hCons⟩
  cases hCons
  rw [hFirst, hRest]
  exact ⟨result, hItem, rfl⟩

/- What a traversal gives it gives for one of the elements. -/
theorem mem_of_mapM_eq_ok
    {f : α → Except ε β}
    {items : List α}
    {results : List β}
    (hItems : items.mapM f = .ok results)
    {result : β}
    (hResult : result ∈ results) :
    ∃ item ∈ items, f item = .ok result := by
  have hEach := mapM_eq_ok_iff.mp hItems
  clear hItems
  induction hEach with
  | nil => cases hResult
  | @cons item first items results hFirst hRest ih =>
      rcases List.mem_cons.mp hResult with rfl | hLater
      · exact ⟨item, List.mem_cons_self, hFirst⟩
      · rcases ih hLater with ⟨other, hOther, hGiven⟩
        exact ⟨other, List.mem_cons_of_mem _ hOther, hGiven⟩

------------------------------------------------------------
-- Failure
------------------------------------------------------------

theorem exists_eq_ok_iff
    {x : Except ε α} :
    (∃ a, x = .ok a) ↔ ∀ e, x ≠ .error e := by
  cases x <;> simp

theorem exists_eq_error_iff
    {x : Except ε α} :
    (∃ e, x = .error e) ↔ ¬ ∃ a, x = .ok a := by
  cases x <;> simp

/- A sequence fails where one of its steps does. -/
theorem bind_eq_error_iff
    {x : Except ε α}
    {f : α → Except ε β}
    {e : ε} :
    (x >>= f) = .error e ↔
      x = .error e ∨ ∃ a, x = .ok a ∧ f a = .error e := by
  cases x <;> simp [bind, Except.bind]

theorem map_eq_error_iff
    {x : Except ε α}
    {f : α → β}
    {e : ε} :
    (f <$> x) = .error e ↔ x = .error e := by
  cases x <;> simp [Functor.map, Except.map]

/- A traversal fails as the first element does that fails. -/
theorem mapM_eq_error_iff
    {f : α → Except ε β}
    {items : List α}
    {e : ε} :
    items.mapM f = .error e ↔
      ∃ before item after,
        items = before ++ item :: after ∧
        (∀ other ∈ before, ∃ b, f other = .ok b) ∧
        f item = .error e := by
  induction items with
  | nil => simp [pure, Except.pure]
  | cons first rest ih =>
      rw [List.mapM_cons]
      cases hFirst : f first with
      | error other =>
          constructor
          · intro hError
            cases hError
            exact ⟨[], first, rest, rfl, by simp, hFirst⟩
          · rintro ⟨before, item, after, hItems, hBefore,
              hItem⟩
            rcases List.cons_eq_append_iff.mp hItems with
              ⟨_, hSplit⟩ | ⟨others, rfl, _⟩
            · cases hSplit
              rw [hFirst] at hItem
              cases hItem
              rfl
            · rcases hBefore first List.mem_cons_self with
                ⟨b, hOk⟩
              rw [hFirst] at hOk
              cases hOk
      | ok b =>
          have hRest :
              ((Except.ok b : Except ε β) >>= fun b => do
                  return b :: (← rest.mapM f)) =
                  .error e ↔
                rest.mapM f = .error e := by
            cases rest.mapM f <;> simp [bind, Except.bind,
              pure, Except.pure]
          rw [hRest, ih]
          constructor
          · rintro ⟨before, item, after, rfl, hBefore,
              hItem⟩
            refine ⟨first :: before, item, after, rfl, ?_,
              hItem⟩
            rw [List.forall_mem_cons]
            exact ⟨⟨b, hFirst⟩, hBefore⟩
          · rintro ⟨before, item, after, hItems, hBefore,
              hItem⟩
            rcases List.cons_eq_append_iff.mp hItems with
              ⟨_, hSplit⟩ | ⟨others, rfl, rfl⟩
            · cases hSplit
              rw [hFirst] at hItem
              cases hItem
            · rw [List.forall_mem_cons] at hBefore
              exact ⟨others, item, after, rfl, hBefore.2,
                hItem⟩

/- Every error of a computation is of one kind. -/
def ErrorsAre
    (kind : ε → Prop)
    (x : Except ε α) : Prop :=
  ∀ e, x = .error e → kind e

namespace ErrorsAre

variable {kind : ε → Prop}

/- Errors of one kind are of a wider kind. -/
theorem mono
    {wider : ε → Prop}
    {x : Except ε α}
    (hFirst : ErrorsAre kind x)
    (hWider : ∀ e, kind e → wider e) : ErrorsAre wider x :=
  fun e hError => hWider e (hFirst e hError)

theorem ok (a : α) :
    ErrorsAre kind (.ok a : Except ε α) := by
  intro e hError
  cases hError

theorem error
    {e : ε}
    (hKind : kind e) :
    ErrorsAre kind (.error e : Except ε α) := by
  intro other hError
  cases hError
  exact hKind

theorem bind
    {x : Except ε α}
    {f : α → Except ε β}
    (hFirst : ErrorsAre kind x)
    (hNext : ∀ a, x = .ok a → ErrorsAre kind (f a)) :
    ErrorsAre kind (x >>= f) := by
  cases x with
  | error e =>
      intro other hError
      cases hError
      exact hFirst _ rfl
  | ok a => exact hNext a rfl

theorem map
    {x : Except ε α}
    (f : α → β)
    (hFirst : ErrorsAre kind x) :
    ErrorsAre kind (f <$> x) := by
  cases x with
  | error e =>
      intro other hError
      cases hError
      exact hFirst _ rfl
  | ok a => exact .ok (f a)

theorem mapM
    {f : α → Except ε β}
    {items : List α}
    (hEach : ∀ item ∈ items, ErrorsAre kind (f item)) :
    ErrorsAre kind (items.mapM f) := by
  intro e hError
  rcases mapM_eq_error_iff.mp hError with
    ⟨before, item, after, rfl, _, hItem⟩
  exact hEach item (by simp) e hItem

theorem foldlM
    {f : β → α → Except ε β}
    (hStep : ∀ b a, ErrorsAre kind (f b a))
    (b : β)
    (items : List α) :
    ErrorsAre kind (items.foldlM f b) := by
  induction items generalizing b with
  | nil => exact .ok b
  | cons item items ih =>
      rw [List.foldlM_cons]
      exact (hStep b item).bind fun next _ => ih next

end ErrorsAre

/- Every result of a computation is of one kind. -/
def ResultsAre
    (kind : α → Prop)
    (x : Except ε α) : Prop :=
  ∀ a, x = .ok a → kind a

namespace ResultsAre

variable {kind : α → Prop}
variable {other : β → Prop}

theorem ok
    {a : α}
    (hKind : kind a) :
    ResultsAre kind (.ok a : Except ε α) := by
  intro b hResult
  cases hResult
  exact hKind

theorem error (e : ε) :
    ResultsAre kind (.error e : Except ε α) := by
  intro a hResult
  cases hResult

theorem bind
    {x : Except ε α}
    {f : α → Except ε β}
    (hFirst : ResultsAre kind x)
    (hNext : ∀ a, kind a → ResultsAre other (f a)) :
    ResultsAre other (x >>= f) := by
  cases x with
  | error e => exact .error e
  | ok a => exact hNext a (hFirst a rfl)

/- What a first step gives may not matter to the next. -/
theorem after
    (x : Except ε α)
    {f : α → Except ε β}
    (hNext : ∀ a, ResultsAre other (f a)) :
    ResultsAre other (x >>= f) := by
  cases x with
  | error e => exact .error e
  | ok a => exact hNext a

end ResultsAre

/- Whether a computation succeeds, and its error if not. -/
def outcome (x : Except ε α) : Except ε Unit :=
  (fun _ => ()) <$> x

theorem outcome_map
    (x : Except ε α)
    (f : α → β) :
    outcome (f <$> x) = outcome x := by
  cases x <;> rfl

theorem outcome_bind
    {x : Except ε α}
    {f : α → Except ε β}
    {y : Except ε Unit}
    (hNext : ∀ a, x = .ok a → outcome (f a) = y) :
    outcome (x >>= f) = outcome x >>= fun _ => y := by
  cases x with
  | error e => rfl
  | ok a => exact hNext a rfl

theorem outcome_eq_ok_iff
    {x : Except ε α} :
    outcome x = .ok () ↔ ∃ a, x = .ok a := by
  cases x <;> simp [outcome, Functor.map, Except.map]

theorem outcome_eq_error_iff
    {x : Except ε α}
    {e : ε} :
    outcome x = .error e ↔ x = .error e := by
  cases x <;> simp [outcome, Functor.map, Except.map]

theorem outcome_outcome (x : Except ε α) :
    outcome (outcome x) = outcome x := by
  cases x <;> rfl

theorem outcome_mapM_singleton
    (f : α → Except ε β)
    (item : α) :
    outcome ([item].mapM f) = outcome (f item) := by
  rw [List.mapM_cons]
  exact outcome_map (f item) ([·])

theorem outcome_mapM_cons
    (f : α → Except ε β)
    (item : α)
    (items : List α) :
    outcome ((item :: items).mapM f) =
      outcome (f item) >>= fun _ =>
        outcome (items.mapM f) := by
  rw [List.mapM_cons]
  exact outcome_bind fun b _ =>
    outcome_map (items.mapM f) (b :: ·)

theorem outcome_mapM_append
    (f : α → Except ε β)
    (items others : List α) :
    outcome ((items ++ others).mapM f) =
      outcome (items.mapM f) >>= fun _ =>
        outcome (others.mapM f) := by
  rw [List.mapM_append]
  exact outcome_bind fun bs _ =>
    outcome_map (others.mapM f) (bs ++ ·)

/- Each element may be replaced by the steps it is made of. -/
theorem outcome_mapM_flatMap
    {f : α → Except ε β}
    {g : γ → Except ε δ}
    {steps : α → List γ}
    (hEach : ∀ item,
      outcome (f item) = outcome ((steps item).mapM g))
    (items : List α) :
    outcome (items.mapM f) =
      outcome ((items.flatMap steps).mapM g) := by
  induction items with
  | nil => rfl
  | cons item items ih =>
      rw [List.flatMap_cons, outcome_mapM_cons,
        outcome_mapM_append, hEach, ih]

/- Steps one after another, up to the first that fails. -/
def inOrder : List (Except ε Unit) → Except ε Unit
  | [] => .ok ()
  | step :: rest => step >>= fun _ => inOrder rest

theorem inOrder_singleton (step : Except ε Unit) :
    inOrder [step] = step := by
  cases step <;> rfl

theorem inOrder_eq_ok_iff
    {steps : List (Except ε Unit)} :
    inOrder steps = .ok () ↔
      ∀ step ∈ steps, step = .ok () := by
  induction steps with
  | nil => simp [inOrder]
  | cons step rest ih =>
      rw [inOrder, List.forall_mem_cons, ← ih,
        bind_eq_ok_iff]
      constructor
      · rintro ⟨_, hFirst, hRest⟩
        exact ⟨hFirst, hRest⟩
      · rintro ⟨hFirst, hRest⟩
        exact ⟨(), hFirst, hRest⟩

/- What fails first is the error of the whole. -/
theorem inOrder_eq_error_iff
    {steps : List (Except ε Unit)}
    {e : ε} :
    inOrder steps = .error e ↔
      ∃ before after,
        steps = before ++ .error e :: after ∧
        ∀ step ∈ before, step = .ok () := by
  induction steps with
  | nil => simp [inOrder]
  | cons step rest ih =>
      rw [inOrder, bind_eq_error_iff]
      constructor
      · rintro (rfl | ⟨_, rfl, hRest⟩)
        · exact ⟨[], rest, rfl, by simp⟩
        · rcases ih.mp hRest with
            ⟨before, after, rfl, hBefore⟩
          refine ⟨.ok () :: before, after, rfl, ?_⟩
          rw [List.forall_mem_cons]
          exact ⟨rfl, hBefore⟩
      · rintro ⟨before, after, hSteps, hBefore⟩
        rcases List.cons_eq_append_iff.mp hSteps with
          ⟨_, hSplit⟩ | ⟨others, rfl, hSplit⟩
        · cases hSplit
          exact .inl rfl
        · rw [List.forall_mem_cons] at hBefore
          refine .inr ⟨(), hBefore.1, ih.mpr ?_⟩
          exact ⟨others, after, hSplit, hBefore.2⟩

/- Both succeed with the same result, or neither does. -/
def SameResults (x y : Except ε α) : Prop :=
  ∀ a, x = .ok a ↔ y = .ok a

section Errors

variable (read : ε → ε)

theorem mapError_eq_ok_iff
    {x : Except ε α}
    {a : α} :
    x.mapError read = .ok a ↔ x = .ok a := by
  cases x <;> simp [Except.mapError]

theorem mapError_eq_error_iff
    {x : Except ε α}
    {e : ε} :
    x.mapError read = .error e ↔
      ∃ other, x = .error other ∧ read other = e := by
  cases x <;> simp [Except.mapError]

/- What is equal but for errors has the same results. -/
theorem sameResults_of_mapError
    {x y : Except ε α}
    (hSame : x.mapError read = y.mapError read) :
    SameResults x y := by
  intro a
  rw [← mapError_eq_ok_iff read, hSame, mapError_eq_ok_iff]

/- Errors that are read as they are change nothing. -/
theorem mapError_eq_self
    {x : Except ε α}
    (hSame : ErrorsAre (fun e => read e = e) x) :
    x.mapError read = x := by
  cases x with
  | error e => exact congrArg Except.error (hSame e rfl)
  | ok a => rfl

theorem mapError_bind
    (x : Except ε α)
    (f : α → Except ε β) :
    (x >>= f).mapError read =
      x.mapError read >>= fun a => (f a).mapError read := by
  cases x <;> rfl

theorem mapError_map
    (x : Except ε α)
    (f : α → β) :
    (f <$> x).mapError read = f <$> x.mapError read := by
  cases x <;> rfl

theorem mapError_mapM
    (f : α → Except ε β)
    (items : List α) :
    (items.mapM f).mapError read =
      items.mapM fun item => (f item).mapError read := by
  induction items with
  | nil => rfl
  | cons item items ih =>
      rw [List.mapM_cons, List.mapM_cons, mapError_bind]
      congr 1
      funext first
      rw [mapError_bind, ih]
      rfl

end Errors

------------------------------------------------------------
-- Agreement
------------------------------------------------------------

/- Both fail alike, or both succeed with related results. -/
inductive Agree
    (R : α → β → Prop) :
    Except ε α → Except ε β → Prop where
  | ok {a : α} {b : β} (hRelated : R a b) :
      Agree R (.ok a) (.ok b)
  | error (e : ε) : Agree R (.error e) (.error e)

namespace Agree

/- A computation agrees with itself up to equality. -/
theorem refl
    {R : α → α → Prop}
    (x : Except ε α)
    (hRefl : ∀ a, x = .ok a → R a a) : Agree R x x := by
  cases x with
  | error e => exact .error e
  | ok a => exact .ok (hRefl a rfl)

/- What agrees up to one relation agrees up to a wider one. -/
theorem mono
    {R S : α → β → Prop}
    {x : Except ε α}
    {y : Except ε β}
    (hAgree : Agree R x y)
    (hWider : ∀ a b, R a b → S a b) : Agree S x y := by
  cases hAgree with
  | ok hRelated => exact .ok (hWider _ _ hRelated)
  | error e => exact .error e

theorem symm
    {R : α → β → Prop}
    {x : Except ε α}
    {y : Except ε β}
    (hAgree : Agree R x y) :
    Agree (fun b a => R a b) y x := by
  cases hAgree with
  | ok hRelated => exact .ok hRelated
  | error e => exact .error e

theorem eq_error
    {R : α → β → Prop}
    {e : ε}
    {y : Except ε β}
    (hAgree : Agree R (.error e) y) : y = .error e := by
  cases hAgree
  rfl

theorem eq_error_iff
    {R : α → β → Prop}
    {x : Except ε α}
    {y : Except ε β}
    (hAgree : Agree R x y)
    (e : ε) : x = .error e ↔ y = .error e := by
  cases hAgree with
  | ok _ => simp
  | error other => simp

theorem related
    {R : α → β → Prop}
    {a : α}
    {b : β}
    (hAgree :
      Agree R (.ok a : Except ε α) (.ok b : Except ε β)) :
    R a b := by
  cases hAgree with
  | ok hRelated => exact hRelated

theorem outcome_eq
    {R : α → β → Prop}
    {x : Except ε α}
    {y : Except ε β}
    (hAgree : Agree R x y) : outcome x = outcome y := by
  cases hAgree with
  | ok _ => rfl
  | error e => rfl

theorem exists_ok
    {R : α → β → Prop}
    {a : α}
    {y : Except ε β}
    (hAgree : Agree R (.ok a) y) :
    ∃ b, y = .ok b ∧ R a b := by
  cases hAgree with
  | ok hRelated => exact ⟨_, rfl, hRelated⟩

/- Sequences agree where their steps do. -/
theorem bind
    {R : α → β → Prop}
    {S : γ → δ → Prop}
    {x : Except ε α}
    {y : Except ε β}
    {f : α → Except ε γ}
    {g : β → Except ε δ}
    (hFirst : Agree R x y)
    (hNext : ∀ a b, R a b → Agree S (f a) (g b)) :
    Agree S (x >>= f) (y >>= g) := by
  cases hFirst with
  | ok hRelated => exact hNext _ _ hRelated
  | error e => exact .error e

/- After the same first step only what follows matters. -/
theorem after
    {S : β → γ → Prop}
    (x : Except ε α)
    {f : α → Except ε β}
    {g : α → Except ε γ}
    (hNext : ∀ a, Agree S (f a) (g a)) :
    Agree S (x >>= f) (x >>= g) := by
  cases x with
  | error e => exact .error e
  | ok a => exact hNext a

theorem map
    {R : α → β → Prop}
    {S : γ → δ → Prop}
    {x : Except ε α}
    {y : Except ε β}
    {f : α → γ}
    {g : β → δ}
    (hFirst : Agree R x y)
    (hResult : ∀ a b, R a b → S (f a) (g b)) :
    Agree S (f <$> x) (g <$> y) := by
  cases hFirst with
  | ok hRelated => exact .ok (hResult _ _ hRelated)
  | error e => exact .error e

/- Traversals agree where they do on each element. -/
theorem mapM
    {R : γ → δ → Prop}
    {f : α → Except ε γ}
    {g : β → Except ε δ}
    {items : List α}
    {others : List β}
    (hItems :
      List.Forall₂ (fun a b => Agree R (f a) (g b))
        items others) :
    Agree (List.Forall₂ R) (items.mapM f)
      (others.mapM g) := by
  induction hItems with
  | nil => exact .ok .nil
  | cons hFirst _ ih =>
      rw [List.mapM_cons, List.mapM_cons]
      refine hFirst.bind fun c d hRelated => ?_
      exact ih.map fun rest more hRest =>
        .cons hRelated hRest

/- Traversals agree that differ in one element. -/
theorem mapM_amid
    {R : β → β → Prop}
    {f : α → Except ε β}
    {item other : α}
    (hItem : Agree R (f item) (f other))
    (before after : List α) :
    Agree
      (fun bs cs => ∃ first b c rest,
        bs = first ++ b :: rest ∧ cs = first ++ c :: rest ∧
        R b c)
      ((before ++ item :: after).mapM f)
      ((before ++ other :: after).mapM f) := by
  rw [List.mapM_append, List.mapM_append]
  refine .after _ fun first => ?_
  rw [List.mapM_cons, List.mapM_cons]
  refine Agree.map
    (R := fun bs cs => ∃ b c rest,
      bs = b :: rest ∧ cs = c :: rest ∧ R b c) ?_ ?_
  · refine hItem.bind fun b c hRelated => ?_
    exact .after _ fun rest =>
      .ok ⟨b, c, rest, rfl, rfl, hRelated⟩
  · rintro _ _ ⟨b, c, rest, rfl, rfl, hRelated⟩
    exact ⟨first, b, c, rest, rfl, rfl, hRelated⟩

/- Up to equality only what is equal agrees. -/
theorem eq
    {x y : Except ε α}
    (hAgree : Agree Eq x y) : x = y := by
  cases hAgree with
  | ok hSame => rw [hSame]
  | error e => rfl

/- Folds agree where each of their steps does. -/
theorem foldlM
    {R : β → γ → Prop}
    {P : α → δ → Prop}
    {f : β → α → Except ε β}
    {g : γ → δ → Except ε γ}
    (hStep : ∀ b c a d, R b c → P a d →
      Agree R (f b a) (g c d))
    {items : List α}
    {others : List δ}
    (hItems : List.Forall₂ P items others)
    {b : β}
    {c : γ}
    (hStart : R b c) :
    Agree R (items.foldlM f b) (others.foldlM g c) := by
  induction hItems generalizing b c with
  | nil => exact .ok hStart
  | cons hFirst _ ih =>
      rw [List.foldlM_cons, List.foldlM_cons]
      exact (hStep _ _ _ _ hStart hFirst).bind
        fun _ _ hNext => ih hNext

end Agree

------------------------------------------------------------
-- Pairs of Runs
------------------------------------------------------------

/- Where both succeed they do with related results. -/
def Paired
    (R : α → β → Prop)
    (x : Except ε α)
    (y : Except ε β) : Prop :=
  ∀ a b, x = .ok a → y = .ok b → R a b

namespace Paired

variable {R : α → β → Prop}
variable {S : γ → δ → Prop}
variable {x : Except ε α}
variable {y : Except ε β}

theorem ok
    {a : α}
    {b : β}
    (hRelated : R a b) :
    Paired R (.ok a : Except ε α) (.ok b : Except ε β) := by
  intro other more hFirst hSecond
  cases hFirst
  cases hSecond
  exact hRelated

/- Nothing is asked of runs of which the first fails. -/
theorem error (e : ε) :
    Paired R (.error e : Except ε α) y := by
  intro a b hFirst
  cases hFirst

theorem refl
    {R : α → α → Prop}
    (x : Except ε α)
    (hRefl : ∀ a, R a a) : Paired R x x := by
  intro a b hFirst hSecond
  rw [hFirst] at hSecond
  cases hSecond
  exact hRefl a

theorem bind
    {f : α → Except ε γ}
    {g : β → Except ε δ}
    (hFirst : Paired R x y)
    (hNext : ∀ a b, R a b → Paired S (f a) (g b)) :
    Paired S (x >>= f) (y >>= g) := by
  intro c d hLeft hRight
  rcases bind_eq_ok_iff.mp hLeft with ⟨a, hA, hC⟩
  rcases bind_eq_ok_iff.mp hRight with ⟨b, hB, hD⟩
  exact hNext a b (hFirst a b hA hB) c d hC hD

/- After the same first step only what follows matters. -/
theorem after
    (x : Except ε α)
    {f : α → Except ε γ}
    {g : α → Except ε δ}
    (hNext : ∀ a, Paired S (f a) (g a)) :
    Paired S (x >>= f) (x >>= g) := by
  cases x with
  | error e => exact .error e
  | ok a => exact hNext a

theorem map
    {f : α → γ}
    {g : β → δ}
    (hFirst : Paired R x y)
    (hResult : ∀ a b, R a b → S (f a) (g b)) :
    Paired S (f <$> x) (g <$> y) := by
  intro c d hLeft hRight
  rcases map_eq_ok_iff.mp hLeft with ⟨a, hA, rfl⟩
  rcases map_eq_ok_iff.mp hRight with ⟨b, hB, rfl⟩
  exact hResult a b (hFirst a b hA hB)

/- Traversals of related lists give related lists. -/
theorem mapM
    {f : α → Except ε γ}
    {g : β → Except ε δ}
    {items : List α}
    {others : List β}
    (hItems :
      List.Forall₂ (fun a b => Paired S (f a) (g b))
        items others) :
    Paired (List.Forall₂ S) (items.mapM f)
      (others.mapM g) := by
  induction hItems with
  | nil => exact .ok .nil
  | cons hFirst _ ih =>
      rw [List.mapM_cons, List.mapM_cons]
      refine hFirst.bind fun c d hRelated => ?_
      exact ih.map fun rest more hRest =>
        .cons hRelated hRest

end Paired

------------------------------------------------------------
-- Following Runs
------------------------------------------------------------

/- Where the first succeeds so does the second, relatedly. -/
def Follows
    (R : α → β → Prop)
    (x : Except ε α)
    (y : Except ε β) : Prop :=
  ∀ a, x = .ok a → ∃ b, y = .ok b ∧ R a b

namespace Follows

variable {R : α → β → Prop}
variable {S : γ → δ → Prop}
variable {x : Except ε α}
variable {y : Except ε β}

theorem ok
    {a : α}
    {b : β}
    (hRelated : R a b) :
    Follows R (.ok a : Except ε α) (.ok b : Except ε β) := by
  intro other hFirst
  cases hFirst
  exact ⟨b, rfl, hRelated⟩

theorem error (e : ε) :
    Follows R (.error e : Except ε α) y := by
  intro a hFirst
  cases hFirst

theorem refl
    {R : α → α → Prop}
    (x : Except ε α)
    (hRefl : ∀ a, R a a) : Follows R x x := by
  intro a hFirst
  exact ⟨a, hFirst, hRefl a⟩

theorem bind
    {f : α → Except ε γ}
    {g : β → Except ε δ}
    (hFirst : Follows R x y)
    (hNext : ∀ a b, R a b → Follows S (f a) (g b)) :
    Follows S (x >>= f) (y >>= g) := by
  intro c hLeft
  rcases bind_eq_ok_iff.mp hLeft with ⟨a, hA, hC⟩
  rcases hFirst a hA with ⟨b, hB, hRelated⟩
  rcases hNext a b hRelated c hC with ⟨d, hD, hResult⟩
  exact ⟨d, bind_eq_ok_iff.mpr ⟨b, hB, hD⟩, hResult⟩

theorem map
    {f : α → γ}
    {g : β → δ}
    (hFirst : Follows R x y)
    (hResult : ∀ a b, R a b → S (f a) (g b)) :
    Follows S (f <$> x) (g <$> y) := by
  intro c hLeft
  rcases map_eq_ok_iff.mp hLeft with ⟨a, hA, rfl⟩
  rcases hFirst a hA with ⟨b, hB, hRelated⟩
  exact ⟨g b, map_eq_ok_iff.mpr ⟨b, hB, rfl⟩,
    hResult a b hRelated⟩

/- Traversals follow where they do on each element. -/
theorem mapM
    {f : α → Except ε γ}
    {g : β → Except ε δ}
    {items : List α}
    {others : List β}
    (hItems :
      List.Forall₂ (fun a b => Follows S (f a) (g b))
        items others) :
    Follows (List.Forall₂ S) (items.mapM f)
      (others.mapM g) := by
  induction hItems with
  | nil => exact .ok .nil
  | cons hFirst _ ih =>
      rw [List.mapM_cons, List.mapM_cons]
      refine hFirst.bind fun c d hRelated => ?_
      exact ih.map fun rest more hRest =>
        .cons hRelated hRest

/- What each element is mapped to, all results are. -/
theorem mapM_map
    {f : α → Except ε γ}
    {g : β → Except ε δ}
    {h : α → β}
    {k : γ → δ}
    (hEach : ∀ a,
      Follows (fun c d => d = k c) (f a) (g (h a)))
    (items : List α) :
    Follows (fun cs ds => ds = cs.map k) (items.mapM f)
      ((items.map h).mapM g) := by
  induction items with
  | nil => exact .ok rfl
  | cons item items ih =>
      rw [List.map_cons, List.mapM_cons, List.mapM_cons]
      refine (hEach item).bind fun c d hFirst => ?_
      refine ih.map fun cs ds hRest => ?_
      rw [hFirst, hRest, List.map_cons]

end Follows

------------------------------------------------------------
-- Cutting Off
------------------------------------------------------------

/-
  The first computation is the second or stops with an error,
  and it succeeds where the second does and something fits.
-/
structure CutOff
    (e : ε)
    (fits : Prop)
    (x y : Except ε α) : Prop where
  eq_or_stopped : x = y ∨ x = .error e
  succeeds_iff :
    (∃ a, x = .ok a) ↔ (∃ a, y = .ok a) ∧ fits

namespace CutOff

variable {e : ε}
variable {P Q : Prop}
variable {x y : Except ε α}

theorem refl
    (x : Except ε α)
    (hFits : P) : CutOff e P x x where
  eq_or_stopped := .inl rfl
  succeeds_iff := (and_iff_left hFits).symm

/- Where both fail alike it does not matter what fits. -/
theorem failed (other : ε) :
    CutOff e P (.error other : Except ε α)
      (.error other) where
  eq_or_stopped := .inl rfl
  succeeds_iff := by simp

theorem stopped
    (y : Except ε α)
    (hNot : ¬ P) : CutOff e P (.error e) y where
  eq_or_stopped := .inr rfl
  succeeds_iff := by simp [hNot]

theorem congr
    (hCut : CutOff e P x y)
    (hSame : P ↔ Q) : CutOff e Q x y where
  eq_or_stopped := hCut.eq_or_stopped
  succeeds_iff := by rw [hCut.succeeds_iff, hSame]

/- Of two steps, both have to fit. -/
theorem bind
    {f g : α → Except ε β}
    (hFirst : CutOff e P x y)
    (hNext : ∀ a, x = .ok a → CutOff e Q (f a) (g a)) :
    CutOff e (P ∧ Q) (x >>= f) (y >>= g) := by
  rcases hFirst with ⟨rfl | rfl, hSucceeds⟩
  · cases x with
    | error other => exact .failed other
    | ok a =>
        have hFits : P := (hSucceeds.mp ⟨a, rfl⟩).2
        exact (hNext a rfl).congr
          (and_iff_right hFits).symm
  · refine ⟨.inr rfl, ?_⟩
    constructor
    · rintro ⟨b, hError⟩
      cases hError
    · rintro ⟨⟨b, hSecond⟩, hFits, _⟩
      rcases bind_eq_ok_iff.mp hSecond with ⟨a, hOk, _⟩
      rcases hSucceeds.mpr ⟨⟨a, hOk⟩, hFits⟩ with
        ⟨_, hError⟩
      cases hError

/- After the same first step only what follows has to fit. -/
theorem after
    (x : Except ε α)
    {f g : α → Except ε β}
    (hNext : ∀ a, x = .ok a → CutOff e P (f a) (g a)) :
    CutOff e P (x >>= f) (x >>= g) := by
  cases x with
  | error other => exact .failed other
  | ok a => exact hNext a rfl

theorem map
    (f : α → β)
    (hCut : CutOff e P x y) :
    CutOff e P (f <$> x) (f <$> y) := by
  rcases hCut with ⟨rfl | rfl, hSucceeds⟩
  · refine ⟨.inl rfl, ?_⟩
    cases x <;> simp_all [Functor.map, Except.map]
  · refine ⟨.inr rfl, ?_⟩
    cases y <;> simp_all [Functor.map, Except.map]

/- Of the elements of a list, all have to fit. -/
theorem mapM
    {fits : α → Prop}
    {f g : α → Except ε β}
    {items : List α}
    (hEach : ∀ item ∈ items,
      CutOff e (fits item) (f item) (g item)) :
    CutOff e (∀ item ∈ items, fits item)
      (items.mapM f) (items.mapM g) := by
  induction items with
  | nil => exact .refl _ (by simp)
  | cons item items ih =>
      rw [List.mapM_cons, List.mapM_cons]
      have hFirst := hEach item List.mem_cons_self
      have hRest := ih fun other hOther =>
        hEach other (List.mem_cons_of_mem _ hOther)
      refine (hFirst.bind fun first _ => ?_).congr
        List.forall_mem_cons.symm
      exact (hRest.map fun others => first :: others)

end CutOff

end Except
