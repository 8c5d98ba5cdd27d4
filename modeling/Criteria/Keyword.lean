/-
  This file defines the words of the query vocabulary.

  Key definitions include:
    * `Connective`, the logical keys of a filter
    * `Operator`, the keys of an operator object
    * `MatchMode`, how patterns treat letter case
    * `Direction`, the direction of a sort key
-/

------------------------------------------------------------
-- Connectives
------------------------------------------------------------

namespace Criteria

inductive Connective where
  | and
  | or
  | not
deriving DecidableEq, Repr

namespace Connective

def word : Connective → String
  | .and => "AND"
  | .or => "OR"
  | .not => "NOT"

/- Connectives are written in capitals, and only so. -/
def ofWord? (word : String) : Option Connective :=
  if word = "AND" then some .and
  else if word = "OR" then some .or
  else if word = "NOT" then some .not
  else none

theorem ofWord?_word (op : Connective) :
    ofWord? op.word = some op := by
  cases op <;> decide

/- Each connective has one word. -/
theorem ofWord?_eq_some_iff
    (word : String)
    (op : Connective) :
    ofWord? word = some op ↔ word = op.word := by
  constructor
  · intro hWord
    unfold ofWord? at hWord
    split at hWord
    · cases hWord
      assumption
    · split at hWord
      · cases hWord
        assumption
      · split at hWord
        · cases hWord
          assumption
        · cases hWord
  · rintro rfl
    exact ofWord?_word op

end Connective

------------------------------------------------------------
-- Operators
------------------------------------------------------------

inductive Operator where
  | not
  | equals
  | oneOf
  | noneOf
  | less
  | lessOrEqual
  | greater
  | greaterOrEqual
  | contains
  | startsWith
  | endsWith
  | has
  | hasEvery
  | hasSome
deriving DecidableEq, Repr

namespace Operator

def keyword : Operator → String
  | .not => "not"
  | .equals => "equals"
  | .oneOf => "in"
  | .noneOf => "notIn"
  | .less => "lt"
  | .lessOrEqual => "lte"
  | .greater => "gt"
  | .greaterOrEqual => "gte"
  | .contains => "contains"
  | .startsWith => "startsWith"
  | .endsWith => "endsWith"
  | .has => "has"
  | .hasEvery => "hasEvery"
  | .hasSome => "hasSome"

def all : List Operator :=
  [.not, .equals, .oneOf, .noneOf, .less, .lessOrEqual,
    .greater, .greaterOrEqual, .contains, .startsWith,
    .endsWith, .has, .hasEvery, .hasSome]

/- The operator of a keyword. -/
def ofKeyword? (keyword : String) : Option Operator :=
  all.find? fun op => op.keyword = keyword

theorem ofKeyword?_keyword (op : Operator) :
    ofKeyword? op.keyword = some op := by
  cases op <;> decide

theorem keyword_injective
    {op other : Operator}
    (hKeyword : op.keyword = other.keyword) : op = other := by
  have hFound := congrArg ofKeyword? hKeyword
  rw [ofKeyword?_keyword, ofKeyword?_keyword] at hFound
  exact Option.some.inj hFound

/- Each operator has one keyword. -/
theorem ofKeyword?_eq_some_iff
    (keyword : String)
    (op : Operator) :
    ofKeyword? keyword = some op ↔ keyword = op.keyword := by
  constructor
  · intro hFound
    have hKeyword := List.find?_some hFound
    exact (of_decide_eq_true hKeyword).symm
  · rintro rfl
    exact ofKeyword?_keyword op

end Operator

------------------------------------------------------------
-- Match Modes
------------------------------------------------------------

/- How patterns of one operator object treat letter case. -/
inductive MatchMode where
  | sensitive
  | insensitive
deriving DecidableEq, Repr

namespace MatchMode

/- The key of an operator object that gives its mode. -/
def key : String := "mode"

def word : MatchMode → String
  | .sensitive => "default"
  | .insensitive => "insensitive"

def ofWord? (word : String) : Option MatchMode :=
  if word = "default" then some .sensitive
  else if word = "insensitive" then some .insensitive
  else none

theorem ofWord?_word (mode : MatchMode) :
    ofWord? mode.word = some mode := by
  cases mode <;> decide

/- Each mode has one word. -/
theorem ofWord?_eq_some_iff
    (word : String)
    (mode : MatchMode) :
    ofWord? word = some mode ↔ word = mode.word := by
  constructor
  · intro hWord
    unfold ofWord? at hWord
    split at hWord
    · cases hWord
      assumption
    · split at hWord
      · cases hWord
        assumption
      · cases hWord
  · rintro rfl
    exact ofWord?_word mode

end MatchMode

------------------------------------------------------------
-- Directions
------------------------------------------------------------

inductive Direction where
  | ascending
  | descending
deriving DecidableEq, Repr

namespace Direction

def word : Direction → String
  | .ascending => "asc"
  | .descending => "desc"

def ofWord? (word : String) : Option Direction :=
  if word = "asc" then some .ascending
  else if word = "desc" then some .descending
  else none

theorem ofWord?_word (direction : Direction) :
    ofWord? direction.word = some direction := by
  cases direction <;> decide

/- Each direction has one word. -/
theorem ofWord?_eq_some_iff
    (word : String)
    (direction : Direction) :
    ofWord? word = some direction ↔
      word = direction.word := by
  constructor
  · intro hWord
    unfold ofWord? at hWord
    split at hWord
    · cases hWord
      assumption
    · split at hWord
      · cases hWord
        assumption
      · cases hWord
  · rintro rfl
    exact ofWord?_word direction

def reverse : Direction → Direction
  | .ascending => .descending
  | .descending => .ascending

theorem reverse_reverse (direction : Direction) :
    direction.reverse.reverse = direction := by
  cases direction <;> rfl

end Direction

end Criteria
