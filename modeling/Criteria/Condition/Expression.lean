import Criteria.Condition
import Criteria.Sql

/-
  This file writes conditions as text with bound values.

  A junction becomes a chain of two-place operators, and the
  precedence of their operands decides where parentheses
  stand.

  Key definitions include:
    * `Predicate.sql`
    * `Condition.expression`
    * `Expression.sql`
    * `Condition.sql`
-/

------------------------------------------------------------
-- Predicates
------------------------------------------------------------

namespace Criteria

def Comparison.symbol : Comparison → String
  | .equal => "="
  | .notEqual => "<>"
  | .less => "<"
  | .lessOrEqual => "<="
  | .greater => ">"
  | .greaterOrEqual => ">="

namespace Predicate

/- The word of a test, with its negation. -/
def word
    (negated : Bool)
    (plain : String) : String :=
  if negated then "NOT " ++ plain else plain

/- Only LIKE names the escape character of its patterns. -/
def likeSql
    (column : String)
    (negated : Bool)
    (mode : MatchMode)
    (pattern : String) : Sql :=
  match mode with
  | .sensitive =>
      [.text (column ++ " " ++ word negated "LIKE" ++ " "),
        .value (.string pattern),
        .text " ESCAPE E'\\\\'"]
  | .insensitive =>
      [.text (column ++ " " ++ word negated "ILIKE" ++ " "),
        .value (.string pattern)]

def sql : Predicate → Sql
  | .compare column comparison value =>
      [.text (Sql.identifier column.name ++ " " ++
          comparison.symbol ++ " "),
        .value value]
  | .null column negated =>
      [.text (Sql.identifier column.name ++
        (if negated then " IS NOT NULL" else " IS NULL"))]
  | .member column negated values =>
      .text (Sql.identifier column.name ++ " " ++
          word negated "IN" ++ " ") ::
        Sql.parenthesized (Sql.joinWith ", "
          (values.map fun value => [.value value]))
  | .like column negated mode pattern =>
      likeSql (Sql.identifier column.name) negated mode
        pattern
  | .element column value =>
      [.value value,
        .text (" = ANY(" ++ Sql.identifier column.name ++
          ")")]
  | .constant true => [.text "1=1"]
  | .constant false => [.text "1=0"]

/- Tests that bind less tightly than the operators do. -/
def isLoose : Predicate → Bool
  | .like _ _ .insensitive _ => true
  | .constant _ => true
  | _ => false

end Predicate

------------------------------------------------------------
-- Expressions
------------------------------------------------------------

inductive Expression where
  | predicate (p : Predicate)
  | literal (b : Bool)
  | not (e : Expression)
  | binary (kind : Junction) (left right : Expression)

def Junction.word : Junction → String
  | .all => " AND "
  | .any => " OR "

namespace Expression

/- Join operands from left to right. -/
def chain
    (kind : Junction) : List Expression → Expression
  | [] => .literal (kind = .all)
  | e :: rest => rest.foldl (.binary kind) e

/- An operand that stands in parentheses. -/
def isLoose : Expression → Bool
  | .predicate p => p.isLoose
  | .literal _ => false
  | .not _ => true
  | .binary _ _ _ => true

/- A chain goes on to the left without parentheses. -/
def isLooseLeft
    (kind : Junction) : Expression → Bool
  | .binary inner _ _ => inner ≠ kind
  | e => e.isLoose

def parenthesizeIf
    (loose : Bool)
    (sql : Sql) : Sql :=
  if loose then Sql.parenthesized sql else sql

def sql : Expression → Sql
  | .predicate p => p.sql
  | .literal true => [.text "TRUE"]
  | .literal false => [.text "FALSE"]
  | .not e =>
      .text "NOT " :: parenthesizeIf e.isLoose e.sql
  | .binary kind left right =>
      parenthesizeIf (left.isLooseLeft kind) left.sql ++
        .text kind.word ::
          parenthesizeIf right.isLoose right.sql

end Expression

------------------------------------------------------------
-- Conditions
------------------------------------------------------------

namespace Condition

mutual

def expression : Condition → Expression
  | .predicate p => .predicate p
  | .junction negated kind parts =>
      let inner := Expression.chain kind (expressions parts)
      if negated then .not inner else inner

def expressions : List Condition → List Expression
  | [] => []
  | c :: rest => c.expression :: expressions rest

end

/- A condition as text with bound values. -/
def sql (c : Condition) : Sql :=
  c.expression.sql

end Condition

end Criteria
