import Criteria.Cursor
import Criteria.NameMap

/-
  This file defines translated queries.

  Key definitions include:
    * `Query`
    * `Relation`
    * `Query.sortKeys`
-/

namespace Criteria

mutual

/- A query on one table, with the queries on its relations. -/
structure Query where
  condition : Option Condition
  relations : Option (List (String × Relation))
  columns : Option (List (String × Bool))
  limit : Option UInt64
  offset : Option UInt64
  order : List SortTerm

/- A relation that is a query, or a value left as it is. -/
inductive Relation where
  | flag (value : Json)
  | nested (query : Query)

end

namespace Query

/- The sort terms by field and direction. -/
def sortKeys (q : Query) : List SortKey :=
  q.order.map fun term => ⟨term.field, term.direction⟩

end Query

end Criteria
