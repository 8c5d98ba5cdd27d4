/-
  This file defines the settings of a translation.
-/

namespace Criteria

structure Settings where
  /- The most levels of filters, and of relations. -/
  maxDepth : Nat
  /- The field that decides between equal cursor values. -/
  tiebreaker : String
deriving DecidableEq, Repr

namespace Settings

def default : Settings :=
  { maxDepth := 32
    tiebreaker := "createdAt" }

end Settings

end Criteria
