import JavaFacts.Scope.Tracker
import JavaFacts.Facts.Error

namespace JavaFacts

inductive Fault where
  /-- The node is left out, and with it what is inside. -/
  | node (reason : String)
  | scope (error : ScopeError)
  | facts (error : FactError)
deriving Repr, DecidableEq, Inhabited

namespace Fault

def message : Fault → String
  | node reason => reason
  | scope error => error.message
  | facts error => error.message

def isFatal : Fault → Bool
  | node _ => false
  | scope _ => true
  | facts error => error.breaksInvariant

end Fault

end JavaFacts
