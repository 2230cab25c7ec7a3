import JavaFacts.Facts.Entity

namespace JavaFacts

inductive FactError where
  | entityNotFound (id : String)
  | associationNotFound (id : String)
  | duplicateDeclaration (kind name existing duplicate : String)
  | invalidOperation (reason : String)
  | serialization (reason : String)
deriving Repr, DecidableEq, Inhabited

namespace FactError

def message : FactError → String
  | entityNotFound id => "Entity not found: " ++ id
  | associationNotFound id => "Association not found: " ++ id
  | duplicateDeclaration kind name existing duplicate =>
      "Duplicate declaration of " ++ kind ++ " '" ++ name ++ "': already declared at " ++
        existing ++ ", redeclared at " ++ duplicate
  | invalidOperation reason => "Invalid operation: " ++ reason
  | serialization reason => "Serialization error: " ++ reason

/-- Whether the facts contradict each other, as opposed to a mere failed look-up. -/
def breaksInvariant : FactError → Bool
  | duplicateDeclaration .. | invalidOperation _ => true
  | _ => false

end FactError

end JavaFacts
