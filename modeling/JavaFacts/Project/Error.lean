import JavaFacts.Facts.Error

namespace JavaFacts

inductive ExtractionError where
  | unreadable (path reason : String)
  | syntaxError (path : String) (line column : Nat) (reason : String)
  | fileTooLarge (path : String) (bytes : Nat)
  | unparsed (path reason : String)
  /-- The facts of the file contradict each other or those known before. -/
  | invariant (path reason : String)
  | cancelled
  | workers (reason : String)
  | facts (error : FactError)
deriving Repr, DecidableEq, Inhabited

namespace ExtractionError

def message : ExtractionError → String
  | unreadable path reason => "IO error reading " ++ path ++ ": " ++ reason
  | syntaxError path line column reason =>
      "Syntax error in " ++ path ++ ":" ++ toString line ++ ":" ++ toString column ++ ": " ++ reason
  | fileTooLarge path bytes =>
      "File " ++ path ++ " exceeds maximum size (" ++ toString bytes ++ " bytes)"
  | unparsed path reason => "Parse error in " ++ path ++ ": " ++ reason
  | invariant path reason => "Invariant violated while extracting " ++ path ++ ": " ++ reason
  | cancelled => "Extraction cancelled"
  | workers reason => "Failed to create thread pool: " ++ reason
  | facts error => "Model error: " ++ error.message

def breaksInvariant : ExtractionError → Bool
  | invariant .. => true
  | facts error => error.breaksInvariant
  | _ => false

end ExtractionError

end JavaFacts
