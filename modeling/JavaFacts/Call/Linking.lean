import JavaFacts.Call.Resolution
import JavaFacts.Config

/-!
Invocation associations for calls whose target was found.
-/

namespace JavaFacts

structure ResolutionSummary where
  attempted : Nat
  unique : Nat
  ambiguous : Nat
  unresolved : Nat
  linked : Nat
deriving Repr, DecidableEq, Inhabited

def ResolutionSummary.none : ResolutionSummary := ⟨0, 0, 0, 0, 0⟩

namespace Call

def count (summary : ResolutionSummary) (call : Call) : ResolutionSummary :=
  let tried := { summary with attempted := summary.attempted + 1 }
  match call.target with
  | .unique _ => { tried with unique := tried.unique + 1 }
  | .ambiguous _ => { tried with ambiguous := tried.ambiguous + 1 }
  | .unresolved => { tried with unresolved := tried.unresolved + 1 }

def linkTarget? (config : Config) (call : Call) : Option EntityId :=
  match call.target with
  | .unique method => if config.linkUnique then some method else none
  | .ambiguous methods => if config.linkAmbiguous then methods.head? else none
  | .unresolved => none

def link (config : Config) (summary : ResolutionSummary) (call : Call) :
    Edit ResolutionSummary := do
  let counted := count summary call
  match call.linkTarget? config with
  | none => pure counted
  | some method =>
      let _ ← Edit.addAssociation .invocation call.caller method (some call.anchor) call.statement
      pure { counted with linked := counted.linked + 1 }

def linkAll (config : Config) (calls : List Call) : Edit ResolutionSummary :=
  calls.foldlM (link config) .none

/-- Searches the targets of the calls not resolved yet and links those that were found, in order.
All searches come before the first link. -/
def resolveAndLink (config : Config) (calls : List Call) (store : Store) :
    Except FactError ResolutionSummary × List Call × Store :=
  let resolved := resolveAll store calls
  let pending := ((calls.zip resolved).filter (·.1.isCaptured)).map (·.2)
  let (summary, linked) := (linkAll config pending).run store
  (summary, resolved, linked)

end Call

end JavaFacts
