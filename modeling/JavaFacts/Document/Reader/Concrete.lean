import JavaFacts.Concrete.Tree
import JavaFacts.Document.Reader

/-!
Concrete syntax trees from their documents. A node is a list of its role, its kind, its flags as a
number of four bits, the two ends of its bytes and its children.
-/

namespace JavaFacts.Concrete

def read : Nat → Document → Option Concrete
  | depth + 1, .list (role :: kind :: flags :: start :: stop :: children) => do
      let flags ← flags.number?
      let head : ConcreteHead := {
        role := (← role.optional? Document.text?).map Role.ofName
        kind := ConcreteKind.ofName (← kind.text?)
        isNamed := flags.testBit 0, isError := flags.testBit 1, isMissing := flags.testBit 2
        hasError := flags.testBit 3, start := ← start.number?, stop := ← stop.number? }
      return .node head (← children.mapM (read depth))
  | _, _ => none

def ofDocument? (document : Document) : Option Concrete :=
  read document.depth document

end JavaFacts.Concrete
