import JavaFacts.Call.Record
import JavaFacts.Facts.Hierarchy
import JavaFacts.Naming

/-!
The stages of the search for the target of a call. Each keeps some of the methods of the stage
before it, in their order.
-/

namespace JavaFacts

/-- The methods of a store by simple name, in the order of creation. -/
structure MethodIndex where
  methods : Std.HashMap String (Array EntityId)
deriving Inhabited

namespace MethodIndex

def insert (index : MethodIndex) (method : Entity) : MethodIndex :=
  ⟨index.methods.insert method.simpleName
    ((index.methods.getD method.simpleName #[]).push method.id)⟩

def ofStore (store : Store) : MethodIndex :=
  (store.ofKind .method).foldl insert ⟨∅⟩

def named (index : MethodIndex) (name : String) : List EntityId :=
  (index.methods.getD name #[]).toList

def size (index : MethodIndex) : Nat := index.methods.size

def isEmpty (index : MethodIndex) : Bool := index.methods.isEmpty

end MethodIndex

namespace Stage

/-- Keeps the methods that exist and satisfy `accepts`. -/
def keep (store : Store) (accepts : Entity → Bool) (methods : List EntityId) : List EntityId :=
  methods.filter fun method => (store.entity? method).any accepts

def byCount (store : Store) (count : Nat) (methods : List EntityId) : List EntityId :=
  keep store (·.parameterTypes.length == count) methods

/-- Keeps the methods that belong to one of the types named. -/
def byReceiver (store : Store) (types : List String) (methods : List EntityId) : List EntityId :=
  let accepts (method : Entity) : Bool :=
    method.owner.any fun owner => types.contains (store.nameOf owner)
  keep store accepts methods

def exactMatch (parameter argument : String) : Bool :=
  parameter == argument

/-- Two undefined types also match, whatever they are. -/
def softMatch (parameter argument : String) : Bool :=
  parameter == argument || (Naming.isUndefined parameter && Naming.isUndefined argument)

def allMatch (matches' : String → String → Bool) : List String → List String → Bool
  | [], [] => true
  | parameter :: parameters, argument :: arguments =>
      matches' parameter argument && allMatch matches' parameters arguments
  | _, _ => false

def byParameterTypes (store : Store) (matches' : String → String → Bool) (arguments : List String)
    (methods : List EntityId) : List EntityId :=
  keep store (fun method => allMatch matches' method.parameterTypes arguments) methods

end Stage

end JavaFacts
