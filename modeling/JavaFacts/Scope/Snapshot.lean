import JavaFacts.Facts.Store
import JavaFacts.Scope.Tracker

/-!
The variables that are visible at one place of a program, by their simple names. A snapshot is built
from levels, the narrowest first; a name of a narrower level hides the name in all wider ones, and
all variables of one level that share a name stay visible together.
-/

namespace JavaFacts

abbrev Level := List (String × EntityId)

structure Snapshot where
  entries : List (String × List EntityId)
deriving Repr, DecidableEq, Inhabited

namespace Snapshot

def empty : Snapshot := ⟨[]⟩

instance : EmptyCollection Snapshot := ⟨empty⟩

def lookup (snapshot : Snapshot) (name : String) : List EntityId :=
  (snapshot.entries.lookup name).getD []

def contains (snapshot : Snapshot) (name : String) : Bool :=
  snapshot.entries.any (·.1 == name)

def unique? (snapshot : Snapshot) (name : String) : Option EntityId :=
  match snapshot.lookup name with
  | [only] => some only
  | _ => none

def names (snapshot : Snapshot) : List String :=
  (snapshot.entries.map (·.1)).mergeSort fun left right => decide (left ≤ right)

def size (snapshot : Snapshot) : Nat := snapshot.entries.length

def isEmpty (snapshot : Snapshot) : Bool := snapshot.entries.isEmpty

def grouped (level : Level) : List (String × List EntityId) :=
  (level.map (·.1)).eraseDups.map fun name =>
    (name, (level.filter (·.1 == name)).map (·.2))

def addLevel (snapshot : Snapshot) (level : Level) : Snapshot :=
  ⟨snapshot.entries ++ grouped (level.filter fun entry => !snapshot.contains entry.1)⟩

def levelOf (entities : List Entity) : Level :=
  entities.map fun entity => (entity.simpleName, entity.id)

def blockLevel (store : Store) (scopes : Scopes) (method : EntityId) (limit : Nat)
    (block : BlockId) : Level :=
  levelOf <| (store.membersOfKind method .localVariable).filter fun entity =>
    scopes.blockOfLocal? entity.id == some block && entity.anchor.any (·.stop ≤ limit)

/-- A variable counts as declared before the block ends, not before the place of a use in it. -/
def capture (store : Store) (scopes : Scopes) (method : EntityId) (block : Option BlockId) :
    Snapshot :=
  let blockLevels := match block.bind fun id => (scopes.block? id).map fun block => (id, block) with
    | some (id, block) => (scopes.ancestry id).map (blockLevel store scopes method block.span.stop)
    | none => []
  (blockLevels ++ [levelOf (store.membersOfKind method .parameter)]).foldl addLevel ∅

def enclosingTypesFrom (store : Store) : Nat → List EntityId → EntityId → List EntityId
  | 0, _, _ => []
  | steps + 1, visited, id =>
      if visited.contains id then []
      else
        match store.entity? id with
        | none => []
        | some entity =>
            let outward := match entity.owner with
              | some owner => enclosingTypesFrom store steps (id :: visited) owner
              | none => []
            match entity.kind with
            | .type => id :: outward
            | .method => outward
            | _ => []

/-- Local and anonymous classes are reached through the method that owns them. -/
def enclosingTypes (store : Store) (type : EntityId) : List EntityId :=
  enclosingTypesFrom store (store.entities.size + 1) [] type

/-- Each type is a level. -/
def addEnclosingFields (snapshot : Snapshot) (store : Store) (type : EntityId) : Snapshot :=
  ((enclosingTypes store type).map fun id => levelOf (store.membersOfKind id .field)).foldl
    addLevel snapshot

end Snapshot

end JavaFacts
