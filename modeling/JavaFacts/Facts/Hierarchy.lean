import JavaFacts.Facts.Store

/-!
The type hierarchy that inheritance and subtyping associations draw. It may hold cycles: the search
for supertypes looks at each type once.
-/

namespace JavaFacts.Store

def directSupertypes (store : Store) (type : EntityId) : List EntityId :=
  let upward := (store.associationsFrom type).filter (·.kind.isHierarchy)
  let classes := upward.filter (·.kind == .inheritance)
  let interfaces := upward.filter (·.kind != .inheritance)
  (classes ++ interfaces).map (·.target)

def superclass? (store : Store) (type : EntityId) : Option EntityId :=
  ((store.associationsFrom type).find? (·.kind == .inheritance)).map (·.target)

def unseen (found : List EntityId) : List EntityId → List EntityId
  | [] => []
  | candidate :: candidates =>
      if found.contains candidate then unseen found candidates
      else candidate :: unseen (candidate :: found) candidates

/-- `found` holds everything seen so far in the order of discovery, `waiting` its last part. -/
def search (store : Store) : Nat → List EntityId → List EntityId → List EntityId
  | 0, _, found => found
  | _ + 1, [], found => found
  | steps + 1, type :: waiting, found =>
      let discovered := unseen found (store.directSupertypes type)
      search store steps (waiting ++ discovered) (found ++ discovered)

/-- Everything discovered ends some association, so there is a step for each. -/
def supertypes (store : Store) (type : EntityId) : List EntityId :=
  (store.search (store.associations.size + 1) [type] [type]).drop 1

def withSupertypes (store : Store) (typeName : String) : List String :=
  match store.find? .type typeName with
  | some type => typeName :: (store.supertypes type).map store.nameOf
  | none => [typeName]

end JavaFacts.Store
