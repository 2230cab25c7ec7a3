import JavaFacts.Call.Stages

/-!
The search for the target of a call in a store that holds all facts. It reads the store only.
-/

namespace JavaFacts.Call

/-- The segments come last one first. A name that is no visible variable as a whole is a field of
the type of what stands before its last dot. -/
def variableOf? (visible : Snapshot) (store : Store) : List String → Option EntityId
  | [] => none
  | [name] => visible.unique? name
  | field :: segment :: segments =>
      match visible.unique? (Text.joined "." (field :: segment :: segments).reverse) with
      | some entity => some entity
      | none => do
          let owner ← variableOf? visible store (segment :: segments)
          let type ← (← store.entity? owner).declaredType
          store.find? .field (Naming.fieldName (store.nameOf type) field)

def denoted? (visible : Snapshot) (store : Store) (name : String) : Option Entity :=
  (variableOf? visible store (Text.pieces (· == '.') name).reverse).bind store.entity?

def variableType? (visible : Snapshot) (store : Store) (name : String) : Option String := do
  let entity ← denoted? visible store name
  return store.nameOf (← entity.declaredType)

def receiverTypeIn (call : Call) (store : Store) : Option String :=
  match call.receiver with
  | .implicit => some (store.nameOf call.callerType)
  | .superclass =>
      some (((store.superclass? call.callerType).map store.nameOf).getD Naming.objectName)
  | .ofType name => some name
  | .expression operand =>
      operand.typeName <|> operand.name.bind (variableType? call.visible store)

def argumentTypeIn (call : Call) (store : Store) (argument : Operand) : String :=
  let entity := argument.name.bind (denoted? call.visible store)
  (argument.signatureType <|> entity.bind (·.signatureType)).getD Naming.undefined

def candidatesIn (call : Call) (store : Store) (index : MethodIndex) : Candidates :=
  let byName := index.named call.name
  let byCount := Stage.byCount store call.arguments.length byName
  let byReceiver := match call.receiverType with
    | none => byCount
    | some type =>
        -- Constructors are not inherited.
        let types := if call.kind.isConstructor then [type] else store.withSupertypes type
        Stage.byReceiver store types byCount
  { byName, byCount, byReceiver
    exact := Stage.byParameterTypes store Stage.exactMatch call.argumentTypes byReceiver
    soft := Stage.byParameterTypes store Stage.softMatch call.argumentTypes byReceiver }

/-- The fields around the caller become visible for the search. -/
def resolve (call : Call) (store : Store) (index : MethodIndex) : Call :=
  let inside := { call with visible := call.visible.addEnclosingFields store call.callerType }
  let typed := { inside with
    receiverType := inside.receiverTypeIn store
    argumentTypes := inside.arguments.map (inside.argumentTypeIn store) }
  { typed with candidates := typed.candidatesIn store index, state := .resolved }

def isCaptured (call : Call) : Bool := call.state == .captured

def isResolved (call : Call) : Bool := call.state == .resolved

def resolveAll (store : Store) (calls : List Call) : List Call :=
  let index := MethodIndex.ofStore store
  calls.map fun call => if call.isCaptured then call.resolve store index else call

end JavaFacts.Call
