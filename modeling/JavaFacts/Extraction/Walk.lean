import JavaFacts.Call.Record
import JavaFacts.Extraction.Fault
import JavaFacts.Naming
import JavaFacts.Source.Text
import JavaFacts.Tree.Node

/-!
The walk over the syntax tree of one file. A fault ends the step in which it arises, but what was
recorded until then stays. Scopes are opened around an action and closed behind it, whether it ends
well or with a fault.
-/

namespace JavaFacts

structure Site where
  path : String
  source : SourceText
  package : Option String
  packageEntity : EntityId
  recordStatements : Bool
deriving Inhabited

structure Progress where
  store : Store
  scopes : Scopes
  calls : Array Call
  types : Array EntityId
  /-- Those made up for the file included. -/
  methods : Array EntityId
  /-- Number of nodes left out. -/
  faults : Nat
  warnings : Array String
deriving Inhabited

abbrev Walk := ReaderT Site (ExceptT Fault (StateM Progress))

namespace Walk

def edit (request : Edit α) : Walk α :=
  fun _ ⟨store, scopes, calls, types, methods, faults, warnings⟩ =>
  match request.run store with
  | (.ok result, store) => (.ok result, ⟨store, scopes, calls, types, methods, faults, warnings⟩)
  | (.error error, store) =>
      (.error (.facts error), ⟨store, scopes, calls, types, methods, faults, warnings⟩)

def fault (reason : String) : Walk α := throw (.node reason)

def modifyScopes (change : Scopes → Scopes) : Walk Unit :=
  modify fun progress => { progress with scopes := change progress.scopes }

def modifyGetScopes (change : Scopes → α × Scopes) : Walk α :=
  modifyGet fun progress =>
    let (result, scopes) := change progress.scopes
    (result, { progress with scopes })

def attempt (action : Walk α) : Walk (Except Fault α) :=
  tryCatch (Except.ok <$> action) fun fault => pure (.error fault)

/-- The scope is left with the key that entering it gave. -/
def inside (enter : Scopes → κ × Scopes) (leave : κ → Scopes → Scopes) (action : Walk α) :
    Walk α := do
  let key ← modifyGetScopes enter
  let outcome ← attempt action
  modifyScopes (leave key)
  match outcome with
  | .ok result => pure result
  | .error fault => throw fault

/-- A failure is kept as a violation. -/
def closed (before : Scopes) (left : Except ScopeError Scopes) : Scopes :=
  match left with
  | .ok after => after
  | .error error => before.recordViolation error

def closeType (depth : Nat) (scopes : Scopes) : Scopes :=
  closed scopes ((scopes.leaveType depth).map (·.2))

def closeMethod (depth : Nat) (scopes : Scopes) : Scopes :=
  closed scopes ((scopes.leaveMethod depth).map (·.2))

def closeBlock (block : BlockId) (scopes : Scopes) : Scopes :=
  closed scopes (scopes.leaveBlock block)

def insideType (entity : EntityId) (name : String) (action : Walk α) : Walk α :=
  inside (·.enterType ⟨entity, name⟩) closeType action

def insideMethod (entity : EntityId) (name : String) (declaringType : EntityId) (action : Walk α) :
    Walk α :=
  inside (·.enterMethod entity name declaringType) closeMethod action

def insideBlock (span : Span) (action : Walk α) : Walk α :=
  inside (·.enterBlock span) closeBlock action

def currentType : Walk TypeFrame := do
  match (← get).scopes.type? with
  | some frame => pure frame
  | none => fault "no enclosing type"

def currentMethod : Walk MethodFrame := do
  match (← get).scopes.method? with
  | some frame => pure frame
  | none => fault "no enclosing method"

def anchor (span : Span) : Walk Anchor := do
  return Anchor.ofSpan (← read).path span

/-- Empty if texts are not recorded or the span lies outside of the file. -/
def statement (span : Span) : Walk String := do
  let site ← read
  return if site.recordStatements then (site.source.slice? span).getD "" else ""

def link (kind : AssociationKind) (source target : EntityId) (span : Span) : Walk Unit := do
  let anchor ← anchor span
  let statement ← statement span
  let _ ← edit (Edit.addAssociation kind source target (some anchor) statement)

def addType (type : EntityId) : Walk Unit :=
  modify fun progress => { progress with types := progress.types.push type }

def addMethod (method : EntityId) : Walk Unit :=
  modify fun progress => { progress with methods := progress.methods.push method }

/-- Fails if a scope was not left in order since the last check. -/
def checkScopes : Walk Unit := do
  match ← modifyGetScopes (·.takeViolation) with
  | some violation => throw (.scope violation)
  | none => pure ()

def skipWarning (node : Node) (anchor : Anchor) (scopes : Scopes) (fault : Fault) : String :=
  let method := (scopes.method?.map (·.name)).getD "-"
  let type := (scopes.type?.map (·.name)).getD "-"
  "Skipping " ++ node.kindName ++ " at " ++ anchor.render ++ " in method '" ++ method ++
    "' of class '" ++ type ++ "': " ++ fault.message

def skip (node : Node) (fault : Fault) : Walk Unit := do
  let anchor ← anchor node.span
  modify fun progress => { progress with
    faults := progress.faults + 1
    warnings := progress.warnings.push (skipWarning node anchor progress.scopes fault) }

/-- A fault that is not fatal costs only the node. -/
def visiting (node : Node) (handle : Walk Unit) : Walk Unit := do
  checkScopes
  let outcome ← attempt handle
  checkScopes
  match outcome with
  | .ok () => pure ()
  | .error fault => if fault.isFatal then throw fault else skip node fault

end Walk

end JavaFacts
