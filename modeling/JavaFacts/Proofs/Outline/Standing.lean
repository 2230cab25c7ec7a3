import JavaFacts.Extraction.Walk
import JavaFacts.Proofs.Outline.Plan

/-!
Where a walk stands, by names, and the actions that a walk is put together from: each is a plan that
depends on the standing and hands it on. An action gives no result where something around a node is
missing.
-/

namespace JavaFacts

/-- What stays the same throughout a walk, by names. -/
structure Origin where
  path : String
  source : SourceText
  package : Option String
  recordStatements : Bool

def Site.origin (site : Site) : Origin :=
  ⟨site.path, site.source, site.package, site.recordStatements⟩

namespace Origin

def anchor (origin : Origin) (span : Span) : Anchor :=
  Anchor.ofSpan origin.path span

def statement (origin : Origin) (span : Span) : String :=
  if origin.recordStatements then (origin.source.slice? span).getD "" else ""

def packageName (origin : Origin) : String :=
  origin.package.getD Naming.defaultPackage

def link (origin : Origin) (kind : AssociationKind) (source target : String) (span : Span) : Link :=
  ⟨kind, source, target, some (origin.anchor span), origin.statement span⟩

end Origin

structure MethodStanding where
  name : String
  declaringType : String
  /-- The block that was open when the method was entered. -/
  hidden : Option BlockId

/-- A call whose target is unknown. -/
structure DeferredCall where
  kind : CallKind
  caller : String
  callerType : String
  name : String
  receiver : Receiver
  arguments : List Operand
  levels : List (List Identity)
  anchor : Anchor
  statement : String

structure Standing where
  types : List String
  methods : List MethodStanding
  blocks : Array Block
  block : Option BlockId
  anonymousCounts : String → Nat
  localBlocks : String → Option BlockId
  localCounts : String → String → Nat
  calls : List DeferredCall
  declaredTypes : List String

namespace Standing

def initial : Standing :=
  ⟨[], [], #[], none, fun _ => 0, fun _ => none, fun _ _ => 0, [], []⟩

def isInMethod (standing : Standing) : Bool :=
  match standing.types, standing.methods with
  | type :: _, method :: _ => method.declaringType == type
  | _, _ => false

def enterType (name : String) (standing : Standing) : Standing :=
  { standing with types := name :: standing.types }

def leaveType (standing : Standing) : Standing :=
  { standing with types := standing.types.tail }

def enterMethod (name declaringType : String) (standing : Standing) : Standing :=
  { standing with
    methods := ⟨name, declaringType, standing.block⟩ :: standing.methods, block := none }

def leaveMethod (standing : Standing) : Standing :=
  { standing with
    methods := standing.methods.tail, block := standing.methods.head?.bind (·.hidden) }

/-- The blocks alone, as scopes that hold nothing else. -/
def openScopes (standing : Standing) : Scopes :=
  { (∅ : Scopes) with blocks := standing.blocks, block := standing.block }

def enterBlock (span : Span) (standing : Standing) : Standing :=
  let entered := (standing.openScopes.enterBlock span).2
  { standing with blocks := entered.blocks, block := entered.block }

def leaveBlock (standing : Standing) : Standing :=
  { standing with block := (standing.block.bind standing.openScopes.block?).bind (·.outer) }

def countAnonymous (type : String) (standing : Standing) : Standing :=
  { standing with anonymousCounts :=
      Function.update standing.anonymousCounts type (standing.anonymousCounts type + 1) }

/-- Unique name of the next local variable `name` of a method. -/
def localName (standing : Standing) (method name : String) : String :=
  let ordinal := standing.localCounts method name
  let plain := method ++ "." ++ name
  if ordinal == 0 then plain else plain ++ "#" ++ toString ordinal

def countLocal (method name : String) (standing : Standing) : Standing :=
  { standing with localCounts := fun other =>
      if other = method then
        Function.update (standing.localCounts method) name (standing.localCounts method name + 1)
      else standing.localCounts other }

/-- Puts a local variable into the block that is open, if there is one. -/
def placeLocal (variableName : String) (standing : Standing) : Standing :=
  match standing.block with
  | some block =>
      { standing with localBlocks :=
          Function.update standing.localBlocks variableName (some block) }
  | none => standing

/-- The blocks around the place, outwards, and where the innermost of them ends. -/
def openBlocks (standing : Standing) : List BlockId × Nat :=
  match standing.block.bind fun id => (standing.openScopes.block? id).map fun block => (id, block) with
  | some (id, block) => (standing.openScopes.ancestry id, block.span.stop)
  | none => ([], 0)

def addType (name : String) (standing : Standing) : Standing :=
  { standing with declaredTypes := standing.declaredTypes ++ [name] }

def addCall (call : DeferredCall) (standing : Standing) : Standing :=
  { standing with calls := standing.calls ++ [call] }

end Standing

/-- An action of a walk, by names. -/
def Outline (α : Type) : Type :=
  Origin → Standing → Plan (Option α × Standing)

namespace Outline

instance : Monad Outline where
  pure result := fun _ standing => .done (some result, standing)
  bind action next := fun origin standing =>
    (action origin standing).bind fun
      | (some result, standing) => next result origin standing
      | (none, standing) => .done (none, standing)

def origin : Outline Origin :=
  fun origin standing => .done (some origin, standing)

def standing : Outline Standing :=
  fun _ standing => .done (some standing, standing)

def change (change : Standing → Standing) : Outline Unit :=
  fun _ standing => .done (some (), change standing)

/-- Something around the node is missing. -/
def lacking : Outline α :=
  fun _ standing => .done (none, standing)

def ask (request : Request) : Outline request.Answer :=
  fun _ standing => .ask request fun answer => .done (some answer, standing)

def record (event : Event) : Outline Unit :=
  ask (.record event)

/-- Runs an action between two changes of the standing. -/
def inside (enter leave : Standing → Standing) (action : Outline α) : Outline α :=
  fun origin standing =>
    (action origin (enter standing)).bind fun (result, standing) => .done (result, leave standing)

def insideType (name : String) (action : Outline α) : Outline α :=
  inside (·.enterType name) (·.leaveType) action

def insideMethod (name declaringType : String) (action : Outline α) : Outline α :=
  inside (·.enterMethod name declaringType) (·.leaveMethod) action

def insideBlock (span : Span) (action : Outline α) : Outline α :=
  inside (·.enterBlock span) (·.leaveBlock) action

/-- Visits a node, which is left out where it lacks something. -/
def visiting (action : Outline Unit) : Outline Unit :=
  fun origin standing => (action origin standing).bind fun (_, standing) => .done (some (), standing)

def currentType : Outline String := do
  match (← standing).types with
  | type :: _ => pure type
  | [] => lacking

def currentMethod : Outline MethodStanding := do
  match (← standing).methods with
  | method :: _ => pure method
  | [] => lacking

theorem currentMethod_bind {standing : Standing} {method : MethodStanding}
    {around : List MethodStanding} (found : standing.methods = method :: around)
    (next : MethodStanding → Outline α) (origin : Origin) :
    (currentMethod >>= next) origin standing = next method origin standing := by
  have current : currentMethod origin standing = .done (some method, standing) := by
    show (match standing.methods with
      | method :: _ => (pure method : Outline MethodStanding)
      | [] => lacking) origin standing = _
    rw [found]
    rfl
  show (currentMethod origin standing).bind _ = _
  rw [current]
  rfl

theorem currentMethod_bind_lacking {standing : Standing} (found : standing.methods = [])
    (next : MethodStanding → Outline α) (origin : Origin) :
    (currentMethod >>= next) origin standing = .done (none, standing) := by
  have current : currentMethod origin standing = .done (none, standing) := by
    show (match standing.methods with
      | method :: _ => (pure method : Outline MethodStanding)
      | [] => lacking) origin standing = _
    rw [found]
    rfl
  show (currentMethod origin standing).bind _ = _
  rw [current]
  rfl

end Outline

end JavaFacts
