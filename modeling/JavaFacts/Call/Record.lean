import JavaFacts.Scope.Snapshot

/-!
A call whose target is not known when it is read. The record keeps what the place of the call tells
about it, and later what the search for the target finds out.
-/

namespace JavaFacts

inductive CallKind where
  | method
  | superMethod
  /-- `this(..)` -/
  | ownConstructor
  /-- `super(..)` -/
  | superConstructor
  /-- `new Type(..)` -/
  | creation
deriving Repr, DecidableEq, Inhabited

namespace CallKind

def isConstructor : CallKind → Bool
  | method | superMethod => false
  | _ => true

end CallKind

structure Operand where
  text : String
  typeName : Option String
  signatureType : Option String
  /-- To be looked up when the type is unknown. -/
  name : Option String
deriving Repr, DecidableEq, Inhabited

inductive Receiver where
  | implicit
  | superclass
  | ofType (name : String)
  | expression (operand : Operand)
deriving Repr, DecidableEq, Inhabited

inductive CallState where
  | captured
  | resolved
deriving Repr, DecidableEq, Inhabited

structure Candidates where
  byName : List EntityId
  byCount : List EntityId
  byReceiver : List EntityId
  exact : List EntityId
  soft : List EntityId
deriving Repr, DecidableEq, Inhabited

def Candidates.none : Candidates := ⟨[], [], [], [], []⟩

structure Call where
  kind : CallKind
  caller : EntityId
  callerType : EntityId
  /-- The constructor marker for constructors. -/
  name : String
  receiver : Receiver
  arguments : List Operand
  visible : Snapshot
  anchor : Anchor
  statement : String
  state : CallState
  receiverType : Option String
  argumentTypes : List String
  candidates : Candidates
deriving Repr, DecidableEq, Inhabited

def Call.captured (kind : CallKind) (caller callerType : EntityId) (name : String)
    (receiver : Receiver) (arguments : List Operand) (visible : Snapshot) (anchor : Anchor)
    (statement : String) : Call :=
  { kind, caller, callerType, name, receiver, arguments, visible, anchor, statement,
    state := .captured, receiverType := none, argumentTypes := [], candidates := .none }

inductive Target where
  | unique (method : EntityId)
  | ambiguous (methods : List EntityId)
  | unresolved
deriving Repr, DecidableEq, Inhabited

/-- Exact parameter types win over soft ones; without either, a single method that the receiver
leaves over is taken. -/
def Candidates.best (candidates : Candidates) : Target :=
  match candidates.exact, candidates.soft, candidates.byReceiver with
  | [method], _, _ => .unique method
  | first :: second :: rest, _, _ => .ambiguous (first :: second :: rest)
  | [], [method], _ => .unique method
  | [], first :: second :: rest, _ => .ambiguous (first :: second :: rest)
  | [], [], [method] => .unique method
  | [], [], _ => .unresolved

def Call.target (call : Call) : Target := call.candidates.best

end JavaFacts
