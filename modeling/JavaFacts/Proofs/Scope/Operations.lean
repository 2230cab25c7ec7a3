import JavaFacts.Proofs.Scope.Blocks

/-!
What can be asked of the scopes, in any order. Leaving is the only request that may be refused: a type
or method is left with the depth of its stack, a block with the number of the block that is open, and
whatever else it is asked with, a leave changes nothing.
-/

namespace JavaFacts

namespace Scopes

/-- A local variable that is to be named. -/
structure LocalRequest where
  method : EntityId
  methodName : String
  name : String

def nameLocal (scopes : Scopes) (asked : LocalRequest) : String × Scopes :=
  scopes.nextLocalName asked.method asked.methodName asked.name

/-- What can be asked of the scopes. -/
inductive Operation where
  | enterType (frame : TypeFrame)
  | leaveType (depth : Nat)
  | enterMethod (entity : EntityId) (name : String) (declaringType : EntityId)
  | leaveMethod (depth : Nat)
  | enterBlock (span : Span)
  | leaveBlock (block : BlockId)
  | seedAnonymous (typeName : String)
  | nextAnonymous (typeName : String)
  | placeLocal (entity : EntityId) (block : BlockId)
  | nameLocal (asked : LocalRequest)
  | recordViolation (error : ScopeError)
  | takeViolation

/-- The scopes behind an operation. A refused one changes nothing. -/
def after (scopes : Scopes) : Operation → Scopes
  | .enterType frame => (scopes.enterType frame).2
  | .leaveType depth => match scopes.leaveType depth with
      | .ok (_, left) => left
      | .error _ => scopes
  | .enterMethod entity name declaringType => (scopes.enterMethod entity name declaringType).2
  | .leaveMethod depth => match scopes.leaveMethod depth with
      | .ok (_, left) => left
      | .error _ => scopes
  | .enterBlock span => (scopes.enterBlock span).2
  | .leaveBlock block => match scopes.leaveBlock block with
      | .ok left => left
      | .error _ => scopes
  | .seedAnonymous typeName => scopes.seedAnonymous typeName
  | .nextAnonymous typeName => (scopes.nextAnonymous typeName).2
  | .placeLocal entity block => scopes.placeLocal entity block
  | .nameLocal asked => (scopes.nameLocal asked).2
  | .recordViolation error => scopes.recordViolation error
  | .takeViolation => scopes.takeViolation.2

def afterAll (scopes : Scopes) (operations : List Operation) : Scopes :=
  operations.foldl after scopes

/-- The error that an operation is refused with, if it is. -/
def refusal? (scopes : Scopes) : Operation → Option ScopeError
  | .leaveType depth => match scopes.leaveType depth with
      | .ok _ => none
      | .error error => some error
  | .leaveMethod depth => match scopes.leaveMethod depth with
      | .ok _ => none
      | .error error => some error
  | .leaveBlock block => match scopes.leaveBlock block with
      | .ok _ => none
      | .error error => some error
  | _ => none

/-- The ways in which an operation moves the scopes. -/
inductive Step (scopes : Scopes) : Operation → Scopes → Prop where
  | refused {operation : Operation} {error : ScopeError} :
      scopes.refusal? operation = some error → Step scopes operation scopes
  | enterType (frame : TypeFrame) : Step scopes (.enterType frame) (scopes.enterType frame).2
  | leaveType {frame : TypeFrame} {types : List TypeFrame} : scopes.types = frame :: types →
      Step scopes (.leaveType (types.length + 1)) { scopes with types }
  | enterMethod (entity : EntityId) (name : String) (declaringType : EntityId) :
      Step scopes (.enterMethod entity name declaringType)
        (scopes.enterMethod entity name declaringType).2
  | leaveMethod {frame : MethodFrame} {methods : List MethodFrame} :
      scopes.methods = frame :: methods →
      Step scopes (.leaveMethod (methods.length + 1)) { scopes with methods, block := frame.hidden }
  | enterBlock (span : Span) : Step scopes (.enterBlock span) (scopes.enterBlock span).2
  | leaveBlock {block : BlockId} : scopes.block = some block →
      Step scopes (.leaveBlock block) { scopes with block := scopes.outer? block }
  | seedAnonymous (typeName : String) :
      Step scopes (.seedAnonymous typeName) (scopes.seedAnonymous typeName)
  | nextAnonymous (typeName : String) :
      Step scopes (.nextAnonymous typeName) (scopes.nextAnonymous typeName).2
  | placeLocal (entity : EntityId) (block : BlockId) :
      Step scopes (.placeLocal entity block) (scopes.placeLocal entity block)
  | nameLocal (asked : LocalRequest) : Step scopes (.nameLocal asked) (scopes.nameLocal asked).2
  | recordViolation (error : ScopeError) :
      Step scopes (.recordViolation error) (scopes.recordViolation error)
  | takeViolation : Step scopes .takeViolation scopes.takeViolation.2

theorem step_after (scopes : Scopes) (operation : Operation) :
    Step scopes operation (scopes.after operation) := by
  cases operation with
  | enterType frame => exact .enterType frame
  | enterMethod entity name declaringType => exact .enterMethod entity name declaringType
  | enterBlock span => exact .enterBlock span
  | seedAnonymous typeName => exact .seedAnonymous typeName
  | nextAnonymous typeName => exact .nextAnonymous typeName
  | placeLocal entity block => exact .placeLocal entity block
  | nameLocal asked => exact .nameLocal asked
  | recordViolation error => exact .recordViolation error
  | takeViolation => exact .takeViolation
  | leaveType depth =>
      cases left : scopes.leaveType depth with
      | error error =>
          simp only [after, left]
          exact .refused (by rw [refusal?, left])
      | ok result =>
          obtain ⟨types, stack, rfl, same⟩ := leaveType_eq_ok_iff.mp left
          simp only [after, left, same]
          exact .leaveType stack
  | leaveMethod depth =>
      cases left : scopes.leaveMethod depth with
      | error error =>
          simp only [after, left]
          exact .refused (by rw [refusal?, left])
      | ok result =>
          obtain ⟨methods, stack, rfl, same⟩ := leaveMethod_eq_ok_iff.mp left
          simp only [after, left, same]
          exact .leaveMethod stack
  | leaveBlock block =>
      cases left : scopes.leaveBlock block with
      | error error =>
          simp only [after, left]
          exact .refused (by rw [refusal?, left])
      | ok result =>
          obtain ⟨current, same⟩ := leaveBlock_eq_ok_iff.mp left
          simp only [after, left, same]
          exact .leaveBlock current

/-- A request that is refused leaves everything as it was. -/
theorem after_of_refused {scopes : Scopes} {operation : Operation} {error : ScopeError}
    (refused : scopes.refusal? operation = some error) :
    scopes.after operation = scopes := by
  cases operation with
  | leaveType depth =>
      cases left : scopes.leaveType depth <;> simp only [refusal?, after, left] at refused ⊢
      cases refused
  | leaveMethod depth =>
      cases left : scopes.leaveMethod depth <;> simp only [refusal?, after, left] at refused ⊢
      cases refused
  | leaveBlock block =>
      cases left : scopes.leaveBlock block <;> simp only [refusal?, after, left] at refused ⊢
      cases refused
  | _ => cases refused

end Scopes

end JavaFacts
