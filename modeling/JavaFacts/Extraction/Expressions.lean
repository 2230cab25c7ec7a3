import JavaFacts.Extraction.Types
import JavaFacts.Facts.Hierarchy

/-!
Accesses to fields, casts and type checks, and calls. A call with a known target and known argument
types is linked at once; any other is kept together with the variables that are visible at it.
-/

namespace JavaFacts.Walk

def fieldType? (binding : VariableBinding) : Option String :=
  if binding.isField then binding.declaringClass.bind Naming.bindingName? else none

def boundFieldType? : Option NameBinding → Option String
  | some (.ofVariable binding) => fieldType? binding
  | _ => none

def recordAccess (span : Span) (typeName field : String) : Walk Unit := do
  let method ← currentMethod
  let entity ← edit (Edit.ensureField typeName field)
  link .access method.entity entity span

def accessIn (span : Span) (field : String) : Option String → Walk Unit
  | some typeName => recordAccess span typeName field
  | none => pure ()

/-- `receiver.name`; without a binding, only `this` tells the type. -/
def accessField (span : Span) (name : String) (binding : Option VariableBinding) (receiver : Node) :
    Walk Unit := do
  match binding, receiver with
  | some binding, _ => accessIn span name (fieldType? binding)
  | none, .this _ none _ => accessIn span name (some (← currentType).name)
  | none, _ => pure ()

/-- `super.name`; without a binding, the field belongs to the superclass. -/
def accessSuperField (span : Span) (name : String) (binding : Option VariableBinding) :
    Walk Unit := do
  match binding with
  | some binding => accessIn span name (fieldType? binding)
  | none =>
      let type ← currentType
      let store := (← get).store
      accessIn span name ((store.superclass? type.entity).map store.nameOf)

def recordCheck (kind : AssociationKind) (span : Span) (use : TypeUse) : Walk Unit := do
  let method ← currentMethod
  let type ← edit (Edit.typeOf use)
  link kind method.entity type span

def isResolved : Option TypeBinding → Bool
  | none => false
  | some type =>
      match type.kind with
      | .null => true
      | .array => (type.element.bind Naming.bindingName?).isSome
      | _ => (Naming.bindingName? type).isSome

/-- The type of `null` is no type that a parameter could have. -/
def summarize (node : Node) : Walk Operand := do
  let type := node.type?.filter fun type => type.kind != .null && isResolved (some type)
  return {
    text := ← statement node.span
    typeName := type.bind Naming.bindingName?
    signatureType := type.map fun type => Naming.signatureName (some type) none
    name := node.name? }

def recordReturnType (method : EntityId) (returned : Option TypeBinding) : Edit Unit := do
  match returned with
  | none => pure ()
  | some type =>
      if (← Edit.entity method).declaredType.isNone then
        let typeEntity ← Edit.ensureType (Naming.typeName (some type) none)
        Edit.update method fun entity => { entity with declaredType := some typeEntity }

/-- Says whether the target and the types of the arguments were known. -/
def linkBound (span : Span) (binding : Option MethodBinding) (arguments : List Node) :
    Walk Bool := do
  match binding with
  | none => pure false
  | some binding =>
      if !arguments.all (fun argument => isResolved argument.type?) then pure false
      else
        match Naming.boundMethodName? binding with
        | none => pure false
        | some (typeName, name) =>
            let caller ← currentMethod
            let target ← edit do
              let target ← Edit.ensureMethod typeName name (Naming.parameterTypes binding)
              recordReturnType target binding.returnType
              pure target
            link .invocation caller.entity target span
            pure true

def defer (span : Span) (kind : CallKind) (name : String) (receiver : Receiver)
    (arguments : List Node) : Walk Unit := do
  let caller ← currentMethod
  let progress ← get
  let visible := Snapshot.capture progress.store progress.scopes caller.entity progress.scopes.block
  let operands ← arguments.mapM summarize
  let call := Call.captured kind caller.entity caller.declaringType name receiver operands visible
    (← anchor span) (← statement span)
  modify fun progress => { progress with calls := progress.calls.push call }

/-- Nothing but the simple `this` can be left out. -/
def receiverOf : Option Node → Walk Receiver
  | none | some (.this _ none _) => pure .implicit
  | some receiver => .expression <$> summarize receiver

def refer (span : Span) (kind : CallKind) (name : String) (binding : Option MethodBinding)
    (arguments : List Node) (receiver : Walk Receiver) : Walk Unit := do
  if !(← linkBound span binding arguments) then
    defer span kind name (← receiver) arguments

def ownReceiver : Walk Receiver := do
  return .ofType (← currentType).name

def createdReceiver (created : TypeUse) : Receiver :=
  .ofType (Naming.typeName created.binding created.written)

def argumentType (argument : Node) : Walk String := do
  return (← summarize argument).signatureType.getD Naming.undefined

/-- The class takes the next number of the type around it even if it has a name of its own, and the
expression calls its constructor at once. -/
def createAnonymous (span : Span) (created : TypeUse) (arguments : List Node) (bodySpan : Span)
    (binding : Option TypeBinding) : Walk TypeFrame := do
  let enclosing ← currentType
  let ordinal ← modifyGetScopes (·.nextAnonymous enclosing.name)
  let name := (binding.bind Naming.bindingName?).getD (Naming.anonymousName enclosing.name ordinal)
  let type ← declareAnonymous bodySpan name created
  let caller ← currentMethod
  let argumentTypes ← arguments.mapM argumentType
  let constructor ← edit do
    let unique := Naming.methodName name "" true argumentTypes
    let constructor ← Edit.ensureMethod name unique argumentTypes
    Edit.addModifiers constructor Modifiers.isSynthetic
    pure constructor
  addMethod constructor
  link .invocation caller.entity constructor span
  pure ⟨type, name⟩

end JavaFacts.Walk
