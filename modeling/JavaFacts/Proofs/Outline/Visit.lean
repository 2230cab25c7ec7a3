import JavaFacts.Extraction.Unit
import JavaFacts.Proofs.Outline.Standing

/-!
The handlers of a walk, by names.
-/

namespace JavaFacts

namespace Origin

/-- What is known about an expression. -/
def operand (origin : Origin) (node : Node) : Operand :=
  let type := node.type?.filter fun type => type.kind != .null && Walk.isResolved (some type)
  { text := origin.statement node.span
    typeName := type.bind Naming.bindingName?
    signatureType := type.map fun type => Naming.signatureName (some type) none
    name := node.name? }

/-- Type of an argument in the form of method signatures. -/
def argumentType (origin : Origin) (argument : Node) : String :=
  (origin.operand argument).signatureType.getD Naming.undefined

def receiverOf (origin : Origin) : Option Node → Receiver
  | none | some (.this _ none _) => .implicit
  | some receiver => .expression (origin.operand receiver)

end Origin

/-- Name of the type that is used. -/
def TypeUse.name (use : TypeUse) : String :=
  Naming.typeName use.binding use.written

namespace Declarator

/-- What is known about the type of a declared variable. -/
def typeBinding (declarator : Declarator) (use : TypeUse) : Option TypeBinding :=
  declarator.binding.bind (·.type) <|> (use.withDimensions declarator.extraDimensions).binding

def writtenType (declarator : Declarator) (use : TypeUse) : Option WrittenType :=
  some (use.written.withDimensions declarator.extraDimensions)

def typeName (declarator : Declarator) (use : TypeUse) : String :=
  Naming.typeName (declarator.typeBinding use) (declarator.writtenType use)

def signatureType (declarator : Declarator) (use : TypeUse) : String :=
  Naming.signatureName (declarator.typeBinding use) (declarator.writtenType use)

end Declarator

namespace Standing

/-- How a type that is declared here gets its name. -/
def naming (standing : Standing) (origin : Origin) (header : TypeHeader) : TypeNaming :=
  match header.binding.bind Naming.bindingName? with
  | some name => .given name
  | none =>
      let simple := header.name ++ Naming.typeParameterList header.typeParameters
      match standing.types with
      | [] =>
          match origin.package with
          | some package => .given (if package.isEmpty then simple else package ++ "." ++ simple)
          | none => .given simple
      | type :: _ =>
          let outer := Naming.withoutTypeParameters type
          if standing.isInMethod then .numbered outer simple else .given (outer ++ "$" ++ simple)

/-- Owner of a type that is declared here. -/
def typeOwner (standing : Standing) (origin : Origin) : Identity :=
  match standing.types, standing.methods with
  | type :: _, method :: _ =>
      if method.declaringType == type then (.method, method.name) else (.type, type)
  | type :: _, [] => (.type, type)
  | [], _ => (.package, origin.packageName)

end Standing

/-- The links from a declared type to its supertypes. -/
def TypeHeader.supertypeLinks (header : TypeHeader) (origin : Origin) (type : String) : List Link :=
  header.superclass.toList.map (fun use => origin.link .inheritance type use.name use.span) ++
    header.interfaces.map fun use => origin.link .subtyping type use.name use.span

/-- Name of the type that a declared method returns; a constructor returns none. -/
def MethodHeader.returned (header : MethodHeader) : Option String :=
  match header.returnType, header.isConstructor with
  | some returned, false => some returned.name
  | _, _ => none

/-- The parameters of a declared method, numbered from `position` on. -/
def parameterEvents (origin : Origin) (method : String) :
    Nat → List (FormalParameter × String) → List ParameterEvent
  | _, [] => []
  | position, (parameter, signatureType) :: parameters =>
      { name := method ++ "." ++ parameter.name
        anchor := origin.anchor parameter.span
        type := parameter.type.name
        detail := {
          modifiers := parameter.modifiers, declaredType := parameter.type.name, signatureType
          position } } ::
        parameterEvents origin method (position + 1) parameters

namespace Outline

def typeBody (name : String) (isInterface : Bool) (members : Outline Unit) : Outline Unit :=
  insideType name do
    if !isInterface then record (.host name Naming.instanceInitializer)
    members
    if !isInterface then record (.constructor name)

def declareType (span : Span) (header : TypeHeader) (members : Outline Unit) : Outline Unit := do
  let origin ← origin
  let standing ← standing
  let name ← ask (.declareType (standing.naming origin header) (origin.anchor span)
    (standing.typeOwner origin) (header.modifiers ∪ Walk.kindModifiers header.kind))
  change (·.addType name)
  record (.supertypes (header.supertypeLinks origin name))
  typeBody name (header.kind == .interface) members

def declareAnonymous (span : Span) (name : String) (supertype : TypeUse) : Outline Unit := do
  let owner ← match (← standing).methods with
    | method :: _ => pure (.method, method.name)
    | [] => do pure (.type, ← currentType)
  let origin ← origin
  let _ ← ask (.declareType (.given name) (origin.anchor span) owner Modifiers.isAnonymous)
  change (·.addType name)
  let isInterface := supertype.binding.any (·.isInterface)
  let kind := if isInterface then .subtyping else .inheritance
  record (.supertypes [origin.link kind name supertype.name supertype.span])

def declareMethod (span : Span) (header : MethodHeader) (body : Outline Unit) : Outline Unit := do
  let type ← currentType
  let origin ← origin
  let signatures := Walk.parameterTypes header
  let name := Naming.methodName type header.name header.isConstructor signatures
  record (.method name (origin.anchor span) type header.returned header.modifiers signatures)
  insideMethod name type do
    record (.parameters name (parameterEvents origin name 0 (header.parameters.zip signatures)))
    body

def declareField (type : String) (header : VariablesHeader) (declarator : Declarator) :
    Outline Unit := do
  let origin ← origin
  record (.field (Naming.fieldName type declarator.name) (origin.anchor declarator.span) type
    header.modifiers (declarator.typeName header.type) (declarator.signatureType header.type))

def areStatic (type : String) (modifiers : Modifiers) : Outline Bool := do
  return (← ask (.isInterface type)) || modifiers.contains Modifiers.isStatic

def insideInitializer (type : String) (isStatic : Bool) (action : Outline Unit) : Outline Unit := do
  let marker := if isStatic then Naming.staticInitializer else Naming.instanceInitializer
  record (.host type marker)
  insideMethod (Naming.initializerName type marker) type action

def declareLocal (name : String) (span : Span) : Outline String := do
  let method ← currentMethod
  let unique := (← standing).localName method.name name
  change (·.countLocal method.name name)
  record (.localVariable unique ((← origin).anchor span) method.name)
  change (·.placeLocal unique)
  pure unique

def declareVariable (header : VariablesHeader) (declarator : Declarator) : Outline Unit := do
  let name ← declareLocal declarator.name declarator.span
  record (.localType name header.modifiers (declarator.typeName header.type)
    (declarator.signatureType header.type))

def declareInStatement (span : Span) (name : String) (use : TypeUse) : Outline Unit := do
  let name ← declareLocal name span
  record (.localType name ∅ use.name (Naming.signatureName use.binding use.written))

def accessIn (span : Span) (field : String) : Option String → Outline Unit
  | some type => do
      let method ← currentMethod
      let link := (← origin).link .access method.name (Naming.fieldName type field) span
      record (.access type field link)
  | none => pure ()

def accessField (span : Span) (name : String) (binding : Option VariableBinding) (receiver : Node) :
    Outline Unit := do
  match binding, receiver with
  | some binding, _ => accessIn span name (Walk.fieldType? binding)
  | none, .this _ none _ => accessIn span name (some (← currentType))
  | none, _ => pure ()

def accessSuperField (span : Span) (name : String) (binding : Option VariableBinding) :
    Outline Unit := do
  match binding with
  | some binding => accessIn span name (Walk.fieldType? binding)
  | none => accessIn span name (← ask (.superclass (← currentType)))

def recordCheck (kind : AssociationKind) (span : Span) (use : TypeUse) : Outline Unit := do
  let method ← currentMethod
  record (.check ((← origin).link kind method.name use.name span))

def linkBound (span : Span) (binding : Option MethodBinding) (arguments : List Node) :
    Outline Bool := do
  match binding with
  | none => pure false
  | some binding =>
      if !arguments.all (fun argument => Walk.isResolved argument.type?) then pure false
      else
        match Naming.boundMethodName? binding with
        | none => pure false
        | some (type, name) =>
            let caller ← currentMethod
            record (.call type name (Naming.parameterTypes binding)
              (binding.returnType.map fun type => Naming.typeName (some type) none)
              ((← origin).link .invocation caller.name name span))
            pure true

def defer (span : Span) (kind : CallKind) (name : String) (receiver : Receiver)
    (arguments : List Node) : Outline Unit := do
  let caller ← currentMethod
  let standing ← standing
  let levels ← ask (.visible caller.name standing.localBlocks standing.openBlocks.2
    standing.openBlocks.1)
  let origin ← origin
  change (·.addCall {
    kind, caller := caller.name, callerType := caller.declaringType, name, receiver
    arguments := arguments.map origin.operand, levels
    anchor := origin.anchor span, statement := origin.statement span })

def refer (span : Span) (kind : CallKind) (name : String) (binding : Option MethodBinding)
    (arguments : List Node) (receiver : Outline Receiver) : Outline Unit := do
  if !(← linkBound span binding arguments) then
    defer span kind name (← receiver) arguments

def receiverOf (receiver : Option Node) : Outline Receiver := do
  return (← origin).receiverOf receiver

def ownReceiver : Outline Receiver := do
  return .ofType (← currentType)

def createAnonymous (span : Span) (created : TypeUse) (arguments : List Node) (bodySpan : Span)
    (binding : Option TypeBinding) : Outline String := do
  let enclosing ← currentType
  let ordinal := (← standing).anonymousCounts enclosing
  change (·.countAnonymous enclosing)
  let name := (binding.bind Naming.bindingName?).getD (Naming.anonymousName enclosing ordinal)
  declareAnonymous bodySpan name created
  let caller ← currentMethod
  let origin ← origin
  let argumentTypes := arguments.map origin.argumentType
  record (.anonymousConstructor name argumentTypes
    (origin.link .invocation caller.name (Naming.methodName name "" true argumentTypes) span))
  pure name

mutual

def handle : Node → Outline Unit
  | .type span header body => declareType span header (visitAll body)
  | .method span header body => declareMethod span header (visitOption body)
  | .fields _ header declared => do
      let type ← currentType
      let isStatic ← areStatic type header.modifiers
      visitFields type header isStatic declared
  | .initializer _ isStatic body => do
      insideInitializer (← currentType) isStatic (visiting (handle body))
  | .block span statements => insideBlock span (visitAll statements)
  | .locals _ header declared => visitLocals header declared
  | .call span header receiver arguments => do
      refer span .method header.name header.binding arguments (receiverOf receiver)
      visitOption receiver
      visitAll arguments
  | .superCall span header _ arguments => do
      refer span .superMethod header.name header.binding arguments (pure .superclass)
      visitAll arguments
  | .ownConstructor span binding arguments => do
      refer span .ownConstructor Naming.constructorMarker binding arguments ownReceiver
      visitAll arguments
  | .superConstructor span binding receiver arguments => do
      refer span .superConstructor Naming.constructorMarker binding arguments (pure .superclass)
      visitOption receiver
      visitAll arguments
  | .creation span created binding receiver arguments none => do
      refer span .creation Naming.constructorMarker binding arguments
        (pure (Walk.createdReceiver created))
      visitOption receiver
      visitAll arguments
  | .creation span created _ receiver arguments (some (.mk bodySpan bodyBinding body)) => do
      let type ← createAnonymous span created arguments bodySpan bodyBinding
      visitOption receiver
      visitAll arguments
      typeBody type false (visitAll body)
  | .field span name binding receiver => do
      accessField span name binding receiver
      visiting (handle receiver)
  | .superField span name binding _ => accessSuperField span name binding
  | .qualified span name binding qualifier => do
      accessIn span name (Walk.boundFieldType? binding)
      visiting (handle qualifier)
  | .simple span name binding => accessIn span name (Walk.boundFieldType? binding)
  | .this .. => pure ()
  | .cast span target operand => do
      recordCheck .castTo span target
      visiting (handle operand)
  | .instanceCheck span tested _ operand => do
      recordCheck .instanceCheck span tested
      visiting (handle operand)
  | .expression span _ declares children => do
      match declares with
      | some (name, use) => declareInStatement span name use
      | none => pure ()
      visitAll children
termination_by structural node => node

def visitAll : List Node → Outline Unit
  | [] => pure ()
  | node :: nodes => do
      visiting (handle node)
      visitAll nodes
termination_by structural nodes => nodes

def visitOption : Option Node → Outline Unit
  | none => pure ()
  | some node => visiting (handle node)
termination_by structural node => node

def visitFields (type : String) (header : VariablesHeader) (isStatic : Bool) :
    List DeclaredVariable → Outline Unit
  | [] => pure ()
  | .mk declarator initializer :: declared => do
      declareField type header declarator
      match initializer with
      | none => pure ()
      | some node => insideInitializer type isStatic (visiting (handle node))
      visitFields type header isStatic declared
termination_by structural declared => declared

def visitLocals (header : VariablesHeader) : List DeclaredVariable → Outline Unit
  | [] => pure ()
  | .mk declarator initializer :: declared => do
      declareVariable header declarator
      visitOption initializer
      visitLocals header declared
termination_by structural declared => declared

end

end Outline

/-- What the extraction of a unit asks of the facts. -/
def CompilationUnit.outline (unit : CompilationUnit) : Outline Unit :=
  Outline.visitAll unit.types

end JavaFacts
