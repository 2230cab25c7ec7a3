import JavaFacts.Extraction.Types

/-!
Methods, fields, initializers and variables.
-/

namespace JavaFacts.Walk

/-- Types of the parameters of a declared method, in the form of method signatures. -/
def parameterTypes (header : MethodHeader) : List String :=
  header.parameters.map fun parameter =>
    let binding := parameter.type.binding <|> parameter.binding.bind (·.type)
    Naming.signatureName binding parameter.type.written

def declareParameter (method : EntityId) (methodName : String) (position : Nat)
    (parameter : FormalParameter) (signature : String) : Walk Unit := do
  let anchor ← anchor parameter.span
  edit do
    let entity ← Edit.declareNamed .parameter (methodName ++ "." ++ parameter.name) anchor
    Edit.setOwner entity method
    let type ← Edit.typeOf parameter.type
    Edit.update entity fun entity => { entity with
      position := some position, modifiers := entity.modifiers ∪ parameter.modifiers
      declaredType := some type, signatureType := some signature }

def declareParameters (method : EntityId) (methodName : String) :
    Nat → List (FormalParameter × String) → Walk Unit
  | _, [] => pure ()
  | position, (parameter, signature) :: parameters => do
      declareParameter method methodName position parameter signature
      declareParameters method methodName (position + 1) parameters

/-- A method or constructor. An entity that a call has brought in before is completed here. -/
def declareMethod (span : Span) (header : MethodHeader) (body : Walk Unit) : Walk Unit := do
  let type ← currentType
  let signatures := parameterTypes header
  let name := Naming.methodName type.name header.name header.isConstructor signatures
  let anchor ← anchor span
  let method ← edit do
    let method ← Edit.declareNamed .method name anchor
    Edit.setOwner method type.entity
    let returned ← match header.returnType, header.isConstructor with
      | some returned, false => some <$> Edit.typeOf returned
      | _, _ => pure none
    Edit.update method fun entity => { entity with
      modifiers := entity.modifiers ∪ header.modifiers, parameterTypes := signatures
      declaredType := returned <|> entity.declaredType }
    pure method
  addMethod method
  insideMethod method name type.entity do
    declareParameters method name 0 (header.parameters.zip signatures)
    body

/-- Records the type of a variable, to which its declarator may add array dimensions. -/
def recordType (entity : EntityId) (use : TypeUse) (declarator : Declarator) : Edit Unit := do
  let extra := declarator.extraDimensions
  let binding := declarator.binding.bind (·.type) <|> (use.withDimensions extra).binding
  let written := use.written.withDimensions extra
  let type ← Edit.ensureType (Naming.typeName binding written)
  Edit.update entity fun entity => { entity with
    declaredType := some type, signatureType := some (Naming.signatureName binding written) }

def declareField (type : TypeFrame) (header : VariablesHeader) (declarator : Declarator) :
    Walk Unit := do
  let anchor ← anchor declarator.span
  edit do
    let field ← Edit.declareNamed .field (Naming.fieldName type.name declarator.name) anchor
    Edit.setOwner field type.entity
    Edit.addModifiers field header.modifiers
    recordType field header.type declarator

/-- Whether the fields of a declaration are static. All fields of an interface are. -/
def areStatic (type : TypeFrame) (modifiers : Modifiers) : Walk Bool := do
  let entity ← edit (Edit.entity type.entity)
  return entity.modifiers.contains Modifiers.isInterface || modifiers.contains Modifiers.isStatic

/-- Runs an action in the method that hosts the initializers of a type. -/
def insideInitializer (type : TypeFrame) (isStatic : Bool) (action : Walk Unit) : Walk Unit := do
  let marker := if isStatic then Naming.staticInitializer else Naming.instanceInitializer
  let host ← ensureInitializer type.entity type.name marker
  insideMethod host (Naming.initializerName type.name marker) type.entity action

/-- A local variable of the method around it, in the block around it. -/
def declareLocal (name : String) (span : Span) : Walk EntityId := do
  match (← get).scopes.method? with
  | none => fault ("local '" ++ name ++ "' outside of a method")
  | some method =>
      let unique ← modifyGetScopes (·.nextLocalName method.entity method.name name)
      let anchor ← anchor span
      let entity ← edit do
        let entity ← Edit.declareNamed .localVariable unique anchor
        Edit.setOwner entity method.entity
        pure entity
      match (← get).scopes.block with
      | some block => modifyScopes (·.placeLocal entity block)
      | none => pure ()
      pure entity

def declareVariable (header : VariablesHeader) (declarator : Declarator) : Walk Unit := do
  let entity ← declareLocal declarator.name declarator.span
  edit do
    Edit.addModifiers entity header.modifiers
    recordType entity header.type declarator

/-- The variable that a statement such as a loop declares. -/
def declareInStatement (span : Span) (name : String) (use : TypeUse) : Walk Unit := do
  let entity ← declareLocal name span
  edit do
    let type ← Edit.typeOf use
    Edit.update entity fun entity => { entity with
      declaredType := some type
      signatureType := some (Naming.signatureName use.binding use.written) }

end JavaFacts.Walk
