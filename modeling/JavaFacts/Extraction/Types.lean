import JavaFacts.Extraction.Placeholders
import JavaFacts.Extraction.Walk

/-!
Declarations of types and bodies of anonymous classes.
-/

namespace JavaFacts.Walk

/-- `marker` says of which fields. -/
def ensureInitializer (type : EntityId) (typeName marker : String) : Walk EntityId := do
  let name := Naming.initializerName typeName marker
  let known := ((← get).store.find? .method name).isSome
  let flags :=
    if marker == Naming.staticInitializer then Modifiers.isSynthetic ∪ Modifiers.isStatic
    else Modifiers.isSynthetic
  let method ← edit do
    let method ← Edit.intern .method name
    Edit.setOwner method type
    Edit.addModifiers method flags
    pure method
  if !known then addMethod method
  pure method

def addDefaultConstructor (type : EntityId) (typeName : String) : Walk Unit := do
  let methods := (← get).store.membersOfKind type .method
  if methods.any fun method => Text.startsWith method.name (Naming.constructorStem typeName) then
    pure ()
  else
    let constructor ← edit do
      let constructor ← Edit.intern .method (Naming.methodName typeName "" true [])
      Edit.setOwner constructor type
      Edit.addModifiers constructor Modifiers.isSynthetic
      pure constructor
    addMethod constructor

/-- Unless it is an interface, a type gets a host for instance initializers before its members and a
constructor behind them. -/
def typeBody (type : EntityId) (name : String) (isInterface : Bool) (members : Walk Unit) :
    Walk Unit := do
  modifyScopes (·.seedAnonymous name)
  insideType type name do
    if !isInterface then
      let _ ← ensureInitializer type name Naming.instanceInitializer
    members
    if !isInterface then
      addDefaultConstructor type name

def linkSupertype (type : EntityId) (kind : AssociationKind) (supertype : TypeUse) : Walk Unit := do
  let target ← edit (Edit.typeOf supertype)
  if (← get).store.isLinked kind type target then pure ()
  else link kind type target supertype.span

def isTaken (store : Store) (anchor : Anchor) (name : String) : Bool :=
  match (store.find? .type name).bind store.entity? with
  | some entity => entity.anchor.any (· != anchor)
  | none => false

def freeName (store : Store) (anchor : Anchor) (name : Nat → String) : Nat → Nat → String
  | 0, ordinal => name ordinal
  | steps + 1, ordinal =>
      if isTaken store anchor (name ordinal) then freeName store anchor name steps (ordinal + 1)
      else name ordinal

/-- That of the binding, or else one made of the package or the type around. A type inside a method
also gets a number; no more names are taken than there are entities. -/
def declaredName (store : Store) (scopes : Scopes) (package : Option String) (header : TypeHeader)
    (anchor : Anchor) : String :=
  match header.binding.bind Naming.bindingName? with
  | some name => name
  | none =>
      let simple := header.name ++ Naming.typeParameterList header.typeParameters
      match scopes.type? with
      | none =>
          match package with
          | some package => if package.isEmpty then simple else package ++ "." ++ simple
          | none => simple
      | some frame =>
          let outer := Naming.withoutTypeParameters frame.name
          if scopes.isInMethod then
            freeName store anchor (fun ordinal => outer ++ "$" ++ toString ordinal ++ simple)
              store.entities.size 1
          else outer ++ "$" ++ simple

def declaredOwner (site : Site) (scopes : Scopes) : EntityId :=
  match scopes.types, scopes.methods with
  | type :: _, method :: _ =>
      if method.declaringType == type.entity then method.entity else type.entity
  | type :: _, [] => type.entity
  | [], _ => site.packageEntity

def kindModifiers : DeclarationKind → Modifiers
  | .ofClass => ∅
  | .interface => Modifiers.isInterface
  | .enumeration => Modifiers.isEnum

def declareType (span : Span) (header : TypeHeader) (members : Walk Unit) : Walk Unit := do
  let site ← read
  let progress ← get
  let anchor ← anchor span
  let name := declaredName progress.store progress.scopes site.package header anchor
  let owner := declaredOwner site progress.scopes
  let type ← edit do
    let type ← Edit.declareNamed .type name anchor
    Edit.setOwner type owner
    Edit.addModifiers type (header.modifiers ∪ kindModifiers header.kind)
    pure type
  addType type
  match header.superclass with
  | some superclass => linkSupertype type .inheritance superclass
  | none => pure ()
  header.interfaces.forM (linkSupertype type .subtyping)
  typeBody type name (header.kind == .interface) members

/-- It belongs to the method around it, or else to the type. -/
def declareAnonymous (span : Span) (name : String) (supertype : TypeUse) : Walk EntityId := do
  let owner ← match (← get).scopes.method? with
    | some method => pure method.entity
    | none => (·.entity) <$> currentType
  let anchor ← anchor span
  let type ← edit do
    let type ← Edit.declareNamed .type name anchor
    Edit.setOwner type owner
    Edit.addModifiers type Modifiers.isAnonymous
    pure type
  addType type
  let isInterface := supertype.binding.any (·.isInterface)
  linkSupertype type (if isInterface then .subtyping else .inheritance) supertype
  pure type

end JavaFacts.Walk
