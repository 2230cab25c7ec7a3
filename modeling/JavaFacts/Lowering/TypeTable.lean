import JavaFacts.Concrete.Tree
import JavaFacts.Types.Written

/-!
The types that a source file can name without a compiler: those it declares at top level and as
members, those it imports one by one, and some of the package `java.lang`.
-/

namespace JavaFacts

structure TypeVariable where
  name : String
  bound : Option TypeBinding
deriving Repr, Inhabited

structure TypeScope where
  /-- Binary names, the innermost first. -/
  enclosing : List String
  /-- The last declared first. -/
  typeVariables : List TypeVariable
deriving Repr, Inhabited

structure DeclaredType where
  binding : TypeBinding
  /-- Of the type itself and of those around it, outwards. -/
  enclosing : List String
  /-- If the same file declares it. -/
  superclass : Option String
  fields : List (String × Option TypeBinding)
deriving Repr, Inhabited

structure TypeTable where
  source : SourceText
  package : Option String
  /-- Qualified names by simple name. -/
  imports : List (String × String)
  /-- By binary name; of two types with one name, the first entry counts. -/
  declared : List (String × DeclaredType)
deriving Inhabited

namespace TypeTable

def javaLangClasses : List String :=
  ["Object", "String", "StringBuilder", "Integer", "Long", "Short", "Byte", "Character", "Boolean",
   "Double", "Float", "Number", "Math", "System", "Thread", "Throwable", "Exception",
   "RuntimeException", "Error", "IllegalArgumentException", "IllegalStateException",
   "NullPointerException", "UnsupportedOperationException"]

def javaLangInterfaces : List String :=
  ["Runnable", "Iterable", "Comparable", "CharSequence", "Cloneable", "AutoCloseable"]

def javaLangGenerics : List (String × String) :=
  [("Comparable", "T"), ("Class", "T"), ("Iterable", "T"), ("Enum", "E")]

def javaLang? (name : String) : Option TypeBinding :=
  let typeParameters := (javaLangGenerics.lookup name).toList
  let named (kind : TypeKind) : Option TypeBinding :=
    some { TypeBinding.named kind ("java.lang." ++ name) with typeParameters }
  if javaLangInterfaces.contains name then named .interface
  else if javaLangClasses.contains name || !typeParameters.isEmpty then named .ofClass
  else none

def qualify (table : TypeTable) (name : String) : String :=
  match table.package with
  | some package => if package.isEmpty then name else package ++ "." ++ name
  | none => name

def find? (table : TypeTable) (binaryName : String) : Option DeclaredType :=
  table.declared.lookup binaryName

def binding? (table : TypeTable) (binaryName : String) : Option TypeBinding :=
  (table.find? binaryName).map (·.binding)

def memberName (outer name : String) : String :=
  outer ++ "$" ++ name

def enclosingMember? (table : TypeTable) (name : String) : List String → Option TypeBinding
  | [] => none
  | outer :: enclosing =>
      match table.binding? (memberName outer name) with
      | some binding => some binding
      | none => enclosingMember? table name enclosing

def imported? (table : TypeTable) (name : String) : Option TypeBinding := do
  let qualified ← table.imports.lookup name
  return (table.binding? qualified).getD (TypeBinding.named .ofClass qualified)

/-- Type parameters come first, then member types of the types around from the inside outwards,
types of the package, imports and `java.lang`. -/
def simple? (table : TypeTable) (scope : TypeScope) (name : String) : Option TypeBinding :=
  match scope.typeVariables.find? (·.name == name) with
  | some declared => some (TypeBinding.typeVariable name declared.bound)
  | none =>
      table.enclosingMember? name scope.enclosing <|> table.binding? (table.qualify name) <|>
        table.imported? name <|> javaLang? name

/-- A declared type by its full name, or a member of the type that the first segment names. -/
def qualified? (table : TypeTable) (scope : TypeScope) (name : String) : Option TypeBinding :=
  match table.binding? name with
  | some binding => some binding
  | none =>
      match Text.pieces (· == '.') name with
      | first :: second :: rest => do
          let outer ← table.simple? scope first
          table.binding? (memberName outer.name (Text.joined "$" (second :: rest)))
      | _ => none

mutual

def written (table : TypeTable) (scope : TypeScope) : Concrete → WrittenType × Option TypeBinding
  | .node head children =>
      match head.kind with
      | .primitiveType =>
          let keyword := Text.trim (table.source.textOf head)
          (.primitive keyword, some (TypeBinding.primitive keyword))
      | .typeIdentifier | .identifier =>
          let name := table.source.textOf head
          (.simple name, table.simple? scope name)
      | .scopedTypeIdentifier =>
          let name := table.source.dottedName (.node head children)
          (.qualified name, table.qualified? scope name)
      | .genericType =>
          match firstWritten table scope (·.isNamed) children with
          | some (base, binding) =>
              (.parameterized base (writtenArguments table scope children), binding)
          | none => (.wildcard, none)
      | .arrayType =>
          match firstWritten table scope (·.hasRole .element) children with
          | some (element, binding) =>
              let type : TypeUse := ⟨default, element, binding⟩
              let array := type.withDimensions (Forest.extraDimensions children)
              (array.written, array.binding)
          | none => (.wildcard, none)
      | .annotatedType =>
          (firstWritten table scope (·.isNamedOf (·.isType)) children).getD (.wildcard, none)
      | _ => (.wildcard, none)
termination_by structural tree => tree

def firstWritten (table : TypeTable) (scope : TypeScope) (accepts : ConcreteHead → Bool) :
    List Concrete → Option (WrittenType × Option TypeBinding)
  | [] => none
  | tree :: forest =>
      if accepts tree.head then some (written table scope tree)
      else firstWritten table scope accepts forest
termination_by structural forest => forest

def writtenArguments (table : TypeTable) (scope : TypeScope) : List Concrete → List WrittenType
  | [] => []
  | .node head children :: forest =>
      if head.isNamedOf (· == .typeArguments) then
        writtenNamed table scope children ++ writtenArguments table scope forest
      else writtenArguments table scope forest
termination_by structural forest => forest

def writtenNamed (table : TypeTable) (scope : TypeScope) : List Concrete → List WrittenType
  | [] => []
  | tree :: forest =>
      if tree.head.isNamed then
        (written table scope tree).1 :: writtenNamed table scope forest
      else writtenNamed table scope forest
termination_by structural forest => forest

end

def typeUse (table : TypeTable) (scope : TypeScope) (tree : Concrete) : TypeUse :=
  let (written, binding) := table.written scope tree
  ⟨table.source.spanOf tree.head, written, binding⟩

def typeOf (table : TypeTable) (scope : TypeScope) (head : ConcreteHead) (children : Forest) :
    TypeUse :=
  match children.child? .type with
  | some tree => table.typeUse scope tree
  | none => TypeUse.unknown (table.source.spanOf head)

def typeParameterNodes (children : Forest) : List Forest :=
  match children.child? .typeParameters with
  | some list => (list.children.namedOf (· == .typeParameter)).map (·.children)
  | none => []

def typeParameterNames (source : SourceText) (children : Forest) : List String :=
  (typeParameterNodes children).filterMap fun parameter =>
    (parameter.first? (·.isTypeName)).map fun name => source.textOf name.head

/-- The bound is looked up in the scope before the parameter. -/
def declareParameter (table : TypeTable) (scope : TypeScope) (parameter : Forest) : TypeScope :=
  match parameter.first? (·.isTypeName) with
  | none => scope
  | some name =>
      let bound := do
        let list ← parameter.first? (· == .typeBound)
        let type ← list.children.named.head?
        (table.written scope type).2
      { scope with
        typeVariables := ⟨table.source.textOf name.head, bound⟩ :: scope.typeVariables }

def declareParameters (table : TypeTable) (scope : TypeScope) (children : Forest) : TypeScope :=
  (typeParameterNodes children).foldl table.declareParameter scope

/-- On the way up the superclasses, every step takes one type out of those left to look at. -/
def fieldAmong (name : String) :
    Nat → List (String × DeclaredType) → String → Option VariableBinding
  | 0, _, _ => none
  | steps + 1, remaining, type =>
      match remaining.lookup type with
      | none => none
      | some declared =>
          match declared.fields.lookup name with
          | some binding => some (VariableBinding.field declared.binding name binding)
          | none =>
              match declared.superclass with
              | some superclass =>
                  fieldAmong name steps (remaining.filter (·.1 != type)) superclass
              | none => none

def field? (table : TypeTable) (type name : String) : Option VariableBinding :=
  fieldAmong name table.declared.length table.declared type

/-- A name without a binding hides those outside. -/
abbrev VariableLevel := List (String × Option VariableBinding)

def visibleAmong (table : TypeTable) :
    Nat → List (String × DeclaredType) → VariableLevel → String → VariableLevel
  | 0, _, visible, _ => visible
  | steps + 1, remaining, visible, type =>
      match remaining.lookup type with
      | none => visible
      | some declared =>
          let inherited := declared.fields.foldl (fun visible entry =>
            if (visible.lookup entry.1).isSome then visible
            else visible ++ [(entry.1, table.field? type entry.1)]) visible
          match declared.superclass with
          | some superclass =>
              visibleAmong table steps (remaining.filter (·.1 != type)) inherited superclass
          | none => inherited

def visibleFields (table : TypeTable) (type : String) : VariableLevel :=
  table.visibleAmong table.declared.length table.declared [] type

end TypeTable

end JavaFacts
