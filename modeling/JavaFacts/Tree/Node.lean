import JavaFacts.Types.Written

/-!
The syntax tree of a Java source file, as far as facts are read from it. Statements and expressions
of no interest of their own are plain `expression` nodes around their parts. A node carries what a
compiler knows about it; everything of that kind may be missing.
-/

namespace JavaFacts

inductive DeclarationKind where
  | ofClass
  | interface
  | enumeration
deriving Repr, DecidableEq, Inhabited

structure TypeHeader where
  kind : DeclarationKind
  name : String
  modifiers : Modifiers
  binding : Option TypeBinding
  typeParameters : List String
  superclass : Option TypeUse
  interfaces : List TypeUse
deriving Repr, Inhabited

structure FormalParameter where
  span : Span
  name : String
  type : TypeUse
  modifiers : Modifiers
  binding : Option VariableBinding
deriving Repr, Inhabited

structure MethodHeader where
  name : String
  isConstructor : Bool
  modifiers : Modifiers
  binding : Option MethodBinding
  parameters : List FormalParameter
  /-- A constructor has none. -/
  returnType : Option TypeUse
deriving Repr, Inhabited

/-- What the variables of one declaration share. -/
structure VariablesHeader where
  modifiers : Modifiers
  type : TypeUse
deriving Repr, Inhabited

structure Declarator where
  span : Span
  name : String
  /-- Array dimensions that are written behind the name. -/
  extraDimensions : Nat
  binding : Option VariableBinding
deriving Repr, Inhabited

structure CallHeader where
  name : String
  binding : Option MethodBinding
  type : Option TypeBinding
deriving Repr, Inhabited

mutual

inductive Node where
  | type (span : Span) (header : TypeHeader) (body : List Node)
  | method (span : Span) (header : MethodHeader) (body : Option Node)
  | fields (span : Span) (header : VariablesHeader) (declared : List DeclaredVariable)
  | initializer (span : Span) (isStatic : Bool) (body : Node)
  | block (span : Span) (statements : List Node)
  | locals (span : Span) (header : VariablesHeader) (declared : List DeclaredVariable)
  /-- `receiver.name(..)` or `name(..)` -/
  | call (span : Span) (header : CallHeader) (receiver : Option Node) (arguments : List Node)
  /-- `super.name(..)` or `Outer.super.name(..)` -/
  | superCall (span : Span) (header : CallHeader) (qualifier : Option String)
      (arguments : List Node)
  /-- `this(..)` -/
  | ownConstructor (span : Span) (binding : Option MethodBinding) (arguments : List Node)
  /-- `super(..)` or `outer.super(..)` -/
  | superConstructor (span : Span) (binding : Option MethodBinding) (receiver : Option Node)
      (arguments : List Node)
  /-- `new Type(..)`, with or without the body of an anonymous class. -/
  | creation (span : Span) (type : TypeUse) (binding : Option MethodBinding)
      (receiver : Option Node) (arguments : List Node) (anonymous : Option AnonymousClass)
  /-- `receiver.name` -/
  | field (span : Span) (name : String) (binding : Option VariableBinding) (receiver : Node)
  /-- `super.name` or `Outer.super.name` -/
  | superField (span : Span) (name : String) (binding : Option VariableBinding)
      (qualifier : Option String)
  /-- `qualifier.name` where the qualifier is a name. -/
  | qualified (span : Span) (name : String) (binding : Option NameBinding) (qualifier : Node)
  | simple (span : Span) (name : String) (binding : Option NameBinding)
  /-- `this` or `Outer.this` -/
  | this (span : Span) (qualifier : Option String) (type : Option TypeBinding)
  | cast (span : Span) (type : TypeUse) (operand : Node)
  | instanceCheck (span : Span) (tested : TypeUse) (type : Option TypeBinding) (operand : Node)
  /-- Any other statement or expression, which may declare a variable. -/
  | expression (span : Span) (type : Option TypeBinding) (declares : Option (String × TypeUse))
      (children : List Node)

inductive DeclaredVariable where
  | mk (declarator : Declarator) (initializer : Option Node)

inductive AnonymousClass where
  | mk (span : Span) (binding : Option TypeBinding) (body : List Node)

end

instance : Inhabited Node := ⟨.block default []⟩

namespace DeclaredVariable

def declarator : DeclaredVariable → Declarator
  | .mk declarator _ => declarator

def initializer? : DeclaredVariable → Option Node
  | .mk _ initializer => initializer

end DeclaredVariable

namespace AnonymousClass

def span : AnonymousClass → Span
  | .mk span _ _ => span

def binding : AnonymousClass → Option TypeBinding
  | .mk _ binding _ => binding

def body : AnonymousClass → List Node
  | .mk _ _ body => body

end AnonymousClass

namespace Node

def span : Node → Span
  | type span .. | method span .. | fields span .. | initializer span .. | block span ..
  | locals span .. | call span .. | superCall span .. | ownConstructor span ..
  | superConstructor span .. | creation span .. | field span .. | superField span ..
  | qualified span .. | simple span .. | this span .. | cast span .. | instanceCheck span ..
  | expression span .. => span

def kindName : Node → String
  | type .. => "TypeDeclaration"
  | method .. => "MethodDeclaration"
  | fields .. => "FieldDeclaration"
  | initializer .. => "Initializer"
  | block .. => "Block"
  | locals .. => "LocalVariableDeclaration"
  | call .. => "MethodInvocation"
  | superCall .. => "SuperMethodInvocation"
  | ownConstructor .. => "ConstructorInvocation"
  | superConstructor .. => "SuperConstructorInvocation"
  | creation .. => "ClassInstanceCreation"
  | field .. => "FieldAccess"
  | superField .. => "SuperFieldAccess"
  | qualified .. => "QualifiedName"
  | simple .. => "SimpleName"
  | this .. => "This"
  | cast .. => "Cast"
  | instanceCheck .. => "InstanceOf"
  | expression .. => "Expression"

/-- Type of the expression that a node forms. An anonymous class that has no binding counts as the
type it extends. -/
def type? : Node → Option TypeBinding
  | call _ header .. | superCall _ header .. => header.type
  | creation _ created _ _ _ anonymous => anonymous.bind (·.binding) <|> created.binding
  | field _ _ binding _ | superField _ _ binding _ => binding.bind (·.type)
  | qualified _ _ binding _ | simple _ _ binding => binding.bind (·.type?)
  | this _ _ known => known
  | cast _ target _ => target.binding
  | instanceCheck _ _ known _ => known
  | expression _ known .. => known
  | _ => none

/-- The dotted name that a node consists of. A qualifier that is no name is left out. -/
def name? : Node → Option String
  | simple _ name _ => some name
  | qualified _ name _ qualifier =>
      match name? qualifier with
      | some start => some (start ++ "." ++ name)
      | none => some name
  | _ => none
termination_by structural node => node

/-- The nodes directly inside a node in the order of the source, nested bodies included. -/
def children : Node → List Node
  | type _ _ body => body
  | method _ _ body => body.toList
  | fields _ _ declared | locals _ _ declared => declared.filterMap (·.initializer?)
  | initializer _ _ body => [body]
  | block _ statements => statements
  | call _ _ receiver arguments => receiver.toList ++ arguments
  | superCall _ _ _ arguments => arguments
  | ownConstructor _ _ arguments => arguments
  | superConstructor _ _ receiver arguments => receiver.toList ++ arguments
  | creation _ _ _ receiver arguments anonymous =>
      receiver.toList ++ arguments ++ (anonymous.map (·.body)).getD []
  | field _ _ _ receiver => [receiver]
  | qualified _ _ _ qualifier => [qualifier]
  | cast _ _ operand => [operand]
  | instanceCheck _ _ _ operand => [operand]
  | expression _ _ _ children => children
  | superField .. | simple .. | this .. => []

mutual

/-- Number of nodes in the tree below and with a node. -/
def size : Node → Nat
  | type _ _ body => 1 + sizeAll body
  | method _ _ body => 1 + sizeOption body
  | fields _ _ declared | locals _ _ declared => 1 + sizeVariables declared
  | initializer _ _ body => 1 + size body
  | block _ statements => 1 + sizeAll statements
  | call _ _ receiver arguments => 1 + sizeOption receiver + sizeAll arguments
  | superCall _ _ _ arguments => 1 + sizeAll arguments
  | ownConstructor _ _ arguments => 1 + sizeAll arguments
  | superConstructor _ _ receiver arguments => 1 + sizeOption receiver + sizeAll arguments
  | creation _ _ _ receiver arguments anonymous =>
      1 + sizeOption receiver + sizeAll arguments +
        match anonymous with
        | some (.mk _ _ body) => sizeAll body
        | none => 0
  | field _ _ _ receiver => 1 + size receiver
  | qualified _ _ _ qualifier => 1 + size qualifier
  | cast _ _ operand => 1 + size operand
  | instanceCheck _ _ _ operand => 1 + size operand
  | expression _ _ _ children => 1 + sizeAll children
  | superField .. | simple .. | this .. => 1
termination_by structural node => node

def sizeAll : List Node → Nat
  | [] => 0
  | node :: nodes => size node + sizeAll nodes
termination_by structural nodes => nodes

def sizeOption : Option Node → Nat
  | none => 0
  | some node => size node
termination_by structural node => node

def sizeVariables : List DeclaredVariable → Nat
  | [] => 0
  | .mk _ value :: declared => sizeOption value + sizeVariables declared
termination_by structural declared => declared

end

end Node

structure CompilationUnit where
  path : String
  source : String
  package : Option String
  /-- Imported names; a whole package ends in `.*`. -/
  imports : List String
  types : List Node
deriving Inhabited

/-- Name of the package, empty for a unit that declares none. -/
def CompilationUnit.packageName (unit : CompilationUnit) : String :=
  unit.package.getD ""

end JavaFacts
