import JavaFacts.Concrete.Kind
import JavaFacts.Source.Text
import JavaFacts.Text.Blank
import JavaFacts.Text.Cut

/-!
The concrete syntax tree of a source file, as a parser gives it: every token is in it, and nodes are
placed by bytes. This module reads single nodes; what several nodes mean together is found
elsewhere.
-/

namespace JavaFacts

structure ConcreteHead where
  role : Option Role
  kind : ConcreteKind
  isNamed : Bool
  isError : Bool
  isMissing : Bool
  /-- Whether the node or one inside it is an error or missing. -/
  hasError : Bool
  start : Nat
  stop : Nat
deriving Repr, DecidableEq, Inhabited

inductive Concrete where
  | node (head : ConcreteHead) (children : List Concrete)
deriving Repr, Inhabited

abbrev Forest := List Concrete

namespace Concrete

def head : Concrete → ConcreteHead
  | .node head _ => head

def children : Concrete → Forest
  | .node _ children => children

def kind (tree : Concrete) : ConcreteKind := tree.head.kind

def isNamed (tree : Concrete) : Bool := tree.head.isNamed

end Concrete

namespace ConcreteHead

def hasRole (role : Role) (head : ConcreteHead) : Bool := head.role == some role

def isNamedOf (accepts : ConcreteKind → Bool) (head : ConcreteHead) : Bool :=
  head.isNamed && accepts head.kind

def isContent (head : ConcreteHead) : Bool := head.isNamedOf (· != .comment)

end ConcreteHead

namespace Forest

def named (forest : Forest) : Forest := forest.filter (·.isNamed)

def namedOf (accepts : ConcreteKind → Bool) (forest : Forest) : Forest :=
  forest.filter (·.head.isNamedOf accepts)

def child? (role : Role) (forest : Forest) : Option Concrete :=
  forest.find? (·.head.hasRole role)

def first? (accepts : ConcreteKind → Bool) (forest : Forest) : Option Concrete :=
  forest.find? (·.head.isNamedOf accepts)

def hasQualifiedSuper (forest : Forest) : Bool :=
  (forest.eraseP (·.head.hasRole .object)).any (·.kind == .super)

/-- Those behind the constants of an enum form a group of their own, which is opened here. -/
def members (forest : Forest) : Forest :=
  forest.named.flatMap fun member =>
    if member.kind == .enumBodyDeclarations then member.children.named else [member]

def brackets (forest : Forest) : Nat :=
  forest.countP (·.kind == .bracket)

def extraDimensions (forest : Forest) : Nat :=
  ((forest.child? .dimensions).map fun node => node.children.brackets).getD 0

/-- Words that are no modifiers are skipped. -/
def modifiers (forest : Forest) : Modifiers :=
  match forest.find? (·.kind == .modifiers) with
  | some list =>
      list.children.foldl (fun all word =>
        match word.kind with
        | .modifier flag => all ∪ flag
        | _ => all) ∅
  | none => ∅

end Forest

namespace SourceText

def textOf (source : SourceText) (head : ConcreteHead) : String :=
  (source.bytes? head.start head.stop).getD ""

def childText (source : SourceText) (role : Role) (forest : Forest) : String :=
  ((forest.child? role).map fun node => source.textOf node.head).getD ""

def spanOf (source : SourceText) (head : ConcreteHead) : Span :=
  source.span head.start head.stop

mutual

/-- Without blanks, annotations and type arguments. -/
def dottedName (source : SourceText) : Concrete → String
  | .node head children =>
      match head.kind with
      | .identifier | .typeIdentifier => source.textOf head
      | .scopedIdentifier | .scopedTypeIdentifier | .fieldAccess =>
          Text.joined "." (dottedSegments source children)
      | .genericType => dottedContent source children
      | _ => Text.withoutBlanks (source.textOf head)
termination_by structural tree => tree

def dottedSegments (source : SourceText) : List Concrete → List String
  | [] => []
  | tree :: forest =>
      if tree.head.isNamedOf (·.isNameSegment) then
        dottedName source tree :: dottedSegments source forest
      else dottedSegments source forest
termination_by structural forest => forest

def dottedContent (source : SourceText) : List Concrete → String
  | [] => ""
  | tree :: forest =>
      if tree.head.isContent then dottedName source tree else dottedContent source forest
termination_by structural forest => forest

end

/-- The byte is `remaining` bytes behind the place `line`, `column`. Columns count bytes. -/
def placeFrom (line column remaining : Nat) : List Char → Nat × Nat
  | [] => (line, column)
  | c :: rest =>
      if remaining == 0 then (line, column)
      else if c == '\n' then placeFrom (line + 1) 1 (remaining - 1) rest
      else placeFrom line (column + min c.utf8Size remaining) (remaining - c.utf8Size) rest

/-- Both are counted from one. -/
def place (source : SourceText) (byte : Nat) : Nat × Nat :=
  placeFrom 1 1 byte source.text.toList

end SourceText

namespace Concrete

mutual

/-- Sought only where the tree says that there is one. -/
def firstError? : Concrete → Option ConcreteHead
  | .node head children =>
      if head.isError || head.isMissing then some head else firstErrorIn? children
termination_by structural tree => tree

def firstErrorIn? : List Concrete → Option ConcreteHead
  | [] => none
  | tree :: forest =>
      if tree.head.hasError then
        match firstError? tree with
        | some error => some error
        | none => firstErrorIn? forest
      else firstErrorIn? forest
termination_by structural forest => forest

/-- `a`, `a.b`, `a.b.c` and so on. -/
def isNameChain : Concrete → Bool
  | .node head children =>
      match head.kind with
      | .identifier => true
      | .fieldAccess =>
          (Forest.child? .field children).any (·.kind == .identifier) && objectIsChain children &&
            !children.any (·.kind == .super)
      | _ => false
termination_by structural tree => tree

def objectIsChain : List Concrete → Bool
  | [] => false
  | tree :: forest => if tree.head.hasRole .object then isNameChain tree else objectIsChain forest
termination_by structural forest => forest

end

end Concrete

end JavaFacts
