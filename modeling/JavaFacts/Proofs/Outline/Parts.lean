import JavaFacts.Tree.Node

/-!
The parts of a tree from which a walk takes the names of what it records. A claim about all names of
a unit is a claim about each of its parts.
-/

namespace JavaFacts

/-- The type directly around a place. -/
inductive Around where
  | outside
  | named (header : TypeHeader)
  | anonymous

inductive Part where
  | type (around : Around) (header : TypeHeader)
  /-- The body of an anonymous class. -/
  | anonymousClass (binding : Option TypeBinding)
  | method (header : MethodHeader)
  | field (name : String)
  | localVariable (name : String)
  /-- What is known about the target of a call. -/
  | call (binding : Option MethodBinding)

namespace Node

mutual

def parts (around : Around) : Node → List Part
  | type _ header body => .type around header :: partsAll (.named header) body
  | method _ header body => .method header :: partsOption around body
  | fields _ _ declared => partsVariables around .field declared
  | initializer _ _ body => parts around body
  | block _ statements => partsAll around statements
  | locals _ _ declared => partsVariables around .localVariable declared
  | call _ header receiver arguments =>
      .call header.binding :: (partsOption around receiver ++ partsAll around arguments)
  | superCall _ header _ arguments => .call header.binding :: partsAll around arguments
  | ownConstructor _ binding arguments => .call binding :: partsAll around arguments
  | superConstructor _ binding receiver arguments =>
      .call binding :: (partsOption around receiver ++ partsAll around arguments)
  | creation _ _ binding receiver arguments none =>
      .call binding :: (partsOption around receiver ++ partsAll around arguments)
  | creation _ _ _ receiver arguments (some (.mk _ binding body)) =>
      .anonymousClass binding :: (partsOption around receiver ++ partsAll around arguments ++
        partsAll .anonymous body)
  | field _ _ _ receiver => parts around receiver
  | qualified _ _ _ qualifier => parts around qualifier
  | cast _ _ operand => parts around operand
  | instanceCheck _ _ _ operand => parts around operand
  | expression _ _ declares children =>
      (declares.map fun declared => .localVariable declared.1).toList ++ partsAll around children
  | superField .. | simple .. | this .. => []
termination_by structural node => node

def partsAll (around : Around) : List Node → List Part
  | [] => []
  | node :: nodes => parts around node ++ partsAll around nodes
termination_by structural nodes => nodes

def partsOption (around : Around) : Option Node → List Part
  | none => []
  | some node => parts around node
termination_by structural node => node

def partsVariables (around : Around) (part : String → Part) : List DeclaredVariable → List Part
  | [] => []
  | .mk declarator value :: declared =>
      part declarator.name :: (partsOption around value ++ partsVariables around part declared)
termination_by structural declared => declared

end

end Node

def CompilationUnit.parts (unit : CompilationUnit) : List Part :=
  Node.partsAll .outside unit.types

end JavaFacts
