import JavaFacts.Extraction.Expressions
import JavaFacts.Extraction.Members

/-!
One rule for each kind of node: what it records, and in which order the nodes inside it are visited.
-/

namespace JavaFacts.Walk

mutual

def handle : Node → Walk Unit
  | .type span header body => declareType span header (visitAll body)
  | .method span header body => declareMethod span header (visitOption body)
  | .fields _ header declared => do
      let type ← currentType
      let isStatic ← areStatic type header.modifiers
      visitFields type header isStatic declared
  | .initializer _ isStatic body => do
      insideInitializer (← currentType) isStatic (visiting body (handle body))
  | .block span statements => insideBlock span (visitAll statements)
  | .locals _ header declared => visitLocals header declared
  | .call span header receiver arguments => do
      refer span .method header.name header.binding arguments (receiverOf receiver)
      visitOption receiver
      visitAll arguments
  | .superCall span header _ arguments => do
      refer span .superMethod header.name header.binding arguments (pure .superclass)
      visitAll arguments
  | .ownConstructor span binding arguments => do
      refer span .ownConstructor Naming.constructorMarker binding arguments ownReceiver
      visitAll arguments
  | .superConstructor span binding receiver arguments => do
      refer span .superConstructor Naming.constructorMarker binding arguments (pure .superclass)
      visitOption receiver
      visitAll arguments
  | .creation span created binding receiver arguments none => do
      refer span .creation Naming.constructorMarker binding arguments
        (pure (createdReceiver created))
      visitOption receiver
      visitAll arguments
  | .creation span created _ receiver arguments (some (.mk bodySpan bodyBinding body)) => do
      let type ← createAnonymous span created arguments bodySpan bodyBinding
      visitOption receiver
      visitAll arguments
      typeBody type.entity type.name false (visitAll body)
  | .field span name binding receiver => do
      accessField span name binding receiver
      visiting receiver (handle receiver)
  | .superField span name binding _ => accessSuperField span name binding
  | .qualified span name binding qualifier => do
      accessIn span name (boundFieldType? binding)
      visiting qualifier (handle qualifier)
  | .simple span name binding => accessIn span name (boundFieldType? binding)
  | .this .. => pure ()
  | .cast span target operand => do
      recordCheck .castTo span target
      visiting operand (handle operand)
  | .instanceCheck span tested _ operand => do
      recordCheck .instanceCheck span tested
      visiting operand (handle operand)
  | .expression span _ declares children => do
      match declares with
      | some (name, use) => declareInStatement span name use
      | none => pure ()
      visitAll children
termination_by structural node => node

def visitAll : List Node → Walk Unit
  | [] => pure ()
  | node :: nodes => do
      visiting node (handle node)
      visitAll nodes
termination_by structural nodes => nodes

def visitOption : Option Node → Walk Unit
  | none => pure ()
  | some node => visiting node (handle node)
termination_by structural node => node

/-- The fields of one declaration; the initializer of each belongs to the host of its type. -/
def visitFields (type : TypeFrame) (header : VariablesHeader) (isStatic : Bool) :
    List DeclaredVariable → Walk Unit
  | [] => pure ()
  | .mk declarator initializer :: declared => do
      declareField type header declarator
      match initializer with
      | none => pure ()
      | some node => insideInitializer type isStatic (visiting node (handle node))
      visitFields type header isStatic declared
termination_by structural declared => declared

/-- The local variables of one declaration; each initializer comes behind its variable. -/
def visitLocals (header : VariablesHeader) : List DeclaredVariable → Walk Unit
  | [] => pure ()
  | .mk declarator initializer :: declared => do
      declareVariable header declarator
      visitOption initializer
      visitLocals header declared
termination_by structural declared => declared

end

def visit (node : Node) : Walk Unit :=
  visiting node (handle node)

end JavaFacts.Walk
