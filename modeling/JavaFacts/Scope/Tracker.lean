import Std.Data.HashMap
import JavaFacts.Facts.Entity

/-!
Where a traversal of a source file stands. Types and methods nest as stacks, the innermost first.
Statement blocks form trees that outlive the visit, one for each visit of a method: entering a
method hides the block around it, leaving the method brings that block back.
-/

namespace JavaFacts

abbrev BlockId := Nat

structure TypeFrame where
  entity : EntityId
  name : String
deriving Repr, DecidableEq, Inhabited

structure MethodFrame where
  entity : EntityId
  name : String
  declaringType : EntityId
  /-- The block that was open before. -/
  hidden : Option BlockId
deriving Repr, DecidableEq, Inhabited

structure Block where
  span : Span
  outer : Option BlockId
  depth : Nat
deriving Repr, DecidableEq, Inhabited

inductive ScopeError where
  | unbalanced (what : String) (expected actual : Nat)
  | blockMismatch (left : BlockId) (current : Option BlockId)
deriving Repr, DecidableEq, Inhabited

namespace ScopeError

def message : ScopeError → String
  | unbalanced what expected actual =>
      "unbalanced " ++ what ++ " scope: expected depth " ++ toString expected ++ ", found " ++
        toString actual
  | blockMismatch left current =>
      let shown := match current with
        | some block => "Some(" ++ toString block ++ ")"
        | none => "None"
      "left block " ++ toString left ++ " while block " ++ shown ++ " was current"

end ScopeError

structure Scopes where
  types : List TypeFrame
  methods : List MethodFrame
  blocks : Array Block
  block : Option BlockId
  anonymousCounts : Std.HashMap String Nat
  localBlocks : Std.HashMap EntityId BlockId
  localCounts : Std.HashMap (EntityId × String) Nat
  violation : Option ScopeError
deriving Inhabited

namespace Scopes

def empty : Scopes := ⟨[], [], #[], none, ∅, ∅, ∅, none⟩

instance : EmptyCollection Scopes := ⟨empty⟩

def type? (scopes : Scopes) : Option TypeFrame := scopes.types.head?

def method? (scopes : Scopes) : Option MethodFrame := scopes.methods.head?

/-- Otherwise the traversal stands in the body of a type outside of its methods. -/
def isInMethod (scopes : Scopes) : Bool :=
  match scopes.types, scopes.methods with
  | type :: _, method :: _ => method.declaringType == type.entity
  | _, _ => false

/-- The depth returned is the one to leave with. -/
def enterType (scopes : Scopes) (frame : TypeFrame) : Nat × Scopes :=
  (scopes.types.length + 1, { scopes with types := frame :: scopes.types })

def leaveType (scopes : Scopes) (depth : Nat) : Except ScopeError (TypeFrame × Scopes) :=
  match scopes.types with
  | frame :: types =>
      if depth == types.length + 1 then .ok (frame, { scopes with types })
      else .error (.unbalanced "type" depth (types.length + 1))
  | [] => .error (.unbalanced "type" depth 0)

/-- No block is open yet in a method. -/
def enterMethod (scopes : Scopes) (entity : EntityId) (name : String) (declaringType : EntityId) :
    Nat × Scopes :=
  let frame := { entity, name, declaringType, hidden := scopes.block }
  (scopes.methods.length + 1, { scopes with methods := frame :: scopes.methods, block := none })

def leaveMethod (scopes : Scopes) (depth : Nat) : Except ScopeError (MethodFrame × Scopes) :=
  match scopes.methods with
  | frame :: methods =>
      if depth == methods.length + 1 then
        .ok (frame, { scopes with methods, block := frame.hidden })
      else .error (.unbalanced "method" depth (methods.length + 1))
  | [] => .error (.unbalanced "method" depth 0)

def block? (scopes : Scopes) (block : BlockId) : Option Block := scopes.blocks[block]?

def enterBlock (scopes : Scopes) (span : Span) : BlockId × Scopes :=
  let depth := match scopes.block.bind scopes.block? with
    | some outer => outer.depth + 1
    | none => 0
  let entered := { span, outer := scopes.block, depth }
  let id := scopes.blocks.size
  (id, { scopes with blocks := scopes.blocks.push entered, block := some id })

def leaveBlock (scopes : Scopes) (block : BlockId) : Except ScopeError Scopes :=
  if scopes.block == some block then
    .ok { scopes with block := (scopes.block? block).bind (·.outer) }
  else .error (.blockMismatch block scopes.block)

def outerBlocks (scopes : Scopes) : Nat → BlockId → List BlockId
  | 0, _ => []
  | steps + 1, block =>
      match (scopes.block? block).bind (·.outer) with
      | some outer => outer :: outerBlocks scopes steps outer
      | none => []

/-- A block is entered after those around it, so there are no more of them than its own number says.
-/
def ancestry (scopes : Scopes) (block : BlockId) : List BlockId :=
  block :: scopes.outerBlocks block block

def encloses (scopes : Scopes) (outer inner : BlockId) : Bool :=
  (scopes.ancestry inner).contains outer

def seedAnonymous (scopes : Scopes) (typeName : String) : Scopes :=
  { scopes with anonymousCounts := scopes.anonymousCounts.insertIfNew typeName 0 }

def nextAnonymous (scopes : Scopes) (typeName : String) : Nat × Scopes :=
  let ordinal := scopes.anonymousCounts.getD typeName 0
  (ordinal, { scopes with
    anonymousCounts := scopes.anonymousCounts.insert typeName (ordinal + 1) })

def placeLocal (scopes : Scopes) (entity : EntityId) (block : BlockId) : Scopes :=
  { scopes with localBlocks := scopes.localBlocks.insert entity block }

def blockOfLocal? (scopes : Scopes) (entity : EntityId) : Option BlockId :=
  scopes.localBlocks[entity]?

/-- The first local variable of a name bears it alone, those after it also their number. -/
def nextLocalName (scopes : Scopes) (method : EntityId) (methodName name : String) :
    String × Scopes :=
  let ordinal := scopes.localCounts.getD (method, name) 0
  let plain := methodName ++ "." ++ name
  (if ordinal == 0 then plain else plain ++ "#" ++ toString ordinal,
    { scopes with localCounts := scopes.localCounts.insert (method, name) (ordinal + 1) })

def recordViolation (scopes : Scopes) (error : ScopeError) : Scopes :=
  { scopes with violation := scopes.violation <|> some error }

def takeViolation (scopes : Scopes) : Option ScopeError × Scopes :=
  (scopes.violation, { scopes with violation := none })

def isBalanced (scopes : Scopes) : Bool :=
  scopes.types.isEmpty && scopes.methods.isEmpty && scopes.block.isNone

end Scopes

end JavaFacts
