import JavaFacts.Scope.Tracker

/-!
The blocks of a walk form trees: whatever is entered and left, in any order, the block around a block
was entered before it. Going outwards from a block therefore comes to an end within as many steps as
its number says.
-/

namespace JavaFacts.Scopes

/-- The block around a block. -/
def outer? (scopes : Scopes) (id : BlockId) : Option BlockId :=
  (scopes.block? id).bind (·.outer)

/-- Blocks stay as they were entered. -/
theorem block?_enterBlock_of_block? {scopes : Scopes} {id : BlockId} {block : Block} (span : Span)
    (found : scopes.block? id = some block) : (scopes.enterBlock span).2.block? id = some block := by
  have known : id ≠ scopes.blocks.size := Nat.ne_of_lt (Array.getElem?_eq_some_iff.mp found).1
  simp only [block?, enterBlock, Array.getElem?_push, if_neg known]
  exact found

section Left

variable {scopes after : Scopes} {depth : Nat} {block : BlockId}

theorem leaveType_eq_ok_iff {frame : TypeFrame} :
    scopes.leaveType depth = .ok (frame, after) ↔
      ∃ types, scopes.types = frame :: types ∧ depth = types.length + 1 ∧
        after = { scopes with types } := by
  cases stack : scopes.types with
  | nil => simp [leaveType, stack]
  | cons innermost types =>
      simp only [leaveType, stack, beq_iff_eq, List.cons.injEq]
      constructor
      · intro left
        split at left
        · rename_i same
          cases left
          exact ⟨types, ⟨rfl, rfl⟩, same, rfl⟩
        · cases left
      · rintro ⟨_, ⟨rfl, rfl⟩, same, rfl⟩
        rw [if_pos same]

theorem leaveMethod_eq_ok_iff {frame : MethodFrame} :
    scopes.leaveMethod depth = .ok (frame, after) ↔
      ∃ methods, scopes.methods = frame :: methods ∧ depth = methods.length + 1 ∧
        after = { scopes with methods, block := frame.hidden } := by
  cases stack : scopes.methods with
  | nil => simp [leaveMethod, stack]
  | cons innermost methods =>
      simp only [leaveMethod, stack, beq_iff_eq, List.cons.injEq]
      constructor
      · intro left
        split at left
        · rename_i same
          cases left
          exact ⟨methods, ⟨rfl, rfl⟩, same, rfl⟩
        · cases left
      · rintro ⟨_, ⟨rfl, rfl⟩, same, rfl⟩
        rw [if_pos same]

theorem leaveBlock_eq_ok_iff :
    scopes.leaveBlock block = .ok after ↔
      scopes.block = some block ∧ after = { scopes with block := scopes.outer? block } := by
  simp only [leaveBlock, beq_iff_eq, outer?]
  split
  · rename_i current
    simp [current, eq_comm]
  · rename_i other
    simp [other]

end Left

/-- The states that entering, leaving and counting lead to. A refused request changes nothing. -/
inductive Reachable : Scopes → Prop where
  | empty : Reachable ∅
  | enterType (frame : TypeFrame) : Reachable scopes → Reachable (scopes.enterType frame).2
  | leaveType : Reachable scopes → scopes.leaveType depth = .ok (frame, after) → Reachable after
  | enterMethod (entity : EntityId) (name : String) (declaringType : EntityId) :
      Reachable scopes → Reachable (scopes.enterMethod entity name declaringType).2
  | leaveMethod : Reachable scopes → scopes.leaveMethod depth = .ok (frame, after) →
      Reachable after
  | enterBlock (span : Span) : Reachable scopes → Reachable (scopes.enterBlock span).2
  | leaveBlock : Reachable scopes → scopes.leaveBlock left = .ok after → Reachable after
  | seedAnonymous (typeName : String) : Reachable scopes → Reachable (scopes.seedAnonymous typeName)
  | nextAnonymous (typeName : String) :
      Reachable scopes → Reachable (scopes.nextAnonymous typeName).2
  | placeLocal (entity : EntityId) (block : BlockId) :
      Reachable scopes → Reachable (scopes.placeLocal entity block)
  | nextLocalName (method : EntityId) (methodName name : String) :
      Reachable scopes → Reachable (scopes.nextLocalName method methodName name).2
  | recordViolation (error : ScopeError) : Reachable scopes → Reachable (scopes.recordViolation error)
  | takeViolation : Reachable scopes → Reachable scopes.takeViolation.2

/-- Every block that is named somewhere exists, and lies inside of older blocks only. -/
structure Nested (scopes : Scopes) : Prop where
  outer : ∀ id block, scopes.block? id = some block → ∀ around, block.outer = some around → around < id
  current : ∀ id, scopes.block = some id → id < scopes.blocks.size
  hidden : ∀ frame ∈ scopes.methods, ∀ id, frame.hidden = some id → id < scopes.blocks.size

variable {scopes after : Scopes}

namespace Nested

/-- Nothing but the blocks, the block that is open and those hidden by methods matter. -/
theorem of_same (nested : Nested scopes) (blocks : after.blocks = scopes.blocks)
    (block : after.block = scopes.block) (methods : after.methods = scopes.methods) :
    Nested after := by
  constructor
  · intro id block found
    rw [block?, blocks] at found
    exact nested.outer id block found
  · rw [block, blocks]
    exact nested.current
  · rw [methods, blocks]
    exact nested.hidden

theorem enterMethod (nested : Nested scopes) (entity : EntityId) (name : String)
    (declaringType : EntityId) : Nested (scopes.enterMethod entity name declaringType).2 := by
  refine ⟨nested.outer, fun _ => (nomatch ·), fun frame member id hides => ?_⟩
  rcases List.mem_cons.mp member with rfl | member
  · exact nested.current id hides
  · exact nested.hidden frame member id hides

theorem leaveMethod (nested : Nested scopes) (left : scopes.leaveMethod depth = .ok (frame, after)) :
    Nested after := by
  obtain ⟨methods, stack, -, rfl⟩ := leaveMethod_eq_ok_iff.mp left
  refine ⟨nested.outer, fun id current => ?_, fun other member => ?_⟩
  · exact nested.hidden frame (by rw [stack]; exact List.mem_cons_self) id current
  · exact nested.hidden other (by rw [stack]; exact List.mem_cons_of_mem _ member)

theorem leaveType (nested : Nested scopes) (left : scopes.leaveType depth = .ok (frame, after)) :
    Nested after := by
  obtain ⟨_, -, -, rfl⟩ := leaveType_eq_ok_iff.mp left
  exact nested.of_same rfl rfl rfl

theorem enterBlock (nested : Nested scopes) (span : Span) : Nested (scopes.enterBlock span).2 := by
  have grown : (scopes.enterBlock span).2.blocks.size = scopes.blocks.size + 1 := by
    simp [Scopes.enterBlock]
  refine ⟨fun id block found around outer => ?_, fun id current => ?_, fun frame member id hides => ?_⟩
  · simp only [block?, Scopes.enterBlock, Array.getElem?_push] at found
    split at found
    · rename_i new
      cases found
      rw [new]
      exact nested.current around outer
    · exact nested.outer id block found around outer
  · cases current
    rw [grown]
    exact Nat.lt_succ_self _
  · rw [grown]
    exact Nat.lt_succ_of_lt (nested.hidden frame member id hides)

theorem leaveBlock (nested : Nested scopes) (closed : scopes.leaveBlock left = .ok after) :
    Nested after := by
  obtain ⟨-, rfl⟩ := leaveBlock_eq_ok_iff.mp closed
  refine ⟨nested.outer, fun id current => ?_, nested.hidden⟩
  obtain ⟨block, found, outer⟩ := Option.bind_eq_some_iff.mp current
  have known : left < scopes.blocks.size := (Array.getElem?_eq_some_iff.mp found).1
  exact Nat.lt_trans (nested.outer left block found id outer) known

end Nested

theorem Reachable.nested (reachable : Reachable scopes) : Nested scopes := by
  induction reachable with
  | empty =>
      exact ⟨fun _ _ => (nomatch ·), fun _ => (nomatch ·), fun _ => (nomatch ·)⟩
  | enterType _ _ ih | seedAnonymous _ _ ih | nextAnonymous _ _ ih | placeLocal _ _ _ ih
  | nextLocalName _ _ _ _ ih | recordViolation _ _ ih | takeViolation _ ih =>
      exact ih.of_same rfl rfl rfl
  | leaveType _ left ih => exact ih.leaveType left
  | enterMethod entity name declaringType _ ih => exact ih.enterMethod entity name declaringType
  | leaveMethod _ left ih => exact ih.leaveMethod left
  | enterBlock span _ ih => exact ih.enterBlock span
  | leaveBlock _ left ih => exact ih.leaveBlock left

/-- The blocks met on the way outwards from a block, itself included; a number that stands for no
block leads nowhere. -/
inductive OutwardBlocks (scopes : Scopes) : Option BlockId → List BlockId → Prop where
  | outermost : OutwardBlocks scopes none []
  | unknown {id : BlockId} : scopes.block? id = none → OutwardBlocks scopes (some id) []
  | inside {id : BlockId} {block : Block} {around : List BlockId} :
      scopes.block? id = some block → OutwardBlocks scopes block.outer around →
      OutwardBlocks scopes (some id) (id :: around)

/-- The bound on the number of steps is never what ends the search. -/
theorem Nested.outwardBlocks_outerBlocks (nested : Nested scopes) {steps id : Nat} {block : Block}
    (enough : id ≤ steps) (found : scopes.block? id = some block) :
    OutwardBlocks scopes block.outer (scopes.outerBlocks steps id) := by
  induction steps generalizing id block with
  | zero =>
      cases outer : block.outer with
      | none => exact .outermost
      | some around =>
          have older := nested.outer id block found around outer
          exact absurd (Nat.lt_of_lt_of_le older enough) (Nat.not_lt_zero around)
  | succ steps ih =>
      cases outer : block.outer with
      | none =>
          simp only [outerBlocks, found, Option.bind_some, outer]
          exact .outermost
      | some around =>
          simp only [outerBlocks, found, Option.bind_some, outer]
          have older := nested.outer id block found around outer
          have inner : id < scopes.blocks.size := (Array.getElem?_eq_some_iff.mp found).1
          have known := Array.getElem?_eq_getElem (Nat.lt_trans older inner)
          exact .inside known (ih (Nat.le_of_lt_succ (Nat.lt_of_lt_of_le older enough)) known)

theorem Nested.outwardBlocks_ancestry (nested : Nested scopes) {id : BlockId} {block : Block}
    (found : scopes.block? id = some block) :
    OutwardBlocks scopes (some id) (scopes.ancestry id) :=
  .inside found (nested.outwardBlocks_outerBlocks (Nat.le_refl id) found)

end JavaFacts.Scopes
