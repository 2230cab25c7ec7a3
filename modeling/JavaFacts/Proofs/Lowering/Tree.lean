import JavaFacts.Lowering.Tree
import JavaFacts.Proofs.Lowering.Constructs

/-!
What the walk over a concrete syntax tree leads to: one case for every function of the walk, by
recursion on the tree. The trees may be any; how their names are spelled matters only for how the
names in the result are.
-/

namespace JavaFacts

/-- Trees whose declarations spell names in a certain way, and so do all trees inside them. -/
structure Spelling (source : SourceText) (spelled : String → Prop) (good : Concrete → Prop) :
    Prop where
  child : ∀ {head children}, good (.node head children) → ∀ child ∈ children, good child
  name : ∀ {head children}, good (.node head children) →
    head.kind.isTypeDeclaration ∨ head.kind = .methodDeclaration →
    spelled (source.childText .name children)
  typeParameters : ∀ {head children}, good (.node head children) →
    ∀ parameter ∈ TypeTable.typeParameterNames source children, spelled parameter

/-- Nothing is asked of the names. -/
theorem Spelling.any (source : SourceText) : Spelling source (fun _ => True) fun _ => True :=
  ⟨fun _ _ _ => trivial, fun _ _ => trivial, fun _ _ _ => trivial⟩

namespace Lowering

variable {table : TypeTable} {spelled : String → Prop} {good : Concrete → Prop}

mutual

theorem lower_gives (spelling : Spelling table.source spelled good) (tree : Concrete)
    (fine : good tree) {self : Option TypeBinding} :
    Gives self (lower table tree) (CodeOption table spelled self) := by
  match tree with
  | .node head children =>
      have inside := spelling.child fine
      have declaration (kind : head.kind.isTypeDeclaration) :
          Gives self (some <$> typeDeclaration table .localType head children
            (membersOfBody table · children)) (CodeOption table spelled self) :=
        .map (typeDeclaration_gives .localType (spelling.name fine (.inl kind))
          (spelling.typeParameters fine) fun _ created =>
            membersOfBody_gives spelling children inside created) fun _ => .some
      have nodes : Gives self _ (Code table spelled self) :=
        lowerNamed_gives spelling children inside
      have first (accepts : ConcreteHead → Bool) : Gives self _ (CodeOption table spelled self) :=
        lowerFirst_gives spelling children inside accepts
      have operand (accepts : ConcreteHead → Bool) : Gives self _ (CodeOption table spelled self) :=
        operandFirst_gives spelling children inside accepts
      have arguments : Gives self _ (Code table spelled self) :=
        argumentsOf_gives spelling children inside
      have other : Gives self (generic table head children (lowerNamed table children))
          (CodeOption table spelled self) := generic_gives nodes
      rw [lower]
      split
      · exact .pure (.some (.code rfl rfl Code.nil))
      · split
        case h_1 | h_2 => exact .map (inBlock_gives nodes) fun _ => .some
        case h_3 => exact first _
        case h_4 => exact lowerLast_gives spelling children inside
        case h_5 | h_6 | h_7 | h_8 | h_9 | h_10 | h_11 | h_12 | h_13 | h_14 | h_15 =>
          exact .pure .none
        case h_16 kind | h_17 kind | h_18 kind | h_19 kind => exact declaration (by rw [kind]; rfl)
        case h_20 =>
          exact .map (localVariables_gives (declaredVariables_gives spelling children inside))
            fun _ => .some
        case h_21 => exact .map (constructorCall_gives arguments (operand _)) fun _ => .some
        case h_22 => exact .map (methodCall_gives arguments (operand _)) fun _ => .some
        case h_23 =>
          exact .map (creation_gives arguments (outerInstance_gives spelling children inside)
            (anonymousFirst_gives spelling children inside _)) fun _ => .some
        case h_24 => exact .map (fieldAccess_gives (operand _)) fun _ => .some
        case h_25 => exact .map simpleName_gives fun _ => .some
        case h_26 => exact .map thisExpression_gives fun _ => .some
        case h_27 => exact .map (cast_gives (operand _)) fun _ => .some
        case h_28 =>
          split
          · exact .map (instanceCheck_gives (operand _) _) fun _ => .some
          · exact other
        case h_29 => exact .map (lambda_gives (first _)) fun _ => .some
        case h_30 => exact .map (enhancedFor_gives (first _) (first _)) fun _ => .some
        case h_31 =>
          exact .map (catchClause_gives (blockFirst_gives spelling children inside _))
            fun _ => .some
        case h_32 =>
          split
          · exact .map (resource_gives (first _) _) fun _ => .some
          · exact first _
        case h_33 => exact .map (arrayCreation_gives nodes) fun _ => .some
        case h_34 => exact inLevel_gives other
        case h_35 => exact other
termination_by structural tree

theorem lowerNamed_gives (spelling : Spelling table.source spelled good) (forest : List Concrete)
    (inside : ∀ tree ∈ forest, good tree) {self : Option TypeBinding} :
    Gives self (lowerNamed table forest) (Code table spelled self) := by
  match forest with
  | [] => exact .pure .nil
  | tree :: forest =>
      obtain ⟨first, rest⟩ := List.forall_mem_cons.mp inside
      rw [lowerNamed]
      split
      · exact .bind (lower_gives spelling tree first) fun _ shaped =>
          .bind (lowerNamed_gives spelling forest rest) fun _ others =>
            .pure (shaped.toList.append others)
      · exact lowerNamed_gives spelling forest rest
termination_by structural forest

theorem lowerFirst_gives (spelling : Spelling table.source spelled good) (forest : List Concrete)
    (inside : ∀ tree ∈ forest, good tree) {self : Option TypeBinding}
    (accepts : ConcreteHead → Bool) :
    Gives self (lowerFirst table accepts forest) (CodeOption table spelled self) := by
  match forest with
  | [] => exact .pure .none
  | tree :: forest =>
      obtain ⟨first, rest⟩ := List.forall_mem_cons.mp inside
      rw [lowerFirst]
      split
      · exact lower_gives spelling tree first
      · exact lowerFirst_gives spelling forest rest accepts
termination_by structural forest

theorem lowerLast_gives (spelling : Spelling table.source spelled good) (forest : List Concrete)
    (inside : ∀ tree ∈ forest, good tree) {self : Option TypeBinding} :
    Gives self (lowerLast table forest) (CodeOption table spelled self) := by
  match forest with
  | [] => exact .pure .none
  | tree :: forest =>
      obtain ⟨first, rest⟩ := List.forall_mem_cons.mp inside
      rw [lowerLast]
      split
      · exact lower_gives spelling tree first
      · exact lowerLast_gives spelling forest rest
termination_by structural forest

/-- Both walks for an operand put an empty expression where nothing is lowered. -/
theorem operandFirst_gives (spelling : Spelling table.source spelled good) (forest : List Concrete)
    (inside : ∀ tree ∈ forest, good tree) {self : Option TypeBinding}
    (accepts : ConcreteHead → Bool) :
    Gives self (operandFirst table accepts forest) (CodeOption table spelled self) := by
  match forest with
  | [] => exact .pure .none
  | tree :: forest =>
      obtain ⟨first, rest⟩ := List.forall_mem_cons.mp inside
      rw [operandFirst]
      split
      · exact .bind (lower_gives spelling tree first) fun _ shaped =>
          .pure (.some (shaped.getD (emptyExpression_shaped _)))
      · exact operandFirst_gives spelling forest rest accepts
termination_by structural forest

theorem outerInstance_gives (spelling : Spelling table.source spelled good) (forest : List Concrete)
    (inside : ∀ tree ∈ forest, good tree) {self : Option TypeBinding} :
    Gives self (outerInstance table forest) (CodeOption table spelled self) := by
  match forest with
  | [] => exact .pure .none
  | tree :: forest =>
      obtain ⟨first, rest⟩ := List.forall_mem_cons.mp inside
      rw [outerInstance]
      split
      · exact .pure .none
      · split
        · exact .bind (lower_gives spelling tree first) fun _ shaped =>
            .pure (.some (shaped.getD (emptyExpression_shaped _)))
        · exact outerInstance_gives spelling forest rest
termination_by structural forest

theorem operands_gives (spelling : Spelling table.source spelled good) (forest : List Concrete)
    (inside : ∀ tree ∈ forest, good tree) {self : Option TypeBinding} :
    Gives self (operands table forest) (Code table spelled self) := by
  match forest with
  | [] => exact .pure .nil
  | tree :: forest =>
      obtain ⟨first, rest⟩ := List.forall_mem_cons.mp inside
      rw [operands]
      split
      · exact .bind (lower_gives spelling tree first) fun _ shaped =>
          .bind (operands_gives spelling forest rest) fun _ others =>
            .pure (.cons (shaped.getD (emptyExpression_shaped _)) others)
      · exact operands_gives spelling forest rest
termination_by structural forest

theorem argumentsOf_gives (spelling : Spelling table.source spelled good) (forest : List Concrete)
    (inside : ∀ tree ∈ forest, good tree) {self : Option TypeBinding} :
    Gives self (argumentsOf table forest) (Code table spelled self) := by
  match forest with
  | [] => exact .pure .nil
  | .node head children :: forest =>
      obtain ⟨first, rest⟩ := List.forall_mem_cons.mp inside
      rw [argumentsOf]
      split
      · exact operands_gives spelling children (spelling.child first)
      · exact argumentsOf_gives spelling forest rest
termination_by structural forest

theorem blockFirst_gives (spelling : Spelling table.source spelled good) (forest : List Concrete)
    (inside : ∀ tree ∈ forest, good tree) {self : Option TypeBinding}
    (accepts : ConcreteHead → Bool) :
    Gives self (blockFirst table accepts forest) (CodeOption table spelled self) := by
  match forest with
  | [] => exact .pure .none
  | .node head children :: forest =>
      obtain ⟨first, rest⟩ := List.forall_mem_cons.mp inside
      rw [blockFirst]
      split
      · exact .map (inBlock_gives (lowerNamed_gives spelling children (spelling.child first)))
          fun _ => .some
      · exact blockFirst_gives spelling forest rest accepts
termination_by structural forest

/-- The variables may be fields or local ones. -/
theorem declaredVariables_gives (spelling : Spelling table.source spelled good)
    (forest : List Concrete) (inside : ∀ tree ∈ forest, good tree) {self : Option TypeBinding} :
    Gives self (declaredVariables table forest) (Initializers table spelled self) := by
  match forest with
  | [] => exact .pure Code.nil
  | .node head children :: forest =>
      obtain ⟨first, rest⟩ := List.forall_mem_cons.mp inside
      rw [declaredVariables]
      split
      · exact .bind (lowerFirst_gives spelling children (spelling.child first) _) fun _ shaped =>
          .bind (declaredVariables_gives spelling forest rest) fun _ others =>
            .pure (initializers_cons shaped others)
      · exact declaredVariables_gives spelling forest rest
termination_by structural forest

theorem anonymousFirst_gives (spelling : Spelling table.source spelled good)
    (forest : List Concrete) (inside : ∀ tree ∈ forest, good tree) {self : Option TypeBinding}
    (accepts : ConcreteHead → Bool) :
    Gives self (anonymousFirst table accepts forest) (Anonymous table spelled) := by
  match forest with
  | [] => exact .pure nofun
  | .node head children :: forest =>
      obtain ⟨first, rest⟩ := List.forall_mem_cons.mp inside
      rw [anonymousFirst]
      split
      · exact .map (anonymousClass_gives
          (membersIn_gives spelling children (spelling.child first) none true)) fun _ => id
      · exact anonymousFirst_gives spelling forest rest accepts
termination_by structural forest

theorem membersOfBody_gives (spelling : Spelling table.source spelled good) (forest : List Concrete)
    (inside : ∀ tree ∈ forest, good tree) {self : Option TypeBinding} (created : Option TypeUse) :
    Gives self (membersOfBody table created forest) (Members table spelled self) := by
  match forest with
  | [] => exact .pure fun _ => (nomatch ·)
  | .node head children :: forest =>
      obtain ⟨first, rest⟩ := List.forall_mem_cons.mp inside
      rw [membersOfBody]
      split
      · exact membersIn_gives spelling children (spelling.child first) created true
      · exact membersOfBody_gives spelling forest rest created
termination_by structural forest

theorem membersIn_gives (spelling : Spelling table.source spelled good) (forest : List Concrete)
    (inside : ∀ tree ∈ forest, good tree) {self : Option TypeBinding} (created : Option TypeUse)
    (atTop : Bool) :
    Gives self (membersIn table created atTop forest) (Members table spelled self) := by
  match forest with
  | [] => exact .pure fun _ => (nomatch ·)
  | .node head children :: forest =>
      obtain ⟨first, rest⟩ := List.forall_mem_cons.mp inside
      have others : Gives self _ (Members table spelled self) :=
        membersIn_gives spelling forest rest created atTop
      have together {here : Lowering (List Node)}
          (met : Gives self here (Members table spelled self)) :
          Gives self (do
            let here ← here
            let others ← membersIn table created atTop forest
            pure (here ++ others)) (Members table spelled self) :=
        .bind met fun _ shaped => .bind others fun _ rest =>
          .pure (List.forall_mem_append.mpr ⟨shaped, rest⟩)
      rw [membersIn]
      split
      · exact together (.pure fun _ => (nomatch ·))
      · split
        · exact together (membersIn_gives spelling children (spelling.child first) created false)
        · exact together (.map (member_gives spelling (.node head children) first created)
            fun _ shaped node listed => shaped node (Option.mem_toList.mp listed))
termination_by structural forest

theorem member_gives (spelling : Spelling table.source spelled good) (tree : Concrete)
    (fine : good tree) {self : Option TypeBinding} (created : Option TypeUse) :
    Gives self (member table created tree)
      fun node => ∀ found ∈ node, found.Shaped table spelled (.body self) := by
  match tree with
  | .node head children =>
      have inside := spelling.child fine
      have declared {node : Node} (shaped : node.Shaped table spelled (.body self)) :
          ∀ found ∈ some node, found.Shaped table spelled (.body self) :=
        fun _ same => Option.some.inj same ▸ shaped
      have declaration (kind : head.kind.isTypeDeclaration) :
          Gives self (some <$> typeDeclaration table .member head children
            (membersOfBody table · children))
            fun node => ∀ found ∈ node, found.Shaped table spelled (.body self) :=
        .map (typeDeclaration_gives .member (spelling.name fine (.inl kind))
          (spelling.typeParameters fine) fun _ created =>
            membersOfBody_gives spelling children inside created) fun _ => declared
      have block (accepts : ConcreteHead → Bool) : Gives self _ (CodeOption table spelled self) :=
        blockFirst_gives spelling children inside accepts
      rw [member.eq_def]
      dsimp only
      split
      case h_1 =>
        exact .map (fieldDeclaration_gives (declaredVariables_gives spelling children inside))
          fun _ => declared
      case h_2 kind =>
        exact .map (methodDeclaration_gives (fun _ => spelling.name fine (.inr kind)) (block _))
          fun _ => declared
      case h_3 | h_4 => exact .map (methodDeclaration_gives nofun (block _)) fun _ => declared
      case h_5 =>
        exact .bind (inBlock_gives (lowerNamed_gives spelling children inside)) fun _ shaped =>
          .pure (declared (.initializer shaped))
      case h_6 =>
        refine .bind (block _) fun body shaped => .pure ?_
        cases body with
        | none => exact nofun
        | some body => exact declared (.initializer (shaped body rfl))
      case h_7 =>
        split
        · exact .map (enumConstant_gives (argumentsOf_gives spelling children inside)
            (anonymousFirst_gives spelling children inside _)) fun _ => declared
        · exact .pure nofun
      case h_8 kind | h_9 kind | h_10 kind | h_11 kind => exact declaration (by rw [kind]; rfl)
      case h_12 => exact .pure nofun
termination_by structural tree

end

/-- A top-level type. -/
theorem topLevel_gives (spelling : Spelling table.source spelled good) {tree : Concrete}
    (fine : good tree) (kind : tree.kind.isTypeDeclaration) :
    Gives none (topLevel table tree) fun node => node.Shaped table spelled .outside := by
  cases tree with
  | node head children =>
      exact typeDeclaration_gives .topLevel (spelling.name fine (.inl kind))
        (spelling.typeParameters fine)
        fun _ created => membersOfBody_gives spelling children (spelling.child fine) created

end Lowering

end JavaFacts
