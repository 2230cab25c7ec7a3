import JavaFacts.Lowering.Tree
import JavaFacts.Proofs.Lowering.Variables

/-!
Lowering scopes names lexically. The walk over a tree is followed function by function, for any
property of scopes that the variables of the tree cannot break; what it leaves in scope and how it
binds a name are cases of this.
-/

namespace JavaFacts.Lowering

variable {table : TypeTable} {allowed : String → Prop} {meaning : Meaning}

/-- The type parameters of a tree are among those that it opens. -/
theorem opens_section {fits : Names → Prop} (steady : Steady table fits allowed meaning)
    {head : ConcreteHead} {children : Forest}
    (allows : (Concrete.node head children).Allows table.source allowed meaning.opens) :
    ∀ names, fits names → fits (withParameters table children names) :=
  fun _ here => steady.typeVariables here fun _ => allows.typeParameter

mutual

theorem lower_keeps {fits : Names → Prop} (steady : Steady table fits allowed meaning)
    (tree : Concrete) (allows : tree.Allows table.source allowed meaning.opens) :
    Keeps fits allowed (lower table tree) (ReadsOption meaning) := by
  match tree with
  | .node head children =>
      have inside : ∀ child ∈ children, child.Allows table.source allowed meaning.opens :=
        fun child member => allows.child member
      -- a type in code cannot be named, so whatever its members declare stays out of the table
      have declaration : Keeps fits allowed (some <$> typeDeclaration table .localType head children
            (membersOfBody table · children)) (ReadsOption meaning) :=
        .map (typeDeclaration_keeps steady inside allows.enumeration (opens_section steady allows)
          (enters_localType _ _ _ _) (fun placed => absurd rfl placed) fun _ used =>
            membersOfBody_keeps steady.unnamed (enters_unnamed _ _ _ _) children inside used)
          fun _ => .some
      have nodes := lowerNamed_keeps steady children inside
      have first (accepts : ConcreteHead → Bool) := lowerFirst_keeps steady children inside accepts
      have operand (accepts : ConcreteHead → Bool) :=
        operandFirst_keeps steady children inside accepts
      have arguments := argumentsOf_keeps steady children inside
      have other : Keeps fits allowed (generic table head children (lowerNamed table children))
          (ReadsOption meaning) := generic_keeps steady nodes
      rw [lower]
      split
      · exact .pure (.some (.untyped rfl rfl ReadsAll.nil))
      · split
        case h_1 | h_2 => exact .map (inBlock_keeps steady nodes) fun _ => .some
        case h_3 => exact first _
        case h_4 => exact lowerLast_keeps steady children inside
        case h_5 | h_6 | h_7 | h_8 | h_9 | h_10 | h_11 | h_12 | h_13 | h_14 | h_15 =>
          exact .pure .none
        case h_16 | h_17 | h_18 | h_19 => exact declaration
        case h_20 kind =>
          refine .map (localVariables_keeps steady (.weaken (declaredVariables_keeps steady children
            inside) fun entries reads => ⟨reads.1, fun entry member => ?_⟩)) fun _ => .some
          obtain ⟨declarator, listed, role, same⟩ := reads.2 entry member
          exact same ▸ allows.declarator kind listed role
        case h_21 => exact .map (constructorCall_keeps steady arguments (operand _)) fun _ => .some
        case h_22 => exact .map (methodCall_keeps steady arguments (operand _)) fun _ => .some
        case h_23 =>
          exact .map (creation_keeps steady arguments (outerInstance_keeps steady children inside)
            (anonymousFirst_keeps steady children inside _)) fun _ => .some
        case h_24 => exact .map (fieldAccess_keeps steady (operand _)) fun _ => .some
        case h_25 => exact .map (simpleName_keeps steady) fun _ => .some
        case h_26 => exact .map thisExpression_keeps fun _ => .some
        case h_27 => exact .map (cast_keeps steady (operand _)) fun _ => .some
        case h_28 kind =>
          split
          · exact .map (instanceCheck_keeps steady (operand _) _ (allows.named (.inl kind)))
              fun _ => .some
          · exact other
        case h_29 kind => exact .map (lambda_keeps steady (first _) rfl kind allows) fun _ => .some
        case h_30 kind =>
          exact .map (enhancedFor_keeps steady (first _) (first _)
            (allows.named (.inr (.inl kind)))) fun _ => .some
        case h_31 kind =>
          exact .map (catchClause_keeps steady (blockFirst_keeps steady children inside _)
            (allows.caught kind)) fun _ => .some
        case h_32 kind =>
          split
          · next name found =>
              have fine := allows.named (.inr (.inr kind))
              rw [SourceText.childText, found] at fine
              exact .map (resource_keeps steady (first _) name fine) fun _ => .some
          · exact first _
        case h_33 => exact .map (arrayCreation_keeps steady nodes) fun _ => .some
        case h_34 => exact inLevel_keeps steady (VariableLevel.all_nil _) other
        case h_35 => exact other
termination_by structural tree

theorem lowerNamed_keeps {fits : Names → Prop} (steady : Steady table fits allowed meaning)
    (forest : List Concrete)
    (inside : ∀ tree ∈ forest, tree.Allows table.source allowed meaning.opens) :
    Keeps fits allowed (lowerNamed table forest) (ReadsAll meaning) := by
  match forest with
  | [] => exact .pure .nil
  | tree :: forest =>
      obtain ⟨first, rest⟩ := List.forall_mem_cons.mp inside
      rw [lowerNamed]
      split
      · exact .bind steady (lower_keeps steady tree first) fun _ reads =>
          .bind steady (lowerNamed_keeps steady forest rest) fun _ others =>
            .pure (reads.toList.append others)
      · exact lowerNamed_keeps steady forest rest
termination_by structural forest

theorem lowerFirst_keeps {fits : Names → Prop} (steady : Steady table fits allowed meaning)
    (forest : List Concrete)
    (inside : ∀ tree ∈ forest, tree.Allows table.source allowed meaning.opens)
    (accepts : ConcreteHead → Bool) :
    Keeps fits allowed (lowerFirst table accepts forest) (ReadsOption meaning) := by
  match forest with
  | [] => exact .pure .none
  | tree :: forest =>
      obtain ⟨first, rest⟩ := List.forall_mem_cons.mp inside
      rw [lowerFirst]
      split
      · exact lower_keeps steady tree first
      · exact lowerFirst_keeps steady forest rest accepts
termination_by structural forest

theorem lowerLast_keeps {fits : Names → Prop} (steady : Steady table fits allowed meaning)
    (forest : List Concrete)
    (inside : ∀ tree ∈ forest, tree.Allows table.source allowed meaning.opens) :
    Keeps fits allowed (lowerLast table forest) (ReadsOption meaning) := by
  match forest with
  | [] => exact .pure .none
  | tree :: forest =>
      obtain ⟨first, rest⟩ := List.forall_mem_cons.mp inside
      rw [lowerLast]
      split
      · exact lower_keeps steady tree first
      · exact lowerLast_keeps steady forest rest
termination_by structural forest

theorem operandFirst_keeps {fits : Names → Prop} (steady : Steady table fits allowed meaning)
    (forest : List Concrete)
    (inside : ∀ tree ∈ forest, tree.Allows table.source allowed meaning.opens)
    (accepts : ConcreteHead → Bool) :
    Keeps fits allowed (operandFirst table accepts forest) (ReadsOption meaning) := by
  match forest with
  | [] => exact .pure .none
  | tree :: forest =>
      obtain ⟨first, rest⟩ := List.forall_mem_cons.mp inside
      rw [operandFirst]
      split
      · exact .bind steady (lower_keeps steady tree first) fun _ reads =>
          .pure (.some (reads.getD (emptyExpression_reads _)))
      · exact operandFirst_keeps steady forest rest accepts
termination_by structural forest

theorem outerInstance_keeps {fits : Names → Prop} (steady : Steady table fits allowed meaning)
    (forest : List Concrete)
    (inside : ∀ tree ∈ forest, tree.Allows table.source allowed meaning.opens) :
    Keeps fits allowed (outerInstance table forest) (ReadsOption meaning) := by
  match forest with
  | [] => exact .pure .none
  | tree :: forest =>
      obtain ⟨first, rest⟩ := List.forall_mem_cons.mp inside
      rw [outerInstance]
      split
      · exact .pure .none
      · split
        · exact .bind steady (lower_keeps steady tree first) fun _ reads =>
            .pure (.some (reads.getD (emptyExpression_reads _)))
        · exact outerInstance_keeps steady forest rest
termination_by structural forest

theorem operands_keeps {fits : Names → Prop} (steady : Steady table fits allowed meaning)
    (forest : List Concrete)
    (inside : ∀ tree ∈ forest, tree.Allows table.source allowed meaning.opens) :
    Keeps fits allowed (operands table forest) (ReadsAll meaning) := by
  match forest with
  | [] => exact .pure .nil
  | tree :: forest =>
      obtain ⟨first, rest⟩ := List.forall_mem_cons.mp inside
      rw [operands]
      split
      · exact .bind steady (lower_keeps steady tree first) fun _ reads =>
          .bind steady (operands_keeps steady forest rest) fun _ others =>
            .pure (.cons (reads.getD (emptyExpression_reads _)) others)
      · exact operands_keeps steady forest rest
termination_by structural forest

theorem argumentsOf_keeps {fits : Names → Prop} (steady : Steady table fits allowed meaning)
    (forest : List Concrete)
    (inside : ∀ tree ∈ forest, tree.Allows table.source allowed meaning.opens) :
    Keeps fits allowed (argumentsOf table forest) (ReadsAll meaning) := by
  match forest with
  | [] => exact .pure .nil
  | .node head children :: forest =>
      obtain ⟨first, rest⟩ := List.forall_mem_cons.mp inside
      rw [argumentsOf]
      split
      · exact operands_keeps steady children fun _ member => first.child member
      · exact argumentsOf_keeps steady forest rest
termination_by structural forest

theorem blockFirst_keeps {fits : Names → Prop} (steady : Steady table fits allowed meaning)
    (forest : List Concrete)
    (inside : ∀ tree ∈ forest, tree.Allows table.source allowed meaning.opens)
    (accepts : ConcreteHead → Bool) :
    Keeps fits allowed (blockFirst table accepts forest) (ReadsOption meaning) := by
  match forest with
  | [] => exact .pure .none
  | .node head children :: forest =>
      obtain ⟨first, rest⟩ := List.forall_mem_cons.mp inside
      rw [blockFirst]
      split
      · exact .map (inBlock_keeps steady (lowerNamed_keeps steady children
          fun _ member => first.child member)) fun _ => .some
      · exact blockFirst_keeps steady forest rest accepts
termination_by structural forest

theorem declaredVariables_keeps {fits : Names → Prop} (steady : Steady table fits allowed meaning)
    (forest : List Concrete)
    (inside : ∀ tree ∈ forest, tree.Allows table.source allowed meaning.opens) :
    Keeps fits allowed (declaredVariables table forest) fun entries =>
      ReadsInitializers meaning entries ∧ ∀ entry ∈ entries, ∃ declarator ∈ forest,
        declarator.head.hasRole .declarator ∧
          table.source.childText .name declarator.children = entry.declarator.name := by
  match forest with
  | [] => exact .pure ⟨ReadsAll.nil, List.forall_mem_nil _⟩
  | .node head children :: forest =>
      obtain ⟨first, rest⟩ := List.forall_mem_cons.mp inside
      have others : Keeps fits allowed (declaredVariables table forest) fun entries =>
          ReadsInitializers meaning entries ∧ ∀ entry ∈ entries,
            ∃ declarator ∈ Concrete.node head children :: forest,
              declarator.head.hasRole .declarator ∧
                table.source.childText .name declarator.children = entry.declarator.name := by
        refine .weaken (declaredVariables_keeps steady forest rest) fun entries reads =>
          ⟨reads.1, fun entry member => ?_⟩
        obtain ⟨declarator, listed, found⟩ := reads.2 entry member
        exact ⟨declarator, List.mem_cons_of_mem _ listed, found⟩
      rw [declaredVariables]
      split
      · next role =>
          refine .bind steady (lowerFirst_keeps steady children
            (fun _ member => first.child member) _) fun _ reads =>
              .bind steady others fun entries later => .pure
                ⟨readsInitializers_cons reads later.1, List.forall_mem_cons.mpr ⟨?_, later.2⟩⟩
          exact ⟨_, List.mem_cons_self, role, rfl⟩
      · exact others
termination_by structural forest

theorem anonymousFirst_keeps {fits : Names → Prop} (steady : Steady table fits allowed meaning)
    (forest : List Concrete)
    (inside : ∀ tree ∈ forest, tree.Allows table.source allowed meaning.opens)
    (accepts : ConcreteHead → Bool) :
    Keeps fits allowed (anonymousFirst table accepts forest) (ReadsBody meaning) := by
  match forest with
  | [] => exact .pure ReadsAll.nil
  | .node head children :: forest =>
      obtain ⟨first, rest⟩ := List.forall_mem_cons.mp inside
      have body : ∀ tree ∈ children, tree.Allows table.source allowed meaning.opens :=
        fun _ member => first.child member
      have nothing : ∀ use ∈ (none : Option TypeUse), meaning.used use := fun _ => (nomatch ·)
      rw [anonymousFirst]
      split
      · exact .map (anonymousClass_keeps steady body (membersIn_keeps steady.unnamed
          (enters_unnamed _ _ _ _) children body nothing true)) fun _ => id
      · exact anonymousFirst_keeps steady forest rest accepts
termination_by structural forest

theorem membersOfBody_keeps {fits : Names → Prop} (steady : Steady table fits allowed meaning)
    (enters : Enters table fits fits allowed .member) (forest : List Concrete)
    (inside : ∀ tree ∈ forest, tree.Allows table.source allowed meaning.opens)
    {created : Option TypeUse} (used : ∀ use ∈ created, meaning.used use) :
    Keeps fits allowed (membersOfBody table created forest) (ReadsAll meaning) := by
  match forest with
  | [] => exact .pure .nil
  | .node head children :: forest =>
      obtain ⟨first, rest⟩ := List.forall_mem_cons.mp inside
      rw [membersOfBody]
      split
      · exact membersIn_keeps steady enters children (fun _ member => first.child member)
          used true
      · exact membersOfBody_keeps steady enters forest rest used
termination_by structural forest

theorem membersIn_keeps {fits : Names → Prop} (steady : Steady table fits allowed meaning)
    (enters : Enters table fits fits allowed .member) (forest : List Concrete)
    (inside : ∀ tree ∈ forest, tree.Allows table.source allowed meaning.opens)
    {created : Option TypeUse} (used : ∀ use ∈ created, meaning.used use) (atTop : Bool) :
    Keeps fits allowed (membersIn table created atTop forest) (ReadsAll meaning) := by
  match forest with
  | [] => exact .pure .nil
  | .node head children :: forest =>
      obtain ⟨first, rest⟩ := List.forall_mem_cons.mp inside
      have together {here : Lowering (List Node)}
          (met : Keeps fits allowed here (ReadsAll meaning)) : Keeps fits allowed (do
            let here ← here
            let others ← membersIn table created atTop forest
            pure (here ++ others)) (ReadsAll meaning) :=
        .bind steady met fun _ reads => .bind steady
          (membersIn_keeps steady enters forest rest used atTop) fun _ others =>
            .pure (reads.append others)
      rw [membersIn]
      split
      · exact together (.pure .nil)
      · split
        · exact together (membersIn_keeps steady enters children
            (fun _ member => first.child member) used false)
        · exact together (.map (member_keeps steady (fun _ => enters) first fun _ => used)
            fun _ reads => reads.toList)
termination_by structural forest

theorem member_keeps {fits : Names → Prop} (steady : Steady table fits allowed meaning)
    {tree : Concrete}
    (enters : tree.kind.isTypeDeclaration → Enters table fits fits allowed .member)
    (allows : tree.Allows table.source allowed meaning.opens) {created : Option TypeUse}
    (used : tree.kind = .enumConstant → ∀ use ∈ created, meaning.used use) :
    Keeps fits allowed (member table created tree) (ReadsOption meaning) := by
  match tree with
  | .node head children =>
      have inside : ∀ child ∈ children, child.Allows table.source allowed meaning.opens :=
        fun child member => allows.child member
      have declaration (kind : head.kind.isTypeDeclaration) : Keeps fits allowed
          (some <$> typeDeclaration table .member head children
            (membersOfBody table · children)) (ReadsOption meaning) :=
        .map (typeDeclaration_keeps steady inside allows.enumeration (opens_section steady allows)
          (enters kind)
          (fun _ _ used => membersOfBody_keeps steady (enters kind) children inside used)
          fun _ used => membersOfBody_keeps steady.unnamed (enters_unnamed _ _ _ _) children inside
            used) fun _ => .some
      have block (accepts : ConcreteHead → Bool) := blockFirst_keeps steady children inside accepts
      have method (isConstructor : Bool) : Keeps fits allowed (some <$> methodDeclaration table
          isConstructor head children (blockFirst table (·.hasRole .body) children))
          (ReadsOption meaning) :=
        .map (methodDeclaration_keeps steady inside (opens_section steady allows) (block _))
          fun _ => .some
      rw [member.eq_def]
      dsimp only
      split
      case h_1 =>
        exact .map (fieldDeclaration_keeps steady (.weaken (declaredVariables_keeps steady children
          inside) fun _ reads => reads.1)) fun _ => .some
      case h_2 | h_3 | h_4 => exact method _
      case h_5 =>
        exact .bind steady (inBlock_keeps steady (lowerNamed_keeps steady children inside))
          fun _ reads => .pure (.some (.untyped rfl rfl (ReadsAll.cons reads .nil)))
      case h_6 =>
        refine .bind steady (block _) fun body reads => .pure ?_
        cases body with
        | none => exact .none
        | some body => exact .some (.untyped rfl rfl (ReadsAll.cons (reads body rfl) .nil))
      case h_7 kind =>
        split
        · next type =>
            exact .map (enumConstant_keeps steady (used kind type rfl)
              (argumentsOf_keeps steady children inside)
              (anonymousFirst_keeps steady children inside _)) fun _ => .some
        · exact .pure .none
      case h_8 kind | h_9 kind | h_10 kind | h_11 kind => exact declaration (by rw [kind]; rfl)
      case h_12 => exact .pure .none
termination_by structural tree

end

theorem steady_any (table : TypeTable) :
    Steady table (fun _ => True) (fun _ => True) (.ofNames fun _ _ => True) :=
  ⟨Meaning.closed_ofNames _, fun _ _ => trivial, fun _ _ => trivial, fun _ _ => trivial,
    fun _ _ => trivial, fun _ => trivial, fun _ _ => trivial, fun _ _ => trivial,
    fun _ _ _ => ⟨trivial, trivial⟩⟩

theorem enters_any (table : TypeTable) (placement : Placement) :
    Enters table (fun _ => True) (fun _ => True) (fun _ => True) placement :=
  fun _ _ _ _ _ => ⟨fun _ _ => trivial, fun _ _ => trivial⟩

theorem allows_any (source : SourceText) (tree : Concrete) :
    tree.Allows source (fun _ => True) fun _ => True :=
  ⟨fun _ _ => trivial, fun _ _ => trivial⟩

section

variable (table) (created : Option TypeUse) (names : Names)

/-- The members of a body leave nothing in scope but variables. -/
theorem exists_add_membersIn (atTop : Bool) (forest : Forest) :
    ∃ added, ((membersIn table created atTop forest).run names).2 = names.add added := by
  have keeps := membersIn_keeps (steady_any table) (enters_any table _) forest
    (fun _ _ => allows_any _ _) (fun _ (_ : _ ∈ created) => trivial) atTop
  obtain ⟨⟨added, after, -⟩, -⟩ := keeps names trivial
  exact ⟨added, after⟩

theorem exists_add_member (tree : Concrete) :
    ∃ added, ((member table created tree).run names).2 = names.add added := by
  have keeps := member_keeps (steady_any table) (fun _ => enters_any table _)
    (allows_any _ tree) fun _ _ (_ : _ ∈ created) => trivial
  obtain ⟨⟨added, after, -⟩, -⟩ := keeps names trivial
  exact ⟨added, after⟩

theorem exists_add_topLevel (tree : Concrete) :
    ∃ added, ((topLevel table tree).run names).2 = names.add added := by
  have steady := steady_any table
  have keeps : Keeps (fun _ => True) (fun _ => True) (topLevel table tree)
      fun node => node.Reads (.ofNames fun _ _ => True) := by
    cases tree with
    | node head children =>
        exact typeDeclaration_keeps steady (fun _ _ => allows_any _ _) (fun _ => trivial)
          (fun _ _ => trivial) (enters_any table _)
          (fun _ _ used => membersOfBody_keeps steady (enters_any table _) children
            (fun _ _ => allows_any _ _) used)
          fun _ used => membersOfBody_keeps steady.unnamed (enters_unnamed _ _ _ _) children
            (fun _ _ => allows_any _ _) used
  obtain ⟨⟨added, after, -⟩, -⟩ := keeps names trivial
  exact ⟨added, after⟩

end

end JavaFacts.Lowering
