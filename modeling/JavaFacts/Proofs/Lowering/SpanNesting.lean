import JavaFacts.Lowering.Unit
import JavaFacts.Proofs.Lowering.Spans
import JavaFacts.Proofs.Lowering.Variables

/-!
The spans of lowered trees. The walk skips trees, opens them and puts nodes of its own around what it
finds, but what it makes of a tree never leaves the span of that tree: one case for every function of
the walk, by recursion on the tree.
-/

namespace JavaFacts

namespace Lowering

variable {table : TypeTable}

mutual

theorem lower_spansNest (tree : Concrete) {self : Option TypeBinding} {around : Span}
    (nests : tree.SpansNest table.source around) :
    Gives self (lower table tree) (OptionIn around) := by
  match tree with
  | .node head children =>
      have inside := nests.child
      -- what is lowered fills the span of the tree, which lies in the one around it
      suffices fills : Gives self (lower table (.node head children))
          (OptionIn (table.source.spanOf head)) from .weaken fills (OptionIn.mono nests.contains)
      have declaration : Gives self (some <$> typeDeclaration table .localType head children
            (membersOfBody table · children)) (OptionIn (table.source.spanOf head)) :=
        .map (typeDeclaration_spansNest .localType inside fun _ created =>
          membersOfBody_spansNest children inside created) fun _ => .some
      have nodes : Gives self _ (AllIn (table.source.spanOf head)) :=
        lowerNamed_spansNest children inside
      have first (accepts : ConcreteHead → Bool) :
          Gives self _ (OptionIn (table.source.spanOf head)) :=
        lowerFirst_spansNest children inside accepts
      have operand (accepts : ConcreteHead → Bool) :
          Gives self _ (OptionIn (table.source.spanOf head)) :=
        operandFirst_spansNest children inside accepts
      have arguments : Gives self _ (AllIn (table.source.spanOf head)) :=
        argumentsOf_spansNest children inside
      have other : Gives self (generic table head children (lowerNamed table children))
          (OptionIn (table.source.spanOf head)) := generic_spansNest nodes
      rw [lower]
      split
      · exact .pure (.some (.spanning rfl AllIn.nil))
      · split
        case h_1 | h_2 => exact .map (inBlock_spansNest nodes) fun _ => .some
        case h_3 => exact first _
        case h_4 => exact lowerLast_spansNest children inside
        case h_5 | h_6 | h_7 | h_8 | h_9 | h_10 | h_11 | h_12 | h_13 | h_14 | h_15 =>
          exact .pure .none
        case h_16 | h_17 | h_18 | h_19 => exact declaration
        case h_20 =>
          exact .map (localVariables_spansNest (declaredVariables_spansNest children inside))
            fun _ => .some
        case h_21 => exact .map (constructorCall_spansNest arguments (operand _)) fun _ => .some
        case h_22 => exact .map (methodCall_spansNest arguments (operand _)) fun _ => .some
        case h_23 =>
          exact .map (creation_spansNest arguments (outerInstance_spansNest children inside)
            (anonymousFirst_spansNest children inside _)) fun _ => .some
        case h_24 => exact .map (fieldAccess_spansNest (operand _)) fun _ => .some
        case h_25 => exact .map simpleName_spansNest fun _ => .some
        case h_26 => exact .map thisExpression_spansNest fun _ => .some
        case h_27 => exact .map (cast_spansNest (operand _)) fun _ => .some
        case h_28 =>
          split
          · exact .map (instanceCheck_spansNest (operand _) _) fun _ => .some
          · exact other
        case h_29 => exact .map (lambda_spansNest (first _)) fun _ => .some
        case h_30 => exact .map (enhancedFor_spansNest (first _) (first _)) fun _ => .some
        case h_31 =>
          exact .map (catchClause_spansNest (blockFirst_spansNest children inside _)) fun _ => .some
        case h_32 =>
          split
          · exact .map (resource_spansNest (first _) _) fun _ => .some
          · exact first _
        case h_33 => exact .map (arrayCreation_spansNest nodes) fun _ => .some
        case h_34 => exact inLevel_gives other
        case h_35 => exact other
termination_by structural tree

theorem lowerNamed_spansNest (forest : List Concrete) {self : Option TypeBinding} {around : Span}
    (inside : ∀ tree ∈ forest, tree.SpansNest table.source around) :
    Gives self (lowerNamed table forest) (AllIn around) := by
  match forest with
  | [] => exact .pure .nil
  | tree :: forest =>
      obtain ⟨first, rest⟩ := List.forall_mem_cons.mp inside
      rw [lowerNamed]
      split
      · exact .bind (lower_spansNest tree first) fun _ nests =>
          .bind (lowerNamed_spansNest forest rest) fun _ others =>
            .pure (nests.toList.append others)
      · exact lowerNamed_spansNest forest rest
termination_by structural forest

theorem lowerFirst_spansNest (forest : List Concrete) {self : Option TypeBinding} {around : Span}
    (inside : ∀ tree ∈ forest, tree.SpansNest table.source around)
    (accepts : ConcreteHead → Bool) :
    Gives self (lowerFirst table accepts forest) (OptionIn around) := by
  match forest with
  | [] => exact .pure .none
  | tree :: forest =>
      obtain ⟨first, rest⟩ := List.forall_mem_cons.mp inside
      rw [lowerFirst]
      split
      · exact lower_spansNest tree first
      · exact lowerFirst_spansNest forest rest accepts
termination_by structural forest

theorem lowerLast_spansNest (forest : List Concrete) {self : Option TypeBinding} {around : Span}
    (inside : ∀ tree ∈ forest, tree.SpansNest table.source around) :
    Gives self (lowerLast table forest) (OptionIn around) := by
  match forest with
  | [] => exact .pure .none
  | tree :: forest =>
      obtain ⟨first, rest⟩ := List.forall_mem_cons.mp inside
      rw [lowerLast]
      split
      · exact lower_spansNest tree first
      · exact lowerLast_spansNest forest rest
termination_by structural forest

/-- The empty expression that stands for an operand has the span of its tree. -/
theorem operandFirst_spansNest (forest : List Concrete) {self : Option TypeBinding} {around : Span}
    (inside : ∀ tree ∈ forest, tree.SpansNest table.source around)
    (accepts : ConcreteHead → Bool) :
    Gives self (operandFirst table accepts forest) (OptionIn around) := by
  match forest with
  | [] => exact .pure .none
  | tree :: forest =>
      obtain ⟨first, rest⟩ := List.forall_mem_cons.mp inside
      rw [operandFirst]
      split
      · exact .bind (lower_spansNest tree first) fun _ nests =>
          .pure (.some (nests.getD (emptyExpression_spansNest first.contains)))
      · exact operandFirst_spansNest forest rest accepts
termination_by structural forest

theorem outerInstance_spansNest (forest : List Concrete) {self : Option TypeBinding} {around : Span}
    (inside : ∀ tree ∈ forest, tree.SpansNest table.source around) :
    Gives self (outerInstance table forest) (OptionIn around) := by
  match forest with
  | [] => exact .pure .none
  | tree :: forest =>
      obtain ⟨first, rest⟩ := List.forall_mem_cons.mp inside
      rw [outerInstance]
      split
      · exact .pure .none
      · split
        · exact .bind (lower_spansNest tree first) fun _ nests =>
            .pure (.some (nests.getD (emptyExpression_spansNest first.contains)))
        · exact outerInstance_spansNest forest rest
termination_by structural forest

theorem operands_spansNest (forest : List Concrete) {self : Option TypeBinding} {around : Span}
    (inside : ∀ tree ∈ forest, tree.SpansNest table.source around) :
    Gives self (operands table forest) (AllIn around) := by
  match forest with
  | [] => exact .pure .nil
  | tree :: forest =>
      obtain ⟨first, rest⟩ := List.forall_mem_cons.mp inside
      rw [operands]
      split
      · exact .bind (lower_spansNest tree first) fun _ nests =>
          .bind (operands_spansNest forest rest) fun _ others =>
            .pure (.cons (nests.getD (emptyExpression_spansNest first.contains)) others)
      · exact operands_spansNest forest rest
termination_by structural forest

theorem argumentsOf_spansNest (forest : List Concrete) {self : Option TypeBinding} {around : Span}
    (inside : ∀ tree ∈ forest, tree.SpansNest table.source around) :
    Gives self (argumentsOf table forest) (AllIn around) := by
  match forest with
  | [] => exact .pure .nil
  | .node head children :: forest =>
      obtain ⟨first, rest⟩ := List.forall_mem_cons.mp inside
      rw [argumentsOf]
      split
      · exact .weaken (operands_spansNest children first.child) (AllIn.mono first.contains)
      · exact argumentsOf_spansNest forest rest
termination_by structural forest

theorem blockFirst_spansNest (forest : List Concrete) {self : Option TypeBinding} {around : Span}
    (inside : ∀ tree ∈ forest, tree.SpansNest table.source around)
    (accepts : ConcreteHead → Bool) :
    Gives self (blockFirst table accepts forest) (OptionIn around) := by
  match forest with
  | [] => exact .pure .none
  | .node head children :: forest =>
      obtain ⟨first, rest⟩ := List.forall_mem_cons.mp inside
      rw [blockFirst]
      split
      · exact .map (inBlock_spansNest (lowerNamed_spansNest children first.child))
          fun _ nests => .some (nests.mono first.contains)
      · exact blockFirst_spansNest forest rest accepts
termination_by structural forest

theorem declaredVariables_spansNest (forest : List Concrete) {self : Option TypeBinding} {around : Span}
    (inside : ∀ tree ∈ forest, tree.SpansNest table.source around) :
    Gives self (declaredVariables table forest) (InitializersIn around) := by
  match forest with
  | [] => exact .pure AllIn.nil
  | .node head children :: forest =>
      obtain ⟨first, rest⟩ := List.forall_mem_cons.mp inside
      rw [declaredVariables]
      split
      · exact .bind (lowerFirst_spansNest children first.child _) fun _ nests =>
          .bind (declaredVariables_spansNest forest rest) fun _ others =>
            .pure (initializersIn_cons (OptionIn.mono first.contains _ nests) others)
      · exact declaredVariables_spansNest forest rest
termination_by structural forest

theorem anonymousFirst_spansNest (forest : List Concrete) {self : Option TypeBinding} {around : Span}
    (inside : ∀ tree ∈ forest, tree.SpansNest table.source around)
    (accepts : ConcreteHead → Bool) :
    Gives self (anonymousFirst table accepts forest) (BodyIn around) := by
  match forest with
  | [] => exact .pure nofun
  | .node head children :: forest =>
      obtain ⟨first, rest⟩ := List.forall_mem_cons.mp inside
      rw [anonymousFirst]
      split
      · exact .map (anonymousClass_spansNest fun _ =>
          .weaken (membersIn_spansNest children first.child none true) (AllIn.mono first.contains))
          fun _ => id
      · exact anonymousFirst_spansNest forest rest accepts
termination_by structural forest

theorem membersOfBody_spansNest (forest : List Concrete) {self : Option TypeBinding} {around : Span}
    (inside : ∀ tree ∈ forest, tree.SpansNest table.source around) (created : Option TypeUse) :
    Gives self (membersOfBody table created forest) (AllIn around) := by
  match forest with
  | [] => exact .pure .nil
  | .node head children :: forest =>
      obtain ⟨first, rest⟩ := List.forall_mem_cons.mp inside
      rw [membersOfBody]
      split
      · exact .weaken (membersIn_spansNest children first.child created true)
          (AllIn.mono first.contains)
      · exact membersOfBody_spansNest forest rest created
termination_by structural forest

/-- The members behind the constants of an enum stand one level deeper. -/
theorem membersIn_spansNest (forest : List Concrete) {self : Option TypeBinding} {around : Span}
    (inside : ∀ tree ∈ forest, tree.SpansNest table.source around) (created : Option TypeUse)
    (atTop : Bool) : Gives self (membersIn table created atTop forest) (AllIn around) := by
  match forest with
  | [] => exact .pure .nil
  | .node head children :: forest =>
      obtain ⟨first, rest⟩ := List.forall_mem_cons.mp inside
      have others : Gives self _ (AllIn around) := membersIn_spansNest forest rest created atTop
      have together {here : Lowering (List Node)} (met : Gives self here (AllIn around)) :
          Gives self (do
            let here ← here
            let others ← membersIn table created atTop forest
            pure (here ++ others)) (AllIn around) :=
        .bind met fun _ nest => .bind others fun _ rest => .pure (nest.append rest)
      rw [membersIn]
      split
      · exact together (.pure .nil)
      · split
        · exact together (.weaken (membersIn_spansNest children first.child created false)
            (AllIn.mono first.contains))
        · exact together (.map (member_spansNest (.node head children) first created)
            fun _ => OptionIn.toList)
termination_by structural forest

theorem member_spansNest (tree : Concrete) {self : Option TypeBinding} {around : Span}
    (nests : tree.SpansNest table.source around) (created : Option TypeUse) :
    Gives self (member table created tree) (OptionIn around) := by
  match tree with
  | .node head children =>
      have inside := nests.child
      suffices fills : Gives self (member table created (.node head children))
          (OptionIn (table.source.spanOf head)) from .weaken fills (OptionIn.mono nests.contains)
      have declaration : Gives self (some <$> typeDeclaration table .member head children
            (membersOfBody table · children)) (OptionIn (table.source.spanOf head)) :=
        .map (typeDeclaration_spansNest .member inside fun _ created =>
          membersOfBody_spansNest children inside created) fun _ => .some
      have block (accepts : ConcreteHead → Bool) :
          Gives self _ (OptionIn (table.source.spanOf head)) :=
        blockFirst_spansNest children inside accepts
      rw [member.eq_def]
      dsimp only
      split
      case h_1 =>
        exact .map (fieldDeclaration_spansNest (declaredVariables_spansNest children inside))
          fun _ => .some
      case h_2 | h_3 | h_4 => exact .map (methodDeclaration_spansNest (block _)) fun _ => .some
      case h_5 =>
        exact .bind (inBlock_spansNest (lowerNamed_spansNest children inside)) fun _ nests =>
          .pure (.some (.spanning rfl (AllIn.cons nests .nil)))
      case h_6 =>
        refine .bind (block _) fun body nests => .pure ?_
        cases body with
        | none => exact .none
        | some body => exact .some (.spanning rfl (AllIn.cons (nests body rfl) .nil))
      case h_7 =>
        split
        · exact .map (enumConstant_spansNest (argumentsOf_spansNest children inside)
            (anonymousFirst_spansNest children inside _)) fun _ => .some
        · exact .pure .none
      case h_8 | h_9 | h_10 | h_11 => exact declaration
      case h_12 => exact .pure .none
termination_by structural tree

end

theorem topLevel_spansNest {tree : Concrete} {around : Span}
    (nests : tree.SpansNest table.source around) :
    Gives none (topLevel table tree) (·.SpansNest around) := by
  cases tree with
  | node head children =>
      have type : Gives none (topLevel table (.node head children)) _ :=
        typeDeclaration_spansNest .topLevel nests.child fun _ created =>
          membersOfBody_spansNest children nests.child created
      exact .weaken type fun _ fills => fills.mono nests.contains

end Lowering

theorem Node.SpansNest.within {around : Span} {node part : Node} (nests : node.SpansNest around)
    (within : part.Within node) : part.SpansNest around := by
  induction within generalizing around with
  | here => exact nests
  | inside member _ ih => exact (ih (nests.child _ member)).mono nests.contains

namespace CompilationUnit

variable {config : Config} {path text : String} {tree : Concrete} {unit : CompilationUnit}

theorem spansNest_of_ofConcrete (nested : tree.Nested) (within : tree.head.stop ≤ text.utf8ByteSize)
    (succeeded : ofConcrete config path text tree = .ok unit) :
    ∀ type ∈ unit.types, type.SpansNest ((SourceText.ofString text).spanOf tree.head) := by
  unfold ofConcrete at succeeded
  split at succeeded
  · cases succeeded
  · dsimp only at succeeded
    split at succeeded
    · cases succeeded
    · obtain rfl := Except.ok.inj succeeded
      have nests := nested.spansNest within (Span.contains_refl _)
      let source := SourceText.ofString text
      let declarations := tree.children.named.filter (·.kind.isTypeDeclaration)
      have inside : ∀ node ∈ declarations, node.SpansNest source (source.spanOf tree.head) :=
        fun node listed => nests.child node (List.mem_filter.mp (List.mem_filter.mp listed).1).1
      have types : Lowering.Gives none
          (declarations.mapM (Lowering.topLevel (typeTable source tree.children.named))) _ :=
        .mapM fun node listed => Lowering.topLevel_spansNest (inside node listed)
      exact (types .empty rfl).2

/-- Where the nodes of a syntax tree lie within each other and in the text, so do those of the unit
that the file leads to, by their characters: every node ends with the text at the latest, and nothing
inside a node, at whatever depth, leaves its span. -/
theorem lowered_spans_nest (nested : tree.Nested) (start : tree.head.start ≤ text.utf8ByteSize)
    (stop : tree.head.stop ≤ text.utf8ByteSize)
    (succeeded : ofConcrete config path text tree = .ok unit) :
    ∀ type ∈ unit.types, ∀ node : Node, node.Within type →
      node.span.stop ≤ text.length ∧
        ∀ inner : Node, inner.Within node → node.span.contains inner.span := by
  intro type listed node within
  have nests := (spansNest_of_ofConcrete nested stop succeeded type listed).within within
  refine ⟨?_, fun inner deeper => ?_⟩
  · have ends := (Span.contains_iff.mp nests.contains).2
    exact ends.trans (SourceText.stop_spanOf_le start stop)
  · have fills : node.SpansNest node.span := .spanning rfl nests.child
    exact (fills.within deeper).contains

/-- The file `record R(int é){}`, in which a character takes two bytes and a component of the record
becomes a field of it. -/
theorem lowered_spans_nest_of_record :
    let node (role : Option Role) (kind : ConcreteKind) (start stop : Nat) (children : Forest) :
        Concrete := .node ⟨role, kind, true, false, false, false, start, stop⟩ children
    let component := node none .formalParameter 9 15
      [node (some .type) .primitiveType 9 12 [], node (some .name) .identifier 13 15 []]
    let tree := node none .other 0 18 [node none .recordDeclaration 0 18
      [node (some .name) .identifier 7 8 [], node (some .parameters) .other 8 16 [component],
        node (some .body) .classBody 16 18 []]]
    ∃ unit type field, ofConcrete .standard "R.java" "record R(int é){}" tree = .ok unit ∧
      unit.types = [type] ∧ type.children = [field] ∧ type.span.contains field.span ∧
      type.span.stop ≤ 17 := by
  intro node component tree
  obtain ⟨unit, succeeded, type, types, field, inside⟩ : ∃ unit,
      ofConcrete .standard "R.java" "record R(int é){}" tree = .ok unit ∧
        ∃ type, unit.types = [type] ∧ ∃ field, type.children = [field] := by
    unfold ofConcrete
    rw [if_neg (by decide)]
    exact ⟨_, rfl, _, rfl, _, rfl⟩
  have leaf (role : Option Role) (kind : ConcreteKind) (start stop : Nat) :
      (node role kind start stop []).Nested :=
    .node (fun _ => (nomatch ·)) fun _ => (nomatch ·)
  have around (role : Option Role) (kind : ConcreteKind) (start stop : Nat) (children : Forest)
      (within : ∀ child ∈ children, (start ≤ child.head.start ∧ child.head.start ≤ stop) ∧
        start ≤ child.head.stop ∧ child.head.stop ≤ stop)
      (nested : ∀ child ∈ children, child.Nested) : (node role kind start stop children).Nested :=
    .node (fun child member => ⟨(within child member).1, (within child member).2⟩) nested
  have nested : tree.Nested := by
    refine around _ _ _ _ _ (by decide) (List.forall_mem_singleton.mpr ?_)
    refine around _ _ _ _ _ (by decide) (List.forall_mem_cons.mpr ⟨leaf _ _ _ _, ?_⟩)
    refine List.forall_mem_cons.mpr ⟨?_, List.forall_mem_singleton.mpr (leaf _ _ _ _)⟩
    refine around _ _ _ _ _ (by decide) (List.forall_mem_singleton.mpr ?_)
    exact around _ _ _ _ _ (by decide)
      (List.forall_mem_cons.mpr ⟨leaf _ _ _ _, List.forall_mem_singleton.mpr (leaf _ _ _ _)⟩)
  obtain ⟨ends, nests⟩ := lowered_spans_nest nested (by decide) (by decide) succeeded type
    (types ▸ List.mem_singleton_self type) type .here
  exact ⟨unit, type, field, succeeded, types, inside,
    nests field (.inside (inside ▸ List.mem_singleton_self field) .here), ends⟩

end CompilationUnit

end JavaFacts
