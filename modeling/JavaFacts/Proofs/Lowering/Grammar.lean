import JavaFacts.Lowering.Unit
import JavaFacts.Proofs.Naming.Packages

/-!
Concrete syntax trees of the grammar, as far as the names of packages, types and methods depend on
it.
-/

namespace JavaFacts

open Naming (IsIdentifier IsDotted)

/-- What the grammar says about a node and the nodes directly inside it. -/
structure ConcreteHead.Fits (source : SourceText) (head : ConcreteHead) (children : Forest) : Prop where
  identifier : head.kind.isTypeName → IsIdentifier (source.textOf head)
  named : head.kind.isTypeDeclaration ∨ head.kind = .methodDeclaration →
    ∃ name, children.child? .name = some name ∧ name.kind.isTypeName
  segmented : head.kind = .scopedIdentifier → (∃ segment ∈ children, segment.head.isNamedOf (·.isNameSegment)) ∧
    ∀ segment ∈ children, segment.head.isNamedOf (·.isNameSegment) → segment.kind.isPackageName

/-- A tree of the grammar whose identifiers are identifiers of Java. -/
inductive Concrete.Grammatical (source : SourceText) : Concrete → Prop where
  | node {head : ConcreteHead} {children : Forest} : head.Fits source children →
      (∀ child ∈ children, Grammatical source child) → Grammatical source (.node head children)

namespace Concrete.Grammatical

variable {source : SourceText} {tree : Concrete}

theorem fits (grammatical : tree.Grammatical source) : tree.head.Fits source tree.children := by
  obtain ⟨fits, -⟩ := grammatical
  exact fits

theorem child (grammatical : tree.Grammatical source) {child : Concrete}
    (member : child ∈ tree.children) : child.Grammatical source := by
  obtain ⟨-, inside⟩ := grammatical
  exact inside child member

end Concrete.Grammatical

namespace Forest

theorem mem_of_child? {role : Role} {forest : Forest} {tree : Concrete}
    (found : forest.child? role = some tree) : tree ∈ forest :=
  List.mem_of_find?_eq_some found

theorem mem_of_first? {accepts : ConcreteKind → Bool} {forest : Forest} {tree : Concrete}
    (found : forest.first? accepts = some tree) : tree ∈ forest ∧ accepts tree.kind := by
  have taken := List.find?_some (p := fun tree : Concrete => tree.head.isNamedOf accepts) found
  exact ⟨List.mem_of_find?_eq_some found, (Bool.and_eq_true_iff.mp taken).2⟩

end Forest

namespace SourceText

variable {source : SourceText}

theorem isIdentifier_childText {children : Forest}
    (inside : ∀ child ∈ children, child.Grammatical source)
    (named : ∃ name, children.child? .name = some name ∧ name.kind.isTypeName) :
    IsIdentifier (source.childText .name children) := by
  obtain ⟨name, found, kind⟩ := named
  rw [childText, found]
  exact (inside name (Forest.mem_of_child? found)).fits.identifier kind

mutual

/-- The name of a package or an imported type. -/
theorem isDotted_dottedName (tree : Concrete) (grammatical : tree.Grammatical source)
    (kind : tree.kind.isPackageName) : IsDotted (source.dottedName tree) := by
  cases tree with
  | node head children =>
      obtain ⟨fits, inside⟩ := grammatical
      have kinds : head.kind = .scopedIdentifier ∨ head.kind = .identifier := by
        have kind : head.kind.isPackageName := kind
        unfold ConcreteKind.isPackageName at kind
        split at kind
        · next same => exact .inl same
        · next same => exact .inr same
        · cases kind
      rcases kinds with composed | plain
      · obtain ⟨⟨segment, member, taken⟩, packages⟩ := fits.segmented composed
        have segments := isDotted_dottedSegments children inside packages
        rw [dottedName, composed]
        exact Naming.isDotted_joined (segments.2 ⟨segment, member, taken⟩) segments.1
      · rw [dottedName, plain]
        exact (fits.identifier (by rw [plain]; rfl)).isDotted
termination_by structural tree

theorem isDotted_dottedSegments (forest : List Concrete)
    (inside : ∀ tree ∈ forest, tree.Grammatical source)
    (packages : ∀ segment ∈ forest, segment.head.isNamedOf (·.isNameSegment) →
      segment.kind.isPackageName) :
    (∀ segment ∈ source.dottedSegments forest, IsDotted segment) ∧
      ((∃ segment ∈ forest, segment.head.isNamedOf (·.isNameSegment)) →
        source.dottedSegments forest ≠ []) := by
  cases forest with
  | nil => exact ⟨fun _ => (nomatch ·), fun ⟨_, member, _⟩ => nomatch member⟩
  | cons tree forest =>
      have rest := isDotted_dottedSegments forest
        (fun other member => inside other (List.mem_cons_of_mem _ member))
        (fun other member => packages other (List.mem_cons_of_mem _ member))
      rw [dottedSegments]
      split
      · next taken =>
          have first := isDotted_dottedName tree (inside tree List.mem_cons_self)
            (packages tree List.mem_cons_self taken)
          exact ⟨List.forall_mem_cons.mpr ⟨first, rest.1⟩, fun _ => List.cons_ne_nil _ _⟩
      · next skipped =>
          refine ⟨rest.1, fun ⟨segment, member, taken⟩ => rest.2 ?_⟩
          rcases List.mem_cons.mp member with rfl | member
          · exact absurd taken skipped
          · exact ⟨segment, member, taken⟩
termination_by structural forest

end

end SourceText

theorem CompilationUnit.isDotted_packageIn {source : SourceText} {top : Forest}
    (inside : ∀ tree ∈ top, tree.Grammatical source) {package : String}
    (found : packageIn source top = some package) : IsDotted package := by
  unfold packageIn at found
  split at found
  · next declaration last =>
      obtain ⟨name, first, rfl⟩ := Option.map_eq_some_iff.mp found
      have member := (List.mem_filter.mp (List.mem_of_getLast? last)).1
      obtain ⟨listed, kind⟩ := Forest.mem_of_first? first
      exact SourceText.isDotted_dottedName name ((inside declaration member).child listed) kind
  · cases found

end JavaFacts
