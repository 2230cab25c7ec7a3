import JavaFacts.Proofs.Lowering.Parts

/-!
The units that files without errors are lowered to.
-/

namespace JavaFacts

namespace CompilationUnit

variable {config : Config} {path text : String} {tree : Concrete} {unit : CompilationUnit}

/-- The types of the unit have the shape that the table of the file gives them. -/
theorem shaped_of_ofConcrete {spelled : String → Prop} {good : Concrete → Prop}
    (spelling : Spelling (SourceText.ofString text) spelled good)
    (fine : ∀ node ∈ tree.children.named, good node)
    (succeeded : ofConcrete config path text tree = .ok unit) :
    let table := typeTable (SourceText.ofString text) tree.children.named
    unit.path = path ∧ unit.package = table.package ∧
      ∀ node ∈ unit.types, node.Shaped table spelled .outside := by
  unfold ofConcrete at succeeded
  split at succeeded
  · cases succeeded
  · dsimp only at succeeded
    split at succeeded
    · cases succeeded
    · obtain rfl := Except.ok.inj succeeded
      have spelling : Spelling (typeTable (SourceText.ofString text) tree.children.named).source
          spelled good := spelling
      have types := Lowering.Gives.mapM fun node listed =>
        Lowering.topLevel_gives spelling (fine node (List.mem_filter.mp listed).1)
          (List.mem_filter.mp listed).2
      exact ⟨rfl, rfl, (types .empty rfl).2⟩

/-- A file that is not too large leads to a unit if its tree has no errors. -/
theorem exists_ofConcrete (clean : tree.head.hasError = false)
    (small : text.utf8ByteSize ≤ config.maxFileSize) :
    ∃ unit, ofConcrete config path text tree = .ok unit := by
  unfold ofConcrete
  rw [if_neg (Nat.not_lt.mpr small), clean]
  exact ⟨_, rfl⟩

/-- A unit that a file leads to whose syntax tree has no errors and is one of the grammar. -/
def IsLowered (unit : CompilationUnit) : Prop :=
  ∃ config path text tree, ofConcrete config path text tree = .ok unit ∧
    tree.Grammatical (SourceText.ofString text)

/-- What is true of the unit by the types that the file declares. -/
structure FitsTable (unit : CompilationUnit) (table : TypeTable) : Prop where
  package : unit.package = table.package
  packages : table.HasNamedPackage
  parts : ∀ part ∈ unit.parts, part.IsLowered table

theorem IsLowered.fitsTable {unit : CompilationUnit} (lowered : unit.IsLowered) :
    ∃ table, unit.FitsTable table := by
  obtain ⟨config, path, text, tree, succeeded, grammatical⟩ := lowered
  have inside : ∀ node ∈ tree.children.named, node.Grammatical (SourceText.ofString text) :=
    fun node member => grammatical.child (List.mem_filter.mp member).1
  have packages : ∀ package, packageIn (SourceText.ofString text) tree.children.named = some package →
      Naming.IsDotted package := fun _ => isDotted_packageIn inside
  have named : (typeTable (SourceText.ofString text) tree.children.named).IsNamed := by
    unfold typeTable
    refine TypeTable.isNamed_declareAll ?_ ?_
    · exact packages
    · exact inside
  obtain ⟨-, package, types⟩ := shaped_of_ofConcrete (Spelling.grammatical _) inside succeeded
  refine ⟨_, package, packages, fun part member => ?_⟩
  obtain ⟨node, listed, within⟩ := Node.mem_partsAll member
  exact (types node listed).isLowered named rfl part within

end CompilationUnit

end JavaFacts
