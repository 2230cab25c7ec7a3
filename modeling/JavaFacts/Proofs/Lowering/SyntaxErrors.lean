import JavaFacts.Proofs.Lowering.Unit
import JavaFacts.Proofs.Source.Places

/-!
Files with syntax errors. The flags that a parser leaves on the nodes lead to the first error of the tree
past all parts without errors, and the file is refused with the place of that error.
-/

namespace JavaFacts

namespace ConcreteHead

/-- Whether the parser failed at the node itself. -/
def isFault (head : ConcreteHead) : Bool := head.isError || head.isMissing

end ConcreteHead

namespace Concrete

mutual

/-- The nodes of a tree, each in front of those inside it. -/
def heads : Concrete → List ConcreteHead
  | .node head children => head :: headsIn children
termination_by structural tree => tree

def headsIn : List Concrete → List ConcreteHead
  | [] => []
  | tree :: forest => heads tree ++ headsIn forest
termination_by structural forest => forest

end

/-- A node is flagged if and only if it is an error or missing, or one directly inside it is flagged. -/
inductive Flagged : Concrete → Prop where
  | node {head : ConcreteHead} {children : Forest} :
      (head.hasError = true ↔ head.isError = true ∨ head.isMissing = true ∨
        ∃ child ∈ children, child.head.hasError = true) →
      (∀ child ∈ children, Flagged child) → Flagged (.node head children)

theorem mem_headsIn_iff {head : ConcreteHead} {forest : Forest} :
    head ∈ headsIn forest ↔ ∃ tree ∈ forest, head ∈ tree.heads := by
  induction forest with
  | nil => simp [headsIn]
  | cons tree forest ih => simp [headsIn, ih]

variable {tree : Concrete}

/-- The flag of a node tells whether there is an error anywhere in it. -/
theorem Flagged.hasError_iff (flagged : tree.Flagged) :
    tree.head.hasError = true ↔ ∃ head ∈ tree.heads, head.isFault = true := by
  induction flagged with
  | @node head children here _ ih =>
      have inside : (∃ child ∈ children, child.head.hasError = true) ↔
          ∃ head ∈ headsIn children, head.isFault = true := by
        constructor
        · rintro ⟨child, member, flag⟩
          obtain ⟨head, below, fault⟩ := (ih child member).mp flag
          exact ⟨head, mem_headsIn_iff.mpr ⟨child, member, below⟩, fault⟩
        · rintro ⟨head, below, fault⟩
          obtain ⟨child, member, below⟩ := mem_headsIn_iff.mp below
          exact ⟨child, member, (ih child member).mpr ⟨head, below, fault⟩⟩
      simp only [heads, List.mem_cons, exists_eq_or_imp]
      rw [← inside, Concrete.head, here, ConcreteHead.isFault, Bool.or_eq_true, or_assoc]

/-- What the search leaves out has no error in it. -/
theorem Flagged.find?_eq_none (flagged : tree.Flagged) (clean : tree.head.hasError = false) :
    tree.heads.find? (·.isFault) = none := by
  refine List.find?_eq_none.mpr fun head member fault => ?_
  rw [flagged.hasError_iff.mpr ⟨head, member, fault⟩] at clean
  cases clean

theorem firstErrorIn?_eq {forest : Forest} (flagged : ∀ tree ∈ forest, tree.Flagged)
    (first : ∀ tree ∈ forest, tree.firstError? = tree.heads.find? (·.isFault)) :
    firstErrorIn? forest = (headsIn forest).find? (·.isFault) := by
  induction forest with
  | nil => rfl
  | cons tree forest ih =>
      obtain ⟨here, behind⟩ := List.forall_mem_cons.mp flagged
      obtain ⟨found, later⟩ := List.forall_mem_cons.mp first
      rw [firstErrorIn?, headsIn, List.find?_append, ih behind later]
      split
      · rw [found]
        cases tree.heads.find? (·.isFault) <;> rfl
      · rename_i clean
        rw [here.find?_eq_none (Bool.eq_false_iff.mpr clean), Option.none_or]

/-- The search goes by the flags, and finds the first error of all nodes. -/
theorem Flagged.firstError?_eq (flagged : tree.Flagged) :
    tree.firstError? = tree.heads.find? (·.isFault) := by
  induction flagged with
  | @node head children _ inside ih =>
      rw [firstError?, heads, List.find?_cons, ConcreteHead.isFault]
      split
      · rename_i fault
        rw [fault]
      · rename_i fine
        rw [Bool.eq_false_iff.mpr fine]
        exact firstErrorIn?_eq inside ih

end Concrete

namespace CompilationUnit

open SourceText

variable {config : Config} {path text : String} {tree : Concrete}

theorem ofConcrete_of_hasError (small : text.utf8ByteSize ≤ config.maxFileSize) (flagged : tree.Flagged)
    (flag : tree.head.hasError = true) :
    ∃ error, tree.heads.find? (·.isFault) = some error ∧
      ofConcrete config path text tree = .error (.syntaxError path (rowOf text error.start + 1)
        (columnOf text error.start + 1) "Syntax error") := by
  obtain ⟨error, found⟩ := Option.isSome_iff_exists.mp
    (List.find?_isSome.mpr (flagged.hasError_iff.mp flag))
  refine ⟨error, found, ?_⟩
  rw [ofConcrete, if_neg (Nat.not_lt.mpr small), if_pos flag, errorPlace, flagged.firstError?_eq, found]
  dsimp only
  rw [place_eq]

/-- A file of which the parser reports an error leads to no unit, but to the place of the first node
that is an error or missing, counted from one. -/
theorem ofConcrete_refuses_syntax_errors (small : text.utf8ByteSize ≤ config.maxFileSize)
    (flagged : tree.Flagged) :
    ((∃ unit, ofConcrete config path text tree = .ok unit) ↔ tree.head.hasError = false) ∧
      (tree.head.hasError = true → ∃ error, tree.heads.find? (·.isFault) = some error ∧
        ofConcrete config path text tree = .error (.syntaxError path (rowOf text error.start + 1)
          (columnOf text error.start + 1) "Syntax error")) ∧
      ∀ file line column message,
        ofConcrete config path text tree = .error (.syntaxError file line column message) →
          (line, column) ≠ (0, 0) := by
  have refused := @ofConcrete_of_hasError config path text tree small flagged
  refine ⟨⟨?_, fun clean => exists_ofConcrete clean small⟩, refused, ?_⟩
  · rintro ⟨unit, lowered⟩
    refine Bool.eq_false_iff.mpr fun flag => ?_
    obtain ⟨_, -, error⟩ := refused flag
    rw [lowered] at error
    cases error
  · intro file line column message reported
    cases flag : tree.head.hasError with
    | true =>
        obtain ⟨_, -, error⟩ := refused flag
        rw [reported] at error
        cases error
        exact fun none => nomatch congrArg Prod.fst none
    | false =>
        obtain ⟨unit, lowered⟩ := exists_ofConcrete flag small
        rw [lowered] at reported
        cases reported

/-- The second of two imports lacks its semicolon. -/
theorem ofConcrete_refuses_syntax_errors_of_missing_semicolon :
    let text := "import a;\nimport é"
    let node (flag : Bool) (kind : ConcreteKind) (start stop : Nat) (children : Forest) : Concrete :=
      .node ⟨none, kind, true, false, false, flag, start, stop⟩ children
    let semicolon : ConcreteHead := ⟨none, .other, false, false, true, true, 19, 19⟩
    let first := node false .importDeclaration 0 9 [node false .identifier 7 8 []]
    let second := node true .importDeclaration 10 19
      [node false .identifier 17 19 [], .node semicolon []]
    let tree := node true .other 0 19 [first, second]
    text.utf8ByteSize ≤ Config.standard.maxFileSize ∧ tree.Flagged ∧
      ofConcrete .standard "A.java" text tree = .error (.syntaxError "A.java" 2 10 "Syntax error") := by
  intro text node semicolon first second tree
  have small : text.utf8ByteSize ≤ Config.standard.maxFileSize := by decide
  have clean (start stop : Nat) : (node false .identifier start stop []).Flagged := .node (by simp) nofun
  have missing : (Concrete.node semicolon []).Flagged := .node (by decide) nofun
  have inFirst : first.Flagged := .node (by decide) (List.forall_mem_singleton.mpr (clean 7 8))
  have inSecond : second.Flagged := .node (by decide)
    (List.forall_mem_cons.mpr ⟨clean 17 19, List.forall_mem_singleton.mpr missing⟩)
  have flagged : tree.Flagged := .node (by decide)
    (List.forall_mem_cons.mpr ⟨inFirst, List.forall_mem_singleton.mpr inSecond⟩)
  obtain ⟨error, found, refused⟩ := (ofConcrete_refuses_syntax_errors small flagged).2.1 rfl
  cases found
  have row : rowOf text semicolon.start = 1 := by decide
  have column : columnOf text semicolon.start = 9 := by decide
  rw [row, column] at refused
  exact ⟨small, flagged, refused⟩

end CompilationUnit

end JavaFacts
