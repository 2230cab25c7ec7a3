import JavaFacts.Proofs.Call.Reached
import JavaFacts.Proofs.Lowering.Unit

/-!
What may keep the facts of a file from being extracted once its syntax tree is free of errors: two
declarations of one entity at different places, and nothing else.
-/

namespace JavaFacts

namespace CompilationUnit

variable {unit : CompilationUnit} {store : Store} {table : TypeTable}

/-- The walk over types with the shape of lowered ones leaves no node out, and only a conflict of
declarations ends it early. -/
theorem walk_of_shaped (sound : store.Sound) (config : Config) (indexed : table.IsIndexed)
    (package : unit.package = table.package)
    (shaped : ∀ node ∈ unit.types, node.Shaped table (fun _ => True) .outside) :
    (unit.walk config store).2.faults = 0 ∧ (unit.walk config store).2.warnings = #[] ∧
      ∀ fault, (unit.walk config store).1 = .error fault →
        fault.Arises ⟨False, False⟩ unit.path (unit.walk config store).2.store := by
  obtain ⟨site, start, path, same, startSound, -, blank, walked⟩ := unit.walk_starts config sound
  have fitted : Fitted table site .outside unit.types start.scopes :=
    ⟨indexed, same.trans package, by rw [blank.scopes]; rfl, shaped⟩
  have keeping : Walk.Keeping False .outside unit.types (unit.types.forM Walk.visit) :=
    Walk.forM_visit_keeping unit.types
  obtain ⟨-, -, -, unbroken, outcome⟩ := keeping table site start (.inr fitted) startSound
  obtain ⟨faults, warnings⟩ := unbroken.resolve_left id
  rw [← walked] at faults warnings outcome
  refine ⟨faults.trans blank.faults, warnings.trans blank.warnings, fun fault failed => ?_⟩
  rw [failed, path] at outcome
  exact outcome

theorem extract_of_walk_eq_error {config : Config} {fault : Fault}
    (failed : (unit.walk config store).1 = .error fault) :
    (unit.extract config store).result = .error (.invariant unit.path fault.message) := by
  rw [extract]
  rcases walked : unit.walk config store with ⟨outcome, after⟩
  rw [walked] at failed
  obtain rfl : outcome = .error fault := failed
  rfl

end CompilationUnit

/-- A syntax tree without errors, of whatever shape, is lowered to a unit whose nodes all stand where
they have to: the walk leaves none of them out and warns of none. The extraction succeeds, or else
the file declares an entity that is declared at another place already, and the error says so. -/
theorem extract_fails_for_conflicts_only {store : Store} {calls : List Call}
    (reached : store.Reached calls) (config options : Config) {path text : String} {tree : Concrete}
    (clean : tree.head.hasError = false) (small : text.utf8ByteSize ≤ options.maxFileSize) :
    ∃ unit, CompilationUnit.ofConcrete options path text tree = .ok unit ∧
      let extraction := unit.extract config store
      (unit.walk config store).2.faults = 0 ∧ extraction.warnings = [] ∧
        ((∃ report, extraction.result = .ok report) ∨
          ∃ id entity existing anchor, extraction.store.entity? id = some entity ∧
            entity.anchor = some existing ∧ existing ≠ anchor ∧ anchor.file = path ∧
            extraction.result = .error (.invariant path (FactError.duplicateDeclaration
              entity.kind.name entity.name existing.render anchor.render).message)) := by
  obtain ⟨unit, lowered⟩ : ∃ unit, CompilationUnit.ofConcrete options path text tree = .ok unit :=
    CompilationUnit.exists_ofConcrete clean small
  obtain ⟨rfl, package, shaped⟩ := CompilationUnit.shaped_of_ofConcrete (Spelling.any _)
    (fun _ _ => trivial) lowered
  obtain ⟨faults, warnings, failures⟩ := CompilationUnit.walk_of_shaped reached.sound.1 config
    (TypeTable.isIndexed_declareAll _) package shaped
  refine ⟨unit, lowered, faults, congrArg Array.toList warnings, ?_⟩
  cases finished : (unit.walk config store).1 with
  | ok => exact .inl ⟨_, CompilationUnit.extract_of_walk finished⟩
  | error fault =>
      cases failures fault finished with
      | node missing => exact missing.elim
      | facts arises =>
          cases arises with
          | loop looped => exact looped.elim
          | conflict found declared apart within =>
              exact .inr ⟨_, _, _, _, found, declared, apart, within,
                CompilationUnit.extract_of_walk_eq_error finished⟩

/-- An enum with a constant that has a body of its own, in which a field is initialized. -/
theorem extract_fails_for_conflicts_only_of_enum :
    let text := "enum E { A { int x = y; } }"
    let node (role : Option Role) (kind : ConcreteKind) (start stop : Nat) (children : Forest) :
        Concrete := .node ⟨role, kind, true, false, false, false, start, stop⟩ children
    let field := node none .fieldDeclaration 13 23 [node (some .type) .primitiveType 13 16 [],
      node (some .declarator) .variableDeclarator 17 22 [node (some .name) .identifier 17 18 [],
        node (some .value) .identifier 21 22 []]]
    let constant := node none .enumConstant 9 25 [node (some .name) .identifier 9 10 [],
      node (some .body) .classBody 11 25 [field]]
    let tree := node none .other 0 27 [node none .enumDeclaration 0 27
      [node (some .name) .identifier 5 6 [], node (some .body) .other 7 27 [constant]]]
    tree.head.hasError = false ∧ text.utf8ByteSize ≤ Config.standard.maxFileSize ∧
      ∃ unit, CompilationUnit.ofConcrete .standard "E.java" text tree = .ok unit ∧
        (unit.walk .standard ∅).2.faults = 0 ∧ (unit.extract .standard ∅).warnings = [] := by
  intro text node field constant tree
  have clean : tree.head.hasError = false := rfl
  have small : text.utf8ByteSize ≤ Config.standard.maxFileSize := by decide
  obtain ⟨unit, lowered, faults, warnings, -⟩ :=
    extract_fails_for_conflicts_only .empty .standard .standard clean small
  exact ⟨clean, small, unit, lowered, faults, warnings⟩

end JavaFacts
