import JavaFacts.Config
import JavaFacts.Extraction.Visit
import JavaFacts.Project.Error
import JavaFacts.Project.Report

/-!
The facts of one compilation unit. If the unit has to be given up, what was found before stays in
the store.
-/

namespace JavaFacts

structure Extraction where
  result : Except ExtractionError UnitReport
  store : Store
  warnings : List String

namespace CompilationUnit

def report (unit : CompilationUnit) (before : Store) (after : Progress) : UnitReport :=
  let source := SourceText.ofString unit.source
  { path := unit.path
    types := after.types.toList
    methods := after.methods.toList
    entitiesCreated := after.store.entities.size - before.entities.size
    associationsCreated := after.store.associations.size - before.associations.size
    deferredCount := after.calls.size
    deferred := after.calls.toList
    lines := source.lineCount
    bytes := source.byteCount }

def walk (unit : CompilationUnit) (config : Config) (store : Store) :
    Except Fault Unit × Progress :=
  let (packageEntity, store) := store.intern .package (unit.package.getD Naming.defaultPackage)
  let site : Site := {
    path := unit.path, source := SourceText.ofString unit.source, package := unit.package
    packageEntity, recordStatements := config.recordStatements }
  let start : Progress := {
    store, scopes := ∅, calls := #[], types := #[], methods := #[], faults := 0, warnings := #[] }
  ((unit.types.forM Walk.visit).run site).run start

def extract (unit : CompilationUnit) (config : Config) (store : Store) : Extraction :=
  let (outcome, after) := unit.walk config store
  let result := match outcome with
    | .error fault => .error (.invariant unit.path fault.message)
    | .ok () =>
        if after.scopes.isBalanced then .ok (unit.report store after)
        else .error (.invariant unit.path "scope stacks not empty after traversal")
  ⟨result, after.store, after.warnings.toList⟩

end CompilationUnit

end JavaFacts
