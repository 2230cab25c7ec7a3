import JavaFacts.Extraction.Unit
import JavaFacts.Lowering.Unit
import JavaFacts.Project.Directory

/-!
Extraction of several files into one store. A file that fails is reported and costs no other file. A
monitor is asked before each unit whether to go on; what was done by then stays.
-/

namespace JavaFacts

def language : String := "java"

def fileExtensions : List String := [".java"]

def isSourcePath (path : String) : Bool :=
  (Path.extension? path).any fun extension => fileExtensions.contains ("." ++ extension)

structure UnitDone where
  path : String
  /-- Number of units visited by then. -/
  done : Nat
  total : Nat
deriving Repr, DecidableEq, Inhabited

abbrev Reading := Config → String → Except ExtractionError (String × Concrete)

structure Workspace where
  store : Store
  metrics : Metrics
  warnings : Array String
  visited : Array UnitDone
deriving Inhabited

abbrev Run := ReaderT Config (ExceptT ExtractionError (StateM Workspace))

namespace Run

def warn (text : String) : Run Unit :=
  modify fun workspace => { workspace with warnings := workspace.warnings.push text }

def attempt (action : Run α) : Run (Except ExtractionError α) :=
  tryCatch (Except.ok <$> action) fun error => pure (.error error)

def ofExcept (result : Except ExtractionError α) : Run α :=
  match result with
  | .ok value => pure value
  | .error error => throw error

def lower (path text : String) (tree : Concrete) : Run CompilationUnit := do
  ofExcept (CompilationUnit.ofConcrete (← read) path text tree)

/-- The calls of the unit stay unresolved. -/
def extractUnit (unit : CompilationUnit) : Run UnitReport := do
  let extraction := unit.extract (← read) (← get).store
  modify fun workspace => { workspace with
    store := extraction.store
    metrics := workspace.metrics.countUnit extraction.result.toOption
    warnings := workspace.warnings ++ extraction.warnings }
  ofExcept extraction.result

/-- The calls come back in any case. -/
def resolve (calls : List Call) : Run (Except FactError ResolutionSummary × List Call) := do
  let (result, resolved, store) := Call.resolveAndLink (← read) calls (← get).store
  modify fun workspace => { workspace with
    store, metrics := workspace.metrics.countResolution result.toOption }
  pure (result, resolved)

def extractPart (project : ProjectReport) (unit : CompilationUnit) : Run ProjectReport := do
  match ← attempt (extractUnit unit) with
  | .ok report => pure (project.addUnit report)
  | .error error =>
      warn ("Failed to extract " ++ unit.path ++ ": " ++ error.message)
      pure (project.addFailure unit.path error.message)

/-- `done` of `total` units come before. -/
def extractParts (isCancelled : Nat → Bool) (total done : Nat) (project : ProjectReport) :
    List CompilationUnit → Run ProjectReport
  | [] => pure project
  | unit :: units =>
      if isCancelled done then pure { project with cancelled := true }
      else do
        let next ← extractPart project unit
        modify fun workspace => { workspace with
          visited := workspace.visited.push ⟨unit.path, done + 1, total⟩ }
        extractParts isCancelled total (done + 1) next units

def resolveProject (project : ProjectReport) : Run ProjectReport := do
  if (← read).resolveDeferred && !project.cancelled then
    let (result, calls) ← resolve project.deferred
    match result with
    | .ok summary => pure { project with deferred := calls, resolution := summary }
    | .error error => throw (.facts error)
  else pure project

def extractUnits (isCancelled : Nat → Bool) (units : List CompilationUnit) : Run ProjectReport := do
  resolveProject (← extractParts isCancelled units.length 0 .empty units)

def parseSource (path text : String) (tree : Concrete) : Run UnitReport := do
  extractUnit (← lower path text tree)

def lowerFile (reading : Reading) (path : String) : Run CompilationUnit := do
  let (text, tree) ← ofExcept (reading (← read) path)
  lower path text tree

def parseFile (directory : Directory) (path : String) : Run UnitReport := do
  extractUnit (← lowerFile directory.read path)

def lowerFiles (reading : Reading) : List String → Run (List CompilationUnit × List (String × String))
  | [] => pure ([], [])
  | path :: paths => do
      match ← attempt (lowerFile reading path) with
      | .ok unit =>
          let (units, failed) ← lowerFiles reading paths
          pure (unit :: units, failed)
      | .error error =>
          warn ("Skipping " ++ path ++ ": " ++ error.message)
          let (units, failed) ← lowerFiles reading paths
          pure (units, (path, error.message) :: failed)

/-- Files that cannot be read come last among the failures. -/
def parsePaths (isCancelled : Nat → Bool) (reading : Reading) (paths : List String) :
    Run ProjectReport := do
  let (units, failed) ← lowerFiles reading paths
  let project ← extractUnits isCancelled units
  pure { project with failed := project.failed ++ failed }

def parseFiles (isCancelled : Nat → Bool) (directory : Directory) (paths : List String) :
    Run ProjectReport :=
  parsePaths isCancelled directory.read paths

end Run

end JavaFacts
