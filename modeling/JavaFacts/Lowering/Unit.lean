import JavaFacts.Config
import JavaFacts.Lowering.DeclaredTypes
import JavaFacts.Lowering.Tree
import JavaFacts.Project.Error

/-!
From the concrete syntax tree of a file to its compilation unit. A file with syntax errors gives
none.
-/

namespace JavaFacts

structure ImportClause where
  name : String
  isStatic : Bool
  isWildcard : Bool
deriving Repr, DecidableEq, Inhabited

namespace ImportClause

def ofTree? (source : SourceText) (tree : Concrete) : Option ImportClause := do
  let name ← tree.children.first? (·.isPackageName)
  return {
    name := source.dottedName name
    isStatic := tree.children.any (·.kind == .modifier Modifiers.isStatic)
    isWildcard := tree.children.any (·.kind == .asterisk) }

def written (clause : ImportClause) : String :=
  if clause.isWildcard then clause.name ++ ".*" else clause.name

def type? (clause : ImportClause) : Option (String × String) :=
  if clause.isWildcard || clause.isStatic then none
  else some (Text.afterLast (· == '.') clause.name, clause.name)

end ImportClause

namespace CompilationUnit

/-- The last package declaration counts. -/
def packageIn (source : SourceText) (top : Forest) : Option String :=
  match (top.filter (·.kind == .packageDeclaration)).getLast? with
  | some declaration =>
      (declaration.children.first? (·.isPackageName)).map source.dottedName
  | none => none

def importsIn (source : SourceText) (top : Forest) : List ImportClause :=
  (top.filter (·.kind == .importDeclaration)).filterMap (ImportClause.ofTree? source)

def typeTable (source : SourceText) (top : Forest) : TypeTable :=
  let table : TypeTable := {
    source, package := packageIn source top
    imports := ((importsIn source top).filterMap (·.type?)).reverse, declared := [] }
  table.declareAll top

def errorPlace (source : SourceText) (tree : Concrete) : Nat × Nat :=
  match tree.firstError? with
  | some error => source.place error.start
  | none => (0, 0)

def ofConcrete (config : Config) (path text : String) (tree : Concrete) :
    Except ExtractionError CompilationUnit :=
  if text.utf8ByteSize > config.maxFileSize then .error (.fileTooLarge path text.utf8ByteSize)
  else
    let source := SourceText.ofString text
    if tree.head.hasError then
      let (line, column) := errorPlace source tree
      .error (.syntaxError path line column "Syntax error")
    else
      let top := tree.children.named
      let table := typeTable source top
      let types := (top.filter (·.kind.isTypeDeclaration)).mapM (Lowering.topLevel table)
      .ok {
        path, source := text, package := table.package
        imports := (importsIn source top).map (·.written), types := (types.run .empty).1 }

end CompilationUnit

end JavaFacts
