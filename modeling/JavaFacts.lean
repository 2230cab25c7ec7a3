import JavaFacts.Document.Facts
import JavaFacts.Document.Reader.Concrete
import JavaFacts.Document.Reader.Facts
import JavaFacts.Document.Reader.Tree
import JavaFacts.Facts.Export
import JavaFacts.Project.Run
import JavaFacts.Proofs.Extraction.Unit
import JavaFacts.Proofs.Outline.Owners
import JavaFacts.Proofs.Outline.Repetition
import JavaFacts.Proofs.Outline.Constructors
import JavaFacts.Proofs.Outline.AnonymousNames
import JavaFacts.Proofs.Outline.TypesApart
import JavaFacts.Proofs.Scope.Blocks
import JavaFacts.Proofs.Scope.Captured
import JavaFacts.Proofs.Scope.Shadowing
import JavaFacts.Proofs.Call.Batches
import JavaFacts.Proofs.Call.DottedNames
import JavaFacts.Proofs.Call.Growth
import JavaFacts.Proofs.Naming.Arrays
import JavaFacts.Proofs.Naming.Methods
import JavaFacts.Proofs.Facts.Distances
import JavaFacts.Proofs.Facts.Export
import JavaFacts.Proofs.Facts.Memberships
import JavaFacts.Proofs.Project.Metrics
import JavaFacts.Proofs.Extraction.Conflicts
import JavaFacts.Proofs.Extraction.DeclaredNames
import JavaFacts.Proofs.Extraction.LocalTypes
import JavaFacts.Proofs.Extraction.SuperQualifiers
import JavaFacts.Proofs.Outline.VariableTypes
import JavaFacts.Proofs.Lowering.Denotation
import JavaFacts.Proofs.Lowering.Erasure
import JavaFacts.Proofs.Lowering.Superclasses
import JavaFacts.Proofs.Facts.Refusals
import JavaFacts.Proofs.Extraction.SimpleNames
import JavaFacts.Proofs.Extraction.Statements
import JavaFacts.Proofs.Lowering.Fields
import JavaFacts.Proofs.Lowering.SpanNesting
import JavaFacts.Proofs.Facts.Ancestors
import JavaFacts.Proofs.Scope.Arena
import JavaFacts.Proofs.Scope.Unmatched
import JavaFacts.Proofs.Lowering.SyntaxErrors
import JavaFacts.Proofs.Source.Tables
