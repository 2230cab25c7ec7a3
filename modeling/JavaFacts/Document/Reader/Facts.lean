import JavaFacts.Document.Facts
import JavaFacts.Document.Reader.Types

/-!
Operands, receivers, settings and counts from their documents.
-/

namespace JavaFacts

def Operand.ofDocument? (document : Document) : Option Operand := do
  return {
    text := ← (document.member "text").text?
    typeName := ← (document.member "type_name").optional? Document.text?
    signatureType := ← (document.member "signature_type").optional? Document.text?
    name := ← (document.member "name").optional? Document.text? }

def Receiver.ofDocument? (document : Document) : Option Receiver := do
  match ← document.variant? with
  | ("Implicit", _) => return .implicit
  | ("Super", _) => return .superclass
  | ("Type", content) => content.text?.map .ofType
  | ("Expression", content) => (Operand.ofDocument? content).map .expression
  | _ => none

/-- The settings with those members replaced that the document has. -/
def Config.replaced? (config : Config) (document : Document) : Option Config := do
  let flag (key : String) (standard : Bool) : Option Bool :=
    return (← (document.member key).optional? Document.flag?).getD standard
  let workers ← (document.member "parallel_workers").optional? Document.number?
  let maxFileSize ← (document.member "max_file_size").optional? Document.number?
  return {
    parallel := ← flag "parallel" config.parallel
    workers := workers <|> config.workers
    maxFileSize := maxFileSize.getD config.maxFileSize
    resolveDeferred := ← flag "resolve_deferred" config.resolveDeferred
    linkUnique := ← flag "link_resolved_invocations" config.linkUnique
    linkAmbiguous := ← flag "link_ambiguous_to_first" config.linkAmbiguous
    recordStatements := ← flag "record_statements" config.recordStatements }

def Metrics.ofDocument? (document : Document) : Option Metrics := do
  return {
    attempted := ← (document.member "units_attempted").number?
    succeeded := ← (document.member "units_succeeded").number?
    failed := ← (document.member "units_failed").number?
    duration := (← (document.member "total_time").number?) * 1000000
    entities := ← (document.member "total_entities").number?
    associations := ← (document.member "total_associations").number?
    deferred := ← (document.member "deferred_invocations").number?
    resolved := ← (document.member "resolved_invocations").number?
    ambiguous := ← (document.member "ambiguous_invocations").number? }

end JavaFacts
