import JavaFacts.Call.Linking
import JavaFacts.Document.Types
import JavaFacts.Project.Metrics

/-!
The documents of entities, associations, calls and settings. Unlike the export of a store they show
every field, and entities by number.
-/

namespace JavaFacts

def Entity.document (entity : Entity) : Document :=
  .record [
    ("anchor", .optional Anchor.document entity.anchor),
    ("children", .numbers entity.members.toList),
    ("declared_type", .optional .number entity.declaredType), ("id", .number entity.id),
    ("kind", .text entity.kind.name), ("modifiers", entity.modifiers.document),
    ("parameter_types", .texts entity.parameterTypes), ("parent", .optional .number entity.owner),
    ("position", .optional .number entity.position),
    ("signature_type", .optional .text entity.signatureType),
    ("simple_name", .text entity.simpleName), ("unique_name", .text entity.name)]

def Association.document (association : Association) : Document :=
  .record [
    ("anchor", .optional Anchor.document association.anchor), ("from", .number association.source),
    ("id", .number association.id), ("kind", .text association.kind.name),
    ("statement", .text association.statement), ("to", .number association.target)]

def CallKind.name : CallKind → String
  | .method => "Method"
  | .superMethod => "SuperMethod"
  | .ownConstructor => "Constructor"
  | .superConstructor => "SuperConstructor"
  | .creation => "ClassInstanceCreation"

def CallKind.all : List CallKind :=
  [.method, .superMethod, .ownConstructor, .superConstructor, .creation]

def CallState.name : CallState → String
  | .captured => "Created"
  | .resolved => "Resolved"

def Operand.document (operand : Operand) : Document :=
  .record [
    ("name", .optional .text operand.name),
    ("signature_type", .optional .text operand.signatureType), ("text", .text operand.text),
    ("type_name", .optional .text operand.typeName)]

def Receiver.document : Receiver → Document
  | .implicit => .text "Implicit"
  | .superclass => .text "Super"
  | .ofType name => .tagged "Type" (.text name)
  | .expression operand => .tagged "Expression" operand.document

def Target.document : Target → Document
  | .unique method => .tagged "Unique" (.number method)
  | .ambiguous methods => .tagged "Ambiguous" (.numbers methods)
  | .unresolved => .text "Unresolved"

def Snapshot.document (snapshot : Snapshot) : Document :=
  .record [("variables",
    .record (snapshot.entries.map fun entry => (entry.1, .numbers entry.2)))]

def Call.document (call : Call) : Document :=
  .record [
    ("anchor", call.anchor.document), ("argument_types", .texts call.argumentTypes),
    ("arguments", .listOf Operand.document call.arguments), ("best_match", call.target.document),
    ("caller", .number call.caller), ("caller_class", .number call.callerType),
    ("kind", .text call.kind.name),
    ("matches_by_all_parameters_type", .numbers call.candidates.exact),
    ("matches_by_all_parameters_type_soft", .numbers call.candidates.soft),
    ("matches_by_call_receiver_type_subtyping", .numbers call.candidates.byReceiver),
    ("matches_by_name", .numbers call.candidates.byName),
    ("matches_by_nr_of_parameters", .numbers call.candidates.byCount),
    ("method_name", .text call.name), ("receiver", call.receiver.document),
    ("receiver_type", .optional .text call.receiverType), ("scope", call.visible.document),
    ("state", .text call.state.name), ("statement", .text call.statement)]

def ResolutionSummary.document (summary : ResolutionSummary) : Document :=
  .record [
    ("ambiguous", .number summary.ambiguous), ("attempted", .number summary.attempted),
    ("linked", .number summary.linked), ("unique", .number summary.unique),
    ("unresolved", .number summary.unresolved)]

def Config.document (config : Config) : Document :=
  .record [
    ("link_ambiguous_to_first", .flag config.linkAmbiguous),
    ("link_resolved_invocations", .flag config.linkUnique),
    ("max_file_size", .number config.maxFileSize), ("parallel", .flag config.parallel),
    ("parallel_workers", .optional .number config.workers),
    ("record_statements", .flag config.recordStatements),
    ("resolve_deferred", .flag config.resolveDeferred)]

end JavaFacts
