import JavaFacts.Proofs.Outline.Parts
import JavaFacts.Proofs.Outline.Trace
import JavaFacts.Proofs.Outline.Visit

/-!
The law that the plan of a unit obeys. What a walk asks for is about types that it declared and
methods that it entered before, and has a name that a part of the tree gives.
-/

namespace JavaFacts

namespace Event

/-- The entities that an event declares. -/
def placed : Event → List Identity
  | method name .. => [(.method, name)]
  | parameters _ listed => listed.map fun parameter => (.parameter, parameter.name)
  | field name .. => [(.field, name)]
  | localVariable name .. => [(.localVariable, name)]
  | _ => []

/-- The methods whose bodies come behind an event. -/
def entered : Event → List String
  | parameters owner _ => [owner]
  | host type marker => [Naming.initializerName type marker]
  | _ => []

end Event

namespace Step

def placed : Step → List Identity
  | ⟨.declareType _ _ _ _, name⟩ => [(.type, name)]
  | ⟨.record event, _⟩ => event.placed
  | _ => []

def entered : Step → List String
  | ⟨.record event, _⟩ => event.entered
  | _ => []

end Step

/-- The entities that the steps declare, in order. -/
def placedBy (history : List Step) : List Identity :=
  history.flatMap Step.placed

def enteredBy (history : List Step) : List String :=
  history.flatMap Step.entered

/-- Whether the last step declares the entity. -/
def JustPlaced (history : List Step) (identity : Identity) : Prop :=
  ∃ before step, history = before ++ [step] ∧ step.placed = [identity]

section History

variable {history later : List Step}

theorem placedBy_subset (grown : history <+: later) : placedBy history ⊆ placedBy later := by
  obtain ⟨steps, rfl⟩ := grown
  rw [placedBy, placedBy, List.flatMap_append]
  exact List.subset_append_left _ _

theorem enteredBy_subset (grown : history <+: later) : enteredBy history ⊆ enteredBy later := by
  obtain ⟨steps, rfl⟩ := grown
  rw [enteredBy, enteredBy, List.flatMap_append]
  exact List.subset_append_left _ _

theorem placedBy_append_singleton (step : Step) :
    placedBy (history ++ [step]) = placedBy history ++ step.placed := by
  simp [placedBy]

theorem enteredBy_append_singleton (step : Step) :
    enteredBy (history ++ [step]) = enteredBy history ++ step.entered := by
  simp [enteredBy]

theorem dropLast_grown (grown : history <+: later) : history.dropLast <+: later.dropLast := by
  have shorter : history.length - 1 ≤ later.length - 1 := Nat.sub_le_sub_right grown.length_le 1
  obtain ⟨steps, rfl⟩ := grown
  have same : (history ++ steps).take (history.length - 1) = history.take (history.length - 1) :=
    List.take_append_of_le_length (Nat.sub_le _ 1)
  rw [List.dropLast_eq_take, List.dropLast_eq_take, ← same]
  exact List.take_prefix_take_left shorter

theorem mem_placedBy_of_dropLast {identity : Identity}
    (known : identity ∈ placedBy history.dropLast) : identity ∈ placedBy history := by
  have shorter : history.dropLast <+: history := List.dropLast_prefix history
  exact placedBy_subset shorter known

end History

/-- Name of a method that a walk enters in a type. -/
inductive NamedMethod (parts : List Part) (type : String) : String → Prop where
  | declared {header : MethodHeader} : .method header ∈ parts →
      NamedMethod parts type
        (Naming.methodName type header.name header.isConstructor (Walk.parameterTypes header))
  | host {marker : String} : marker ∈ [Naming.instanceInitializer, Naming.staticInitializer] →
      NamedMethod parts type (Naming.initializerName type marker)

/-- What the law for a unit depends on. -/
structure Setting where
  origin : Origin
  parts : List Part
  /-- Whether a type of that name may be declared inside a type, or outside of all types. -/
  nests : Option String → String → Prop

def Event.Obeys (setting : Setting) (history : List Step) : Event → Prop
  | supertypes links => ∃ type, JustPlaced history (.type, type) ∧
      ∀ link ∈ links, link.kind.isHierarchy ∧ link.source = type
  | method name _ type _ modifiers parameterTypes => (.type, type) ∈ placedBy history.dropLast ∧
      ∃ header, .method header ∈ setting.parts ∧ modifiers = header.modifiers ∧
        parameterTypes = Walk.parameterTypes header ∧
        name = Naming.methodName type header.name header.isConstructor parameterTypes
  | parameters owner listed => JustPlaced history (.method, owner) ∧
      ∃ header, .method header ∈ setting.parts ∧
        ∀ parameter ∈ listed, ∃ formal ∈ header.parameters,
          parameter.name = owner ++ "." ++ formal.name
  | host type marker => (.type, type) ∈ placedBy history.dropLast ∧
      marker ∈ [Naming.instanceInitializer, Naming.staticInitializer]
  | constructor type => (.type, type) ∈ placedBy history.dropLast
  | anonymousConstructor type _ link => (.type, type) ∈ placedBy history.dropLast ∧
      link.kind = .invocation ∧ link.source ∈ enteredBy history
  | field name _ owner _ _ _ => (.type, owner) ∈ placedBy history.dropLast ∧
      ∃ simple, .field simple ∈ setting.parts ∧ name = Naming.fieldName owner simple
  | localVariable name _ owner => owner ∈ enteredBy history ∧
      ∃ simple, .localVariable simple ∈ setting.parts ∧
        (name = owner ++ "." ++ simple ∨
          ∃ ordinal : Nat, name = owner ++ "." ++ simple ++ "#" ++ toString ordinal)
  | localType name _ _ _ => JustPlaced history (.localVariable, name)
  | access type name link => link.kind = .access ∧ link.source ∈ enteredBy history ∧
      link.target = Naming.fieldName type name
  | check link => (link.kind = .castTo ∨ link.kind = .instanceCheck) ∧
      link.source ∈ enteredBy history
  | call type name _ _ link => (∃ binding, .call (some binding) ∈ setting.parts ∧
        Naming.boundMethodName? binding = some (type, name)) ∧
      link.kind = .invocation ∧ link.source ∈ enteredBy history ∧ link.target = name

def Request.Obeys (setting : Setting) (history : List Step) : Request → Prop
  | declareType naming _ owner _ => ∀ name, naming.Gives name →
      (owner = (.package, setting.origin.packageName) ∧ setting.nests none name) ∨
      ∃ outer, (.type, outer) ∈ placedBy history.dropLast ∧ setting.nests (some outer) name ∧
        (owner = (.type, outer) ∨ ∃ method, owner = (.method, method) ∧
          method ∈ enteredBy history ∧ NamedMethod setting.parts outer method)
  | record event => event.Obeys setting history
  | isInterface type => (.type, type) ∈ placedBy history.dropLast
  | superclass type => (.type, type) ∈ placedBy history.dropLast
  | visible method localBlocks _ _ => method ∈ enteredBy history ∧
      ∀ name, localBlocks name ≠ none → (.localVariable, name) ∈ placedBy history

/-- A standing fits what happened before. -/
structure Standing.Fits (setting : Setting) (history : List Step) (standing : Standing) : Prop where
  types : ∀ type ∈ standing.types, (.type, type) ∈ placedBy history.dropLast ∧
    ∃ outer, setting.nests outer type
  nested : standing.types.Pairwise fun inner outer => setting.nests (some outer) inner
  methods : ∀ method ∈ standing.methods, method.name ∈ enteredBy history ∧
    method.declaringType ∈ standing.types ∧
    NamedMethod setting.parts method.declaringType method.name
  localBlocks : ∀ name, standing.localBlocks name ≠ none →
    (.localVariable, name) ∈ placedBy history

theorem Standing.Fits.extended {setting : Setting} {history later : List Step} {standing : Standing}
    (fits : standing.Fits setting history) (grown : history <+: later) :
    standing.Fits setting later where
  types type member :=
    ⟨placedBy_subset (dropLast_grown grown) (fits.types type member).1, (fits.types type member).2⟩
  nested := fits.nested
  methods method member :=
    ⟨enteredBy_subset grown (fits.methods method member).1, (fits.methods method member).2⟩
  localBlocks name placed := placedBy_subset grown (fits.localBlocks name placed)

theorem Standing.Fits.step {setting : Setting} {history : List Step} {standing : Standing}
    (fits : standing.Fits setting history) (step : Step) :
    standing.Fits setting (history ++ [step]) :=
  fits.extended (List.prefix_append _ _)

/-- The types around a place are those that the tree has there. -/
def Around.Fits (types : List String) : Around → Prop
  | outside => types = []
  | named header => ∃ type outer, types = type :: outer ∧
      ∀ name, header.binding.bind Naming.bindingName? = some name → type = name
  | anonymous => types ≠ []

/-- The parts of the tree give types names that nest. -/
structure Setting.Sound (setting : Setting) : Prop where
  trans : ∀ {outer middle inner}, setting.nests (some outer) middle →
    setting.nests (some middle) inner → setting.nests (some outer) inner
  type : ∀ {around header}, .type around header ∈ setting.parts → ∀ standing : Standing,
    around.Fits standing.types → (∀ type ∈ standing.types, ∃ outer, setting.nests outer type) →
    ∀ name, (standing.naming setting.origin header).Gives name →
      setting.nests standing.types.head? name
  anonymousClass : ∀ {binding}, .anonymousClass binding ∈ setting.parts → ∀ enclosing ordinal,
    (∃ outer, setting.nests outer enclosing) →
    setting.nests (some enclosing)
      ((binding.bind Naming.bindingName?).getD (Naming.anonymousName enclosing ordinal))

namespace Outline

/-- What an action that obeys the law leaves behind. It comes back between the same types and methods. -/
structure Onward (setting : Setting) (history : List Step) (standing : Standing) (later : List Step)
    (after : Standing) : Prop where
  grown : history <+: later
  fits : after.Fits setting later
  types : after.types = standing.types
  methods : after.methods = standing.methods

/-- From a standing that fits the action only asks what is lawful, and gives what is told of it. -/
def Keeps (setting : Setting) (history : List Step) (standing : Standing) (action : Outline α)
    (reached : α → List Step → Prop) : Prop :=
  (action setting.origin standing).Lawful (Request.Obeys setting) (fun later (result, after) =>
    Onward setting history standing later after ∧ ∀ value, result = some value → reached value later)
    history

/-- The same where it does not matter what the action gives. -/
abbrev Abides (setting : Setting) (history : List Step) (standing : Standing) (action : Outline α) :
    Prop :=
  Keeps setting history standing action fun _ _ => True

section

variable {setting : Setting} {history middle later : List Step} {standing between after : Standing}

theorem Onward.refl (fits : standing.Fits setting history) :
    Onward setting history standing history standing :=
  ⟨List.prefix_rfl, fits, rfl, rfl⟩

theorem Onward.trans (first : Onward setting history standing middle between)
    (rest : Onward setting middle between later after) : Onward setting history standing later after :=
  ⟨first.grown.trans rest.grown, rest.fits, rest.types.trans first.types,
    rest.methods.trans first.methods⟩

end

namespace Keeps

variable {setting : Setting} {history : List Step} {standing : Standing} {reached : α → List Step → Prop}

theorem bind {action : Outline β} {next : β → Outline α} {between : β → List Step → Prop}
    (first : Keeps setting history standing action between)
    (rest : ∀ value later after, Onward setting history standing later after → between value later →
      Keeps setting later after (next value) reached) :
    Keeps setting history standing (action >>= next) reached := by
  refine Plan.Lawful.bind first fun later result good => ?_
  obtain ⟨value | value, after⟩ := result
  · exact ⟨good.1, fun _ => (nomatch ·)⟩
  · exact Plan.Lawful.weaken (rest value later after good.1 (good.2 value rfl)) fun _ _ ended =>
      ⟨good.1.trans ended.1, ended.2⟩

theorem andThen {action : Outline β} {next : β → Outline α}
    (first : Abides setting history standing action)
    (rest : ∀ value later after, Onward setting history standing later after →
      Keeps setting later after (next value) reached) :
    Keeps setting history standing (action >>= next) reached :=
  .bind first fun value later after onward _ => rest value later after onward

/-- An action depends on the standing only. -/
theorem fromStanding {next : Standing → Outline α}
    (rest : Keeps setting history standing (next standing) reached) :
    Keeps setting history standing (Outline.standing >>= next) reached :=
  rest

theorem fromOrigin {next : Origin → Outline α}
    (rest : Keeps setting history standing (next setting.origin) reached) :
    Keeps setting history standing (Outline.origin >>= next) reached :=
  rest

theorem pure {value : α} (fits : standing.Fits setting history) (here : reached value history) :
    Keeps setting history standing (Pure.pure value) reached :=
  ⟨.refl fits, fun _ same => Option.some.inj same ▸ here⟩

theorem fromCurrentType {next : String → Outline α} (fits : standing.Fits setting history)
    (rest : ∀ type, standing.types.head? = some type →
      Keeps setting history standing (next type) reached) :
    Keeps setting history standing (Outline.currentType >>= next) reached := by
  obtain ⟨types, methods⟩ := standing
  cases types with
  | nil => exact ⟨.refl fits, fun _ => (nomatch ·)⟩
  | cons type outer => exact rest type rfl

theorem fromCurrentMethod {next : MethodStanding → Outline α} (fits : standing.Fits setting history)
    (rest : ∀ method ∈ standing.methods, Keeps setting history standing (next method) reached) :
    Keeps setting history standing (Outline.currentMethod >>= next) reached := by
  obtain ⟨types, methods, blocks⟩ := standing
  cases methods with
  | nil => exact ⟨.refl fits, fun _ => (nomatch ·)⟩
  | cons method outer => exact rest method List.mem_cons_self

theorem asking {request : Request} {next : request.Answer → Outline α}
    (lawful : request.Obeys setting history)
    (rest : ∀ answer, request.Gives answer →
      Keeps setting (history ++ [⟨request, answer⟩]) standing (next answer) reached) :
    Keeps setting history standing (Outline.ask request >>= next) reached :=
  ⟨lawful, fun answer gives => Plan.Lawful.weaken (rest answer gives) fun _ _ ended =>
    ⟨{ ended.1 with grown := (List.prefix_append _ _).trans ended.1.grown }, ended.2⟩⟩

theorem recording {event : Event} {next : Unit → Outline α} (lawful : event.Obeys setting history)
    (rest : Keeps setting (history ++ [⟨.record event, ()⟩]) standing (next ()) reached) :
    Keeps setting history standing (Outline.record event >>= next) reached :=
  asking lawful fun _ _ => rest

theorem record {event : Event} {reached : Unit → List Step → Prop}
    (fits : standing.Fits setting history) (lawful : event.Obeys setting history)
    (here : reached () (history ++ [⟨.record event, ()⟩])) :
    Keeps setting history standing (Outline.record event) reached :=
  ⟨lawful, fun _ _ => ⟨⟨List.prefix_append _ _, fits.step _, rfl, rfl⟩, fun _ _ => here⟩⟩

/-- A change of the counters and of what is kept. -/
theorem changing {change : Standing → Standing} {next : Unit → Outline α}
    (types : (change standing).types = standing.types)
    (methods : (change standing).methods = standing.methods)
    (rest : Keeps setting history (change standing) (next ()) reached) :
    Keeps setting history standing (Outline.change change >>= next) reached :=
  Plan.Lawful.weaken rest fun _ _ ended =>
    ⟨{ ended.1 with types := ended.1.types.trans types, methods := ended.1.methods.trans methods },
      ended.2⟩

/-- An action between two changes of the standing that undo each other. -/
theorem inside {enter leave : Standing → Standing} {action : Outline Unit}
    (fits : standing.Fits setting history)
    (types : ∀ after : Standing, after.types = (enter standing).types →
      (leave after).types = standing.types)
    (methods : ∀ after : Standing, after.methods = (enter standing).methods →
      (leave after).methods = standing.methods)
    (localBlocks : ∀ after : Standing, (leave after).localBlocks = after.localBlocks)
    (within : Abides setting history (enter standing) action) :
    Abides setting history standing (Outline.inside enter leave action) := by
  refine Plan.Lawful.bind within fun later result good => ?_
  obtain ⟨value, after⟩ := result
  obtain ⟨onward, -⟩ := good
  have sameTypes := types after onward.types
  have sameMethods := methods after onward.methods
  have fits := fits.extended onward.grown
  refine ⟨⟨onward.grown, ?_, sameTypes, sameMethods⟩, fun _ _ => trivial⟩
  exact {
    types := sameTypes ▸ fits.types
    nested := sameTypes ▸ fits.nested
    methods := sameTypes ▸ sameMethods ▸ fits.methods
    localBlocks := fun name placed => onward.fits.localBlocks name (localBlocks after ▸ placed) }

theorem visiting {action : Outline Unit} (visited : Abides setting history standing action) :
    Abides setting history standing (Outline.visiting action) :=
  Plan.Lawful.bind visited fun _ _ good => ⟨good.1, fun _ _ => trivial⟩

end Keeps

end Outline

end JavaFacts
