import JavaFacts.Extraction.Types
import JavaFacts.Proofs.Facts.Changes

/-!
What a walk asks of the facts, in order. A plan is a tree: it goes on from a request with the answer
that it gets. Plans speak of names only, so that one plan can be run on the facts of different
stores.
-/

namespace JavaFacts

/-- A parameter of a declared method. -/
structure ParameterEvent where
  name : String
  anchor : Anchor
  type : String
  detail : Detail

/-- Something that a walk records as a whole. -/
inductive Event where
  | supertypes (links : List Link)
  | method (name : String) (anchor : Anchor) (type : String) (returned : Option String)
      (modifiers : Modifiers) (parameterTypes : List String)
  | parameters (method : String) (parameters : List ParameterEvent)
  /-- The method that hosts initializers. -/
  | host (type marker : String)
  | constructor (type : String)
  | anonymousConstructor (type : String) (parameterTypes : List String) (call : Link)
  | field (name : String) (anchor : Anchor) (owner : String) (modifiers : Modifiers)
      (type signatureType : String)
  | localVariable (name : String) (anchor : Anchor) (method : String)
  /-- The type of a local variable. -/
  | localType (name : String) (modifiers : Modifiers) (type signatureType : String)
  | access (type field : String) (link : Link)
  | check (link : Link)
  | call (type name : String) (parameterTypes : List String) (returned : Option String) (link : Link)

/-- The flags of a method that hosts initializers. -/
def hostFlags (marker : String) : Modifiers :=
  if marker == Naming.staticInitializer then Modifiers.isSynthetic ∪ Modifiers.isStatic
  else Modifiers.isSynthetic

namespace Event

/-- The requests that an event consists of. -/
def changes : Event → List Change
  | supertypes links => links.flatMap fun link => [.ensureType link.target, .appendOnce link]
  | method name anchor type returned modifiers parameterTypes =>
      [.place (.method, name) anchor (.type, type)] ++
        (returned.map Change.ensureType).toList ++
        [.describe (.method, name)
          { modifiers, declaredType := returned, parameterTypes := some parameterTypes }]
  | parameters owner listed => listed.flatMap fun parameter =>
      [.place (.parameter, parameter.name) parameter.anchor (.method, owner),
        .ensureType parameter.type, .describe (.parameter, parameter.name) parameter.detail]
  | host type marker =>
      let initializer := (.method, Naming.initializerName type marker)
      [.adopt initializer (.type, type), .describe initializer { modifiers := hostFlags marker }]
  | constructor type => [.ensureConstructor type]
  | anonymousConstructor type parameterTypes link =>
      let name := Naming.methodName type "" true parameterTypes
      [.ensureMethod type name parameterTypes,
        .describe (.method, name) { modifiers := Modifiers.isSynthetic }, .append link]
  | field name anchor owner modifiers type signatureType =>
      [.place (.field, name) anchor (.type, owner), .describe (.field, name) { modifiers },
        .ensureType type, .describe (.field, name) { declaredType := type, signatureType }]
  | localVariable name anchor owner => [.place (.localVariable, name) anchor (.method, owner)]
  | localType name modifiers type signatureType =>
      [.describe (.localVariable, name) { modifiers }, .ensureType type,
        .describe (.localVariable, name) { declaredType := type, signatureType }]
  | access type name link => [.ensureField type name, .append link]
  | check link => [.ensureType link.target, .append link]
  | call type name parameterTypes returned link =>
      [.ensureMethod type name parameterTypes] ++
        (returned.map (Change.ensureReturnType name)).toList ++ [.append link]

end Event

/-- How a declared type gets its name. -/
inductive TypeNaming where
  | given (name : String)
  /-- The first number that is free stands between the two parts. -/
  | numbered (outer simple : String)

namespace TypeNaming

def numberedName (outer simple : String) (ordinal : Nat) : String :=
  outer ++ "$" ++ toString ordinal ++ simple

end TypeNaming

namespace Facts

/-- Whether a type of that name is declared at a place other than `anchor`. -/
def isTaken (facts : Facts) (anchor : Anchor) (name : String) : Bool :=
  (facts.anchor? (.type, name)).any (· != anchor)

/-- The first name from `ordinal` on that is not taken, looking at most at `steps` names. -/
def freeName (facts : Facts) (anchor : Anchor) (name : Nat → String) : Nat → Nat → String
  | 0, ordinal => name ordinal
  | steps + 1, ordinal =>
      if facts.isTaken anchor (name ordinal) then freeName facts anchor name steps (ordinal + 1)
      else name ordinal

def chosenName (facts : Facts) (anchor : Anchor) : TypeNaming → String
  | .given name => name
  | .numbered outer simple =>
      facts.freeName anchor (TypeNaming.numberedName outer simple) facts.known.length 1

def isInterface (facts : Facts) (type : String) : Bool :=
  (facts.lookup (.type, type)).any (·.modifiers.contains Modifiers.isInterface)

def superclass? (facts : Facts) (type : String) : Option String :=
  (facts.links.find? fun link => link.kind == .inheritance && link.source == type).map (·.target)

/-- The local variables of a method that a block declares and that end before `limit`. -/
def localsIn (facts : Facts) (method : String) (localBlocks : String → Option BlockId) (limit : Nat)
    (block : BlockId) : List Identity :=
  (facts.members (.method, method)).filter fun member =>
    member.1 == .localVariable && localBlocks member.2 == some block &&
      (facts.anchor? member).any (·.stop ≤ limit)

/-- The levels of the variables that are visible in a method, from the given blocks outwards. -/
def visible (facts : Facts) (method : String) (localBlocks : String → Option BlockId) (limit : Nat)
    (blocks : List BlockId) : List (List Identity) :=
  blocks.map (facts.localsIn method localBlocks limit) ++
    [(facts.members (.method, method)).filter (·.1 == .parameter)]

end Facts

/-- A request of a walk to the facts. -/
inductive Request where
  | declareType (naming : TypeNaming) (anchor : Anchor) (owner : Identity) (flags : Modifiers)
  | record (event : Event)
  | isInterface (type : String)
  | superclass (type : String)
  | visible (method : String) (localBlocks : String → Option BlockId) (limit : Nat)
      (blocks : List BlockId)

namespace Request

abbrev Answer : Request → Type
  | declareType .. => String
  | record _ => Unit
  | isInterface _ => Bool
  | superclass _ => Option String
  | visible .. => List (List Identity)

/-- The answer to a request and the facts behind it. -/
def perform (facts : Facts) : (request : Request) → Except Refusal (request.Answer × Facts)
  | declareType naming anchor owner flags =>
      let name := facts.chosenName anchor naming
      (facts.placed (.type, name) anchor owner).map fun placed =>
        (name, placed.detailed (.type, name) { modifiers := flags })
  | record event => (Change.applyAll facts event.changes).map ((), ·)
  | isInterface type => .ok (facts.isInterface type, facts)
  | superclass type => .ok (facts.superclass? type, facts)
  | visible method localBlocks limit blocks =>
      .ok (facts.visible method localBlocks limit blocks, facts)

end Request

inductive Plan (α : Type) where
  | done (result : α)
  | ask (request : Request) (next : request.Answer → Plan α)

namespace Plan

def bind (plan : Plan α) (next : α → Plan β) : Plan β :=
  match plan with
  | done result => next result
  | ask request rest => ask request fun answer => (rest answer).bind next

/-- The result of a plan and the facts behind it. It ends with the first request that is refused. -/
def run (facts : Facts) : Plan α → Except Refusal (α × Facts)
  | done result => .ok (result, facts)
  | ask request next => request.perform facts >>= fun answered => run answered.2 (next answered.1)

theorem run_bind (plan : Plan α) (next : α → Plan β) (facts : Facts) :
    (plan.bind next).run facts =
      (plan.run facts >>= fun reached => (next reached.1).run reached.2) := by
  induction plan generalizing facts with
  | done result => rfl
  | ask request rest ih =>
      rw [bind, run, run]
      cases request.perform facts with
      | ok answered => exact ih answered.1 answered.2
      | error refusal => rfl

end Plan

end JavaFacts
