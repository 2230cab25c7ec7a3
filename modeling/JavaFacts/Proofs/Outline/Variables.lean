import JavaFacts.Proofs.Extraction.Attribution
import JavaFacts.Proofs.Outline.Composition
import JavaFacts.Proofs.Outline.Told

/-!
What a walk does to a variable that is known. Only the declaration of a variable tells its types, and
one that stands at another place is refused before it tells them.
-/

namespace JavaFacts

namespace Plan

/-- Where a run finds facts of a kind, it leaves such facts behind, also if a request is refused. -/
def Preserves (holds : Facts → Prop) (plan : Plan α) : Prop :=
  ∀ facts, holds facts → holds (.ofOutcome (plan.run facts))

namespace Preserves

variable {holds : Facts → Prop}

theorem done {result : α} : (Plan.done result).Preserves holds :=
  fun _ held => held

theorem ask {request : Request} {next : request.Answer → Plan α}
    (kept : ∀ facts, holds facts →
      holds (Change.left (Change.applyAll facts (request.changes (request.answer facts)))))
    (rest : ∀ answer, (next answer).Preserves holds) : (Plan.ask request next).Preserves holds := by
  intro facts held
  have middle := kept facts held
  rw [run, request.perform_eq facts]
  cases applied : Change.applyAll facts (request.changes (request.answer facts)) with
  | ok after =>
      rw [applied] at middle
      exact rest _ after middle
  | error left =>
      rw [applied] at middle
      exact middle

theorem bind {plan : Plan α} {next : α → Plan β} (first : plan.Preserves holds)
    (rest : ∀ result, (next result).Preserves holds) : (plan.bind next).Preserves holds := by
  intro facts held
  have middle := first facts held
  rw [run_bind]
  cases ran : plan.run facts with
  | ok reached =>
      rw [ran] at middle
      exact rest reached.1 reached.2 middle
  | error left =>
      rw [ran] at middle
      exact middle

/-- An event that begins with the declaration of a known variable at another place is refused. -/
theorem refused {known : KnownVariable} {event : Event} {next : Unit → Plan α} {child owner : Identity}
    {anchor : Anchor} {changes : List Change} (same : known.identity = child)
    (declares : event.changes = .place child anchor owner :: changes)
    (elsewhere : anchor ≠ known.anchor) :
    (Plan.ask (.record event) next).Preserves (·.Has known) := by
  subst same
  intro facts has
  obtain ⟨after, refused, kept⟩ := has.refused elsewhere owner
  rw [run, Request.perform, declares, Change.applyAll, Change.apply, refused]
  exact kept

end Preserves

section Record

variable {event : Event} {next : Unit → Plan α} {facts middle : Facts}

theorem run_record (applied : Change.applyAll facts event.changes = .ok middle) :
    (ask (.record event) next).run facts = (next ()).run middle := by
  rw [run, Request.perform, applied]
  rfl

theorem exists_applied {result : α × Facts} (ran : (ask (.record event) next).run facts = .ok result) :
    ∃ middle, Change.applyAll facts event.changes = .ok middle := by
  cases applied : Change.applyAll facts event.changes with
  | ok middle => exact ⟨middle, rfl⟩
  | error left =>
      rw [run, Request.perform, applied] at ran
      cases ran

end Record

end Plan

namespace Node

/-- Whether the fields and local variables that are declared in a tree stand at other places. -/
def Spares (origin : Origin) (known : KnownVariable) (node : Node) : Prop :=
  ∀ inner ∈ node.nodes, ∀ span ∈ inner.variableSpans, origin.anchor span ≠ known.anchor

namespace Spares

variable {origin : Origin} {known : KnownVariable} {node : Node}

theorem own (spares : node.Spares origin known) :
    ∀ span ∈ node.variableSpans, origin.anchor span ≠ known.anchor :=
  spares node (node.nodes_eq ▸ List.mem_cons_self)

theorem children (spares : node.Spares origin known) :
    ∀ child ∈ node.children, child.Spares origin known := by
  intro child member inner listed
  refine spares inner ?_
  rw [node.nodes_eq]
  exact List.mem_cons_of_mem node (List.mem_flatMap.mpr ⟨child, member, listed⟩)

end Spares

end Node

theorem Origin.anchor_injective (origin : Origin) : Function.Injective origin.anchor := by
  rintro ⟨start, length⟩ ⟨start', length'⟩ same
  obtain ⟨-, starts, stops⟩ := Anchor.mk.inj same
  obtain rfl : start = start' := starts
  exact congrArg _ (Nat.add_left_cancel stops)

namespace DeclaredVariable

/-- Where the variables stand that are declared behind a declarator, by the later declarators and in
the initializers. -/
def spansBehind (initializer : Option Node) (later : List DeclaredVariable) : List Span :=
  later.map (·.declarator.span) ++
    ((initializer.toList ++ later.filterMap (·.initializer?)).flatMap Node.nodes).flatMap Node.variableSpans

variable {origin : Origin} {known : KnownVariable} {span : Span} {initializer : Option Node}
  {later : List DeclaredVariable}

theorem elsewhere_of_alone (here : known.anchor = origin.anchor span)
    (alone : span ∉ spansBehind initializer later) :
    ∀ other ∈ later.map (·.declarator.span), origin.anchor other ≠ known.anchor := by
  intro other member same
  obtain rfl := origin.anchor_injective (same.trans here)
  exact alone (List.mem_append_left _ member)

theorem spares_of_alone (here : known.anchor = origin.anchor span)
    (alone : span ∉ spansBehind initializer later) :
    ∀ node ∈ initializer.toList ++ later.filterMap (·.initializer?), node.Spares origin known := by
  intro node member inner listed other declared same
  obtain rfl := origin.anchor_injective (same.trans here)
  refine alone (List.mem_append_right _ (List.mem_flatMap.mpr ⟨inner, ?_, declared⟩))
  exact List.mem_flatMap.mpr ⟨node, member, listed⟩

end DeclaredVariable

namespace Outline

/-- From wherever it starts, the action leaves a known variable as it is. -/
def Leaves (known : KnownVariable) (origin : Origin) (action : Outline α) : Prop :=
  ∀ standing, (action origin standing).Preserves (·.Has known)

namespace Leaves

variable {known : KnownVariable} {origin : Origin}

theorem bind {action : Outline α} {next : α → Outline β} (first : Leaves known origin action)
    (rest : ∀ value, Leaves known origin (next value)) : Leaves known origin (action >>= next) := by
  refine fun standing => Plan.Preserves.bind (first standing) fun result => ?_
  obtain ⟨value | value, after⟩ := result
  · exact .done
  · exact rest value after

theorem fromOrigin {onward : Origin → Outline α} (rest : Leaves known origin (onward origin)) :
    Leaves known origin (Outline.origin >>= onward) :=
  rest

theorem fromStanding {onward : Standing → Outline α}
    (rest : ∀ standing, Leaves known origin (onward standing)) :
    Leaves known origin (Outline.standing >>= onward) :=
  fun standing => rest standing standing

theorem pure (value : α) : Leaves known origin (Pure.pure value) :=
  fun _ => .done

theorem lacking : Leaves known origin (Outline.lacking : Outline α) :=
  fun _ => .done

theorem change (change : Standing → Standing) : Leaves known origin (Outline.change change) :=
  fun _ => .done

theorem ask {request : Request} (untold : known.identity ∉ request.described) :
    Leaves known origin (Outline.ask request) :=
  fun _ => .ask (fun _ has => has.left (Request.describesLightly _ untold)) fun _ => .done

theorem record {event : Event} (untold : known.identity ∉ event.described) :
    Leaves known origin (Outline.record event) :=
  .ask untold

theorem inside {enter leave : Standing → Standing} {action : Outline Unit}
    (leaves : Leaves known origin action) : Leaves known origin (Outline.inside enter leave action) :=
  fun standing => .bind (leaves (enter standing)) fun _ => .done

theorem visiting {action : Outline Unit} (leaves : Leaves known origin action) :
    Leaves known origin (Outline.visiting action) :=
  fun standing => .bind (leaves standing) fun _ => .done

theorem currentType : Leaves known origin Outline.currentType := by
  refine .fromStanding fun standing => ?_
  split
  · exact .pure _
  · exact .lacking

theorem currentMethod : Leaves known origin Outline.currentMethod := by
  refine .fromStanding fun standing => ?_
  split
  · exact .pure _
  · exact .lacking

end Leaves

section Actions

variable {known : KnownVariable} {origin : Origin}

theorem declareField_leaves (type : String) (header : VariablesHeader) {declarator : Declarator}
    (elsewhere : origin.anchor declarator.span ≠ known.anchor) :
    Leaves known origin (declareField type header declarator) := by
  by_cases same : known.identity = (.field, Naming.fieldName type declarator.name)
  · exact fun _ => .refused same rfl elsewhere
  · exact .fromOrigin (.record fun told => same (List.mem_singleton.mp told))

theorem declareLocal_eq {standing : Standing} {method : MethodStanding} {around : List MethodStanding}
    (found : standing.methods = method :: around) (name : String) (span : Span) :
    declareLocal name span origin standing =
      .ask (.record (.localVariable (standing.localName method.name name) (origin.anchor span) method.name))
        fun _ => .done (some (standing.localName method.name name),
          (standing.countLocal method.name name).placeLocal (standing.localName method.name name)) := by
  unfold declareLocal
  rw [currentMethod_bind found]
  rfl

theorem declareLocal_lacking {standing : Standing} (found : standing.methods = []) (name : String)
    (span : Span) : declareLocal name span origin standing = .done (none, standing) := by
  unfold declareLocal
  rw [currentMethod_bind_lacking found]

/-- The types of a local variable are told right behind its declaration. -/
theorem declareTyped_leaves {name : String} {span : Span} (elsewhere : origin.anchor span ≠ known.anchor)
    (modifiers : Modifiers) (type signatureType : String) :
    Leaves known origin (do
      let unique ← declareLocal name span
      record (.localType unique modifiers type signatureType)) := by
  intro standing
  show Plan.Preserves _ (Plan.bind (declareLocal name span origin standing) _)
  rcases found : standing.methods with - | ⟨method, around⟩
  · rw [declareLocal_lacking found]
    exact .done
  · rw [declareLocal_eq found]
    by_cases same : known.identity = (.localVariable, standing.localName method.name name)
    · exact .refused same rfl elsewhere
    · refine .ask (fun _ has => ?_) fun _ => ?_
      · exact has.left (Request.describesLightly _ List.not_mem_nil)
      · exact Leaves.record (fun told => same (List.mem_singleton.mp told)) _

theorem declareVariable_leaves (header : VariablesHeader) {declarator : Declarator}
    (elsewhere : origin.anchor declarator.span ≠ known.anchor) :
    Leaves known origin (declareVariable header declarator) :=
  declareTyped_leaves elsewhere _ _ _

theorem declareInStatement_leaves {span : Span} (name : String) (use : TypeUse)
    (elsewhere : origin.anchor span ≠ known.anchor) :
    Leaves known origin (declareInStatement span name use) :=
  declareTyped_leaves elsewhere _ _ _

theorem typeBody_leaves (name : String) (isInterface : Bool) {members : Outline Unit}
    (leaves : Leaves known origin members) : Leaves known origin (typeBody name isInterface members) := by
  refine .inside ?_
  cases isInterface with
  | true => exact .bind leaves fun _ => .pure ()
  | false =>
      exact .bind (.record List.not_mem_nil) fun _ => .bind leaves fun _ => .record List.not_mem_nil

theorem declareType_leaves (span : Span) (header : TypeHeader) {members : Outline Unit}
    (leaves : Leaves known origin members) : Leaves known origin (declareType span header members) :=
  .fromOrigin (.fromStanding fun _ => .bind (.ask List.not_mem_nil) fun _ => .bind (.change _) fun _ =>
    .bind (.record List.not_mem_nil) fun _ => typeBody_leaves _ _ leaves)

theorem declareAnonymous_leaves (span : Span) (name : String) (supertype : TypeUse) :
    Leaves known origin (declareAnonymous span name supertype) := by
  have declared (owner : Identity) : Leaves known origin (do
      let origin ← Outline.origin
      let _ ← Outline.ask (.declareType (.given name) (origin.anchor span) owner Modifiers.isAnonymous)
      Outline.change (·.addType name)
      let isInterface := supertype.binding.any (·.isInterface)
      let kind := if isInterface then .subtyping else .inheritance
      Outline.record (.supertypes [origin.link kind name supertype.name supertype.span])) :=
    .fromOrigin (.bind (.ask List.not_mem_nil) fun _ => .bind (.change _) fun _ =>
      .record List.not_mem_nil)
  refine .fromStanding fun standing => ?_
  split
  · exact declared _
  · exact .bind .currentType fun _ => declared _

theorem createAnonymous_leaves (span : Span) (created : TypeUse) (arguments : List Node)
    (bodySpan : Span) (binding : Option TypeBinding) :
    Leaves known origin (createAnonymous span created arguments bodySpan binding) :=
  .bind .currentType fun _ => .fromStanding fun _ => .bind (.change _) fun _ =>
    .bind (declareAnonymous_leaves _ _ _) fun _ => .bind .currentMethod fun _ =>
    .fromOrigin (.bind (.record List.not_mem_nil) fun _ => .pure _)

theorem declareMethod_leaves (span : Span) (header : MethodHeader) {body : Outline Unit}
    (leaves : Leaves known origin body) : Leaves known origin (declareMethod span header body) := by
  refine .bind .currentType fun type => .fromOrigin (.bind (.record fun told => ?_) fun _ =>
    .inside (.bind (.record fun told => ?_) fun _ => leaves))
  · exact known.identity_ne _ (by decide) (by decide) (List.mem_singleton.mp told)
  · obtain ⟨parameter, -, same⟩ := List.mem_map.mp told
    exact known.identity_ne _ (by decide) (by decide) same.symm

theorem insideInitializer_leaves (type : String) (isStatic : Bool) {action : Outline Unit}
    (leaves : Leaves known origin action) :
    Leaves known origin (insideInitializer type isStatic action) :=
  .bind (.record List.not_mem_nil) fun _ => .inside leaves

end Actions

section Trees

variable {known : KnownVariable} {origin : Origin}

theorem sequential_leaves : Sequential (Leaves known origin) where
  bind := .bind
  pure := .pure
  origin _ := .done
  standing _ := .done
  currentType := .currentType
  currentMethod := .currentMethod
  ask {request} isQuery := by
    cases request with
    | isInterface | superclass | visible => exact .ask List.not_mem_nil
    | _ => exact isQuery.elim
  record {event} isLink := by
    cases event with
    | access | check | call => exact .record List.not_mem_nil
    | _ => exact isLink.elim
  change _ := .change _

/-- The visit of trees that declare their variables elsewhere leaves a variable as it is. -/
def LeavesSpared (known : KnownVariable) (origin : Origin) (nodes : List Node)
    (action : Outline Unit) : Prop :=
  (∀ node ∈ nodes, node.Spares origin known) → Leaves known origin action

theorem DeclaresEach.leaves {declare : Declarator → Outline Unit} {within : Outline Unit → Outline Unit}
    {declared : List DeclaredVariable} {action : Outline Unit}
    (declares : DeclaresEach (LeavesSpared known origin) declare within declared action)
    (declaring : ∀ {declarator : Declarator}, origin.anchor declarator.span ≠ known.anchor →
      Leaves known origin (declare declarator))
    (initializing : ∀ {visit : Outline Unit}, Leaves known origin visit →
      Leaves known origin (within visit))
    (elsewhere : ∀ span ∈ declared.map (·.declarator.span), origin.anchor span ≠ known.anchor)
    (spared : ∀ node ∈ declared.filterMap (·.initializer?), node.Spares origin known) :
    Leaves known origin action := by
  induction declares with
  | nil => exact .pure ()
  | bare _ ih =>
      obtain ⟨here, others⟩ := List.forall_mem_cons.mp elsewhere
      exact .bind (declaring here) fun _ => ih others spared
  | initialized visited _ ih =>
      obtain ⟨here, others⟩ := List.forall_mem_cons.mp elsewhere
      obtain ⟨inside, spared⟩ := List.forall_mem_cons.mp spared
      have visits := Leaves.visiting (visited (List.forall_mem_singleton.mpr inside))
      exact .bind (declaring here) fun _ => .bind (initializing visits) fun _ => ih others spared

theorem compositional_leaves : Compositional (LeavesSpared known origin) where
  nil _ := .pure ()
  cons visited visits spared := by
    obtain ⟨here, others⟩ := List.forall_mem_cons.mp spared
    exact .bind (.visiting (visited (List.forall_mem_singleton.mpr here))) fun _ => visits others
  type span header members spared := by
    have spares := List.forall_mem_singleton.mp spared
    exact declareType_leaves span header (members spares.children)
  method span header visited spared := by
    have spares := List.forall_mem_singleton.mp spared
    exact declareMethod_leaves span header (visited spares.children)
  fields span header declares spared := by
    have spares := List.forall_mem_singleton.mp spared
    refine .bind .currentType fun type => .bind (sequential_leaves.areStatic type _) fun isStatic => ?_
    exact (declares type isStatic).leaves (declareField_leaves type header)
      (insideInitializer_leaves type isStatic) spares.own spares.children
  initializer span isStatic visited spared := by
    have spares := List.forall_mem_singleton.mp spared
    exact .bind .currentType fun type =>
      insideInitializer_leaves type isStatic (.visiting (visited spares.children))
  block span visits spared := .inside (visits (List.forall_mem_singleton.mp spared).children)
  locals span header declares spared := by
    have spares := List.forall_mem_singleton.mp spared
    exact declares.leaves (declareVariable_leaves header) id spares.own spares.children
  creation span created binding bodySpan bodyBinding visits members spared := by
    have spares := List.forall_mem_singleton.mp spared
    obtain ⟨ahead, inBody⟩ := List.forall_mem_append.mp spares.children
    exact .bind (createAnonymous_leaves span created _ bodySpan bodyBinding) fun type =>
      .bind (visits ahead) fun _ => typeBody_leaves type false (members inBody)
  plain {node} isPlain visits spared := by
    have spares := List.forall_mem_singleton.mp spared
    have declares : ∀ span ∈ node.variableSpans, ∀ name use,
        Leaves known origin (declareInStatement span name use) :=
      fun span declared name use => declareInStatement_leaves name use (spares.own span declared)
    exact .bind (sequential_leaves.own node declares) fun _ => visits spares.children

variable (header : VariablesHeader) (declarator : Declarator)

/-- What comes behind a field when its declaration is traversed leaves the field as it is. -/
theorem visitFields_cons (type : String) (isStatic : Bool) {initializer : Option Node}
    {later : List DeclaredVariable} (here : known.anchor = origin.anchor declarator.span)
    (alone : declarator.span ∉ DeclaredVariable.spansBehind initializer later) :
    ∃ rest, Leaves known origin rest ∧
      visitFields type header isStatic (.mk declarator initializer :: later) =
        declareField type header declarator >>= fun _ => rest := by
  have elsewhere := DeclaredVariable.elsewhere_of_alone here alone
  obtain ⟨inside, spared⟩ := List.forall_mem_append.mp (DeclaredVariable.spares_of_alone here alone)
  have others : Leaves known origin (visitFields type header isStatic later) :=
    (compositional_leaves.visitFields type header isStatic later).leaves
      (declareField_leaves type header) (insideInitializer_leaves type isStatic) elsewhere spared
  rw [visitFields]
  refine ⟨_, ?_, rfl⟩
  cases initializer with
  | none => exact others
  | some node =>
      have visited := Leaves.visiting (compositional_leaves.handle node inside)
      exact .bind (insideInitializer_leaves type isStatic visited) fun _ => others

theorem visitLocals_cons {initializer : Option Node} {later : List DeclaredVariable}
    (here : known.anchor = origin.anchor declarator.span)
    (alone : declarator.span ∉ DeclaredVariable.spansBehind initializer later) :
    ∃ rest, Leaves known origin rest ∧
      visitLocals header (.mk declarator initializer :: later) =
        declareVariable header declarator >>= fun _ => rest := by
  have elsewhere := DeclaredVariable.elsewhere_of_alone here alone
  obtain ⟨inside, spared⟩ := List.forall_mem_append.mp (DeclaredVariable.spares_of_alone here alone)
  have others : Leaves known origin (visitLocals header later) :=
    (compositional_leaves.visitLocals header later).leaves
      (declareVariable_leaves header) id elsewhere spared
  rw [visitLocals, visitOption_eq]
  have visited := compositional_leaves.visitAll initializer.toList inside
  exact ⟨_, .bind visited fun _ => others, rfl⟩

end Trees

end Outline

end JavaFacts
