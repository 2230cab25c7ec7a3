import JavaFacts.Extraction.Unit

/-!
What a qualifier of `super` tells is lost. A tree keeps the qualifier of `Outer.super.name` and of
`Outer.super.name(..)`, but no walk reads it: at any depth of nested types the two mean what `super`
means there.
-/

namespace JavaFacts

namespace Node

mutual

/-- The tree with plain `super` wherever `super` has a qualifier. -/
def unqualified : Node → Node
  | type span header body => type span header (unqualifiedAll body)
  | method span header body => method span header (unqualifiedOption body)
  | fields span header declared => fields span header (unqualifiedVariables declared)
  | initializer span isStatic body => initializer span isStatic (unqualified body)
  | block span statements => block span (unqualifiedAll statements)
  | locals span header declared => locals span header (unqualifiedVariables declared)
  | call span header receiver arguments =>
      call span header (unqualifiedOption receiver) (unqualifiedAll arguments)
  | superCall span header _ arguments => superCall span header none (unqualifiedAll arguments)
  | ownConstructor span binding arguments => ownConstructor span binding (unqualifiedAll arguments)
  | superConstructor span binding receiver arguments =>
      superConstructor span binding (unqualifiedOption receiver) (unqualifiedAll arguments)
  | creation span created binding receiver arguments anonymous =>
      creation span created binding (unqualifiedOption receiver) (unqualifiedAll arguments)
        (unqualifiedClass anonymous)
  | field span name binding receiver => field span name binding (unqualified receiver)
  | superField span name binding _ => superField span name binding none
  | qualified span name binding qualifier => qualified span name binding (unqualified qualifier)
  | simple span name binding => simple span name binding
  | this span qualifier known => this span qualifier known
  | cast span target operand => cast span target (unqualified operand)
  | instanceCheck span tested known operand => instanceCheck span tested known (unqualified operand)
  | expression span known declares inner => expression span known declares (unqualifiedAll inner)
termination_by structural node => node

def unqualifiedAll : List Node → List Node
  | [] => []
  | node :: rest => unqualified node :: unqualifiedAll rest
termination_by structural nodes => nodes

def unqualifiedOption : Option Node → Option Node
  | none => none
  | some node => some (unqualified node)
termination_by structural node => node

def unqualifiedClass : Option AnonymousClass → Option AnonymousClass
  | none => none
  | some (.mk span binding body) => some (.mk span binding (unqualifiedAll body))
termination_by structural anonymous => anonymous

def unqualifiedVariables : List DeclaredVariable → List DeclaredVariable
  | [] => []
  | .mk declarator value :: declared =>
      .mk declarator (unqualifiedOption value) :: unqualifiedVariables declared
termination_by structural declared => declared

end

theorem unqualifiedAll_eq (nodes : List Node) : unqualifiedAll nodes = nodes.map unqualified := by
  induction nodes with
  | nil => rfl
  | cons node rest ih => rw [unqualifiedAll, ih, List.map_cons]

theorem unqualifiedOption_eq (node : Option Node) : unqualifiedOption node = node.map unqualified := by
  cases node <;> rfl

theorem binding_unqualifiedClass (anonymous : Option AnonymousClass) :
    (unqualifiedClass anonymous).bind (·.binding) = anonymous.bind (·.binding) := by
  rcases anonymous with _ | ⟨_, _, _⟩ <;> rfl

variable (node : Node)

@[simp] theorem span_unqualified : node.unqualified.span = node.span := by
  cases node <;> rfl

@[simp] theorem kindName_unqualified : node.unqualified.kindName = node.kindName := by
  cases node <;> rfl

@[simp] theorem type?_unqualified : node.unqualified.type? = node.type? := by
  cases node with
  | creation => rw [unqualified, type?, type?, binding_unqualifiedClass]
  | _ => rfl

@[simp] theorem name?_unqualified (node : Node) : node.unqualified.name? = node.name? := by
  cases node with
  | qualified _ _ _ qualifier => rw [unqualified, name?, name?, name?_unqualified qualifier]
  | _ => rfl
termination_by structural node

end Node

namespace Walk

variable (span : Span) (kind : CallKind) (name : String) (arguments : List Node)

theorem visiting_unqualified (node : Node) (action : Walk Unit) :
    visiting node.unqualified action = visiting node action := by
  have warned : skipWarning node.unqualified = skipWarning node := by
    unfold skipWarning
    rw [Node.kindName_unqualified]
  have skipped : skip node.unqualified = skip node := by
    funext fault
    rw [skip, skip, Node.span_unqualified, warned]
  rw [visiting, visiting, skipped]

theorem summarize_unqualified (node : Node) : summarize node.unqualified = summarize node := by
  rw [summarize, summarize, Node.type?_unqualified, Node.span_unqualified, Node.name?_unqualified]

theorem linkBound_unqualified (binding : Option MethodBinding) :
    linkBound span binding (arguments.map Node.unqualified) = linkBound span binding arguments := by
  have same : (arguments.map Node.unqualified).all (fun argument => isResolved argument.type?) =
      arguments.all fun argument => isResolved argument.type? := by
    simp [List.all_map, Function.comp_def]
  cases binding with
  | none => rfl
  | some binding => simp only [linkBound, same]

theorem mapM_unqualified {α : Type} {action : Node → Walk α}
    (same : ∀ node : Node, action node.unqualified = action node) :
    (arguments.map Node.unqualified).mapM action = arguments.mapM action := by
  induction arguments with
  | nil => rfl
  | cons argument arguments ih => rw [List.map_cons, List.mapM_cons, List.mapM_cons, same, ih]

theorem refer_unqualified (binding : Option MethodBinding) (receiver : Walk Receiver) :
    refer span kind name binding (arguments.map Node.unqualified) receiver =
      refer span kind name binding arguments receiver := by
  have deferred (receiver : Receiver) :
      defer span kind name receiver (arguments.map Node.unqualified) =
        defer span kind name receiver arguments := by
    rw [defer, defer, mapM_unqualified arguments summarize_unqualified]
  rw [refer, refer, linkBound_unqualified]
  simp only [deferred]

theorem receiverOf_unqualified (receiver : Option Node) :
    receiverOf (receiver.map Node.unqualified) = receiverOf receiver := by
  cases receiver with
  | none => rfl
  | some receiver =>
      have same := congrArg (Receiver.expression <$> ·) (summarize_unqualified receiver)
      cases receiver with
      | this => rfl
      | _ => exact same

theorem accessField_unqualified (binding : Option VariableBinding) (receiver : Node) :
    accessField span name binding receiver.unqualified = accessField span name binding receiver := by
  cases binding with
  | some binding => rfl
  | none => cases receiver <;> rfl

theorem createAnonymous_unqualified (created : TypeUse) (bodySpan : Span)
    (binding : Option TypeBinding) :
    createAnonymous span created (arguments.map Node.unqualified) bodySpan binding =
      createAnonymous span created arguments bodySpan binding := by
  have same (node : Node) : argumentType node.unqualified = argumentType node := by
    rw [argumentType, argumentType, summarize_unqualified]
  rw [createAnonymous, createAnonymous, mapM_unqualified arguments same]

mutual

theorem handle_unqualified (node : Node) : handle node.unqualified = handle node := by
  cases node with
  | type span header body =>
      rw [Node.unqualified, handle, handle, visitAll_unqualified body]
  | method span header body =>
      rw [Node.unqualified, handle, handle, visitOption_unqualified body]
  | fields span header declared =>
      have same (type : TypeFrame) (isStatic : Bool) :=
        visitFields_unqualified type header isStatic declared
      simp only [Node.unqualified, handle, same]
  | initializer span isStatic body =>
      rw [Node.unqualified, handle, handle, visiting_unqualified, handle_unqualified body]
  | block span statements =>
      rw [Node.unqualified, handle, handle, visitAll_unqualified statements]
  | locals span header declared =>
      rw [Node.unqualified, handle, handle, visitLocals_unqualified header declared]
  | call span header receiver arguments =>
      rw [Node.unqualified, handle, handle, visitOption_unqualified receiver,
        visitAll_unqualified arguments, Node.unqualifiedAll_eq, Node.unqualifiedOption_eq,
        refer_unqualified, receiverOf_unqualified]
  | superCall span header qualifier arguments =>
      rw [Node.unqualified, handle, handle, visitAll_unqualified arguments, Node.unqualifiedAll_eq,
        refer_unqualified]
  | ownConstructor span binding arguments =>
      rw [Node.unqualified, handle, handle, visitAll_unqualified arguments, Node.unqualifiedAll_eq,
        refer_unqualified]
  | superConstructor span binding receiver arguments =>
      rw [Node.unqualified, handle, handle, visitOption_unqualified receiver,
        visitAll_unqualified arguments, Node.unqualifiedAll_eq, refer_unqualified]
  | creation span created binding receiver arguments anonymous =>
      rcases anonymous with _ | ⟨bodySpan, bodyBinding, body⟩
      · rw [Node.unqualified, Node.unqualifiedClass, handle, handle, visitOption_unqualified receiver,
          visitAll_unqualified arguments, Node.unqualifiedAll_eq, refer_unqualified]
      · rw [Node.unqualified, Node.unqualifiedClass, handle, handle, visitOption_unqualified receiver,
          visitAll_unqualified arguments, visitAll_unqualified body, Node.unqualifiedAll_eq arguments,
          createAnonymous_unqualified]
  | field span name binding receiver =>
      rw [Node.unqualified, handle, handle, accessField_unqualified, visiting_unqualified,
        handle_unqualified receiver]
  | superField span name binding qualifier => rfl
  | qualified span name binding qualifier =>
      rw [Node.unqualified, handle, handle, visiting_unqualified, handle_unqualified qualifier]
  | simple span name binding => rfl
  | this span qualifier type => rfl
  | cast span target operand =>
      rw [Node.unqualified, handle, handle, visiting_unqualified, handle_unqualified operand]
  | instanceCheck span tested type operand =>
      rw [Node.unqualified, handle, handle, visiting_unqualified, handle_unqualified operand]
  | expression span type declares children =>
      have same := visitAll_unqualified children
      cases declares <;> simp only [Node.unqualified, handle, same]
termination_by structural node

theorem visitAll_unqualified (nodes : List Node) :
    visitAll (Node.unqualifiedAll nodes) = visitAll nodes := by
  cases nodes with
  | nil => rfl
  | cons node nodes =>
      rw [Node.unqualifiedAll, visitAll, visitAll, visiting_unqualified, handle_unqualified node,
        visitAll_unqualified nodes]
termination_by structural nodes

theorem visitOption_unqualified (node : Option Node) :
    visitOption (Node.unqualifiedOption node) = visitOption node := by
  cases node with
  | none => rfl
  | some node =>
      rw [Node.unqualifiedOption, visitOption, visitOption, visiting_unqualified,
        handle_unqualified node]
termination_by structural node

theorem visitFields_unqualified (type : TypeFrame) (header : VariablesHeader) (isStatic : Bool)
    (declared : List DeclaredVariable) :
    visitFields type header isStatic (Node.unqualifiedVariables declared) =
      visitFields type header isStatic declared := by
  cases declared with
  | nil => rfl
  | cons first declared =>
      have others := visitFields_unqualified type header isStatic declared
      obtain ⟨declarator, value⟩ := first
      cases value with
      | none => rw [Node.unqualifiedVariables, visitFields, visitFields, others]; rfl
      | some node =>
          rw [Node.unqualifiedVariables, visitFields, visitFields, others,
            Node.unqualifiedOption]
          simp only [visiting_unqualified, handle_unqualified node]
termination_by structural declared

theorem visitLocals_unqualified (header : VariablesHeader) (declared : List DeclaredVariable) :
    visitLocals header (Node.unqualifiedVariables declared) = visitLocals header declared := by
  cases declared with
  | nil => rfl
  | cons first declared =>
      obtain ⟨declarator, value⟩ := first
      rw [Node.unqualifiedVariables, visitLocals, visitLocals, visitOption_unqualified value,
        visitLocals_unqualified header declared]
termination_by structural declared

end

end Walk

/-- The same facts, the same report and the same warnings come of a unit if every `super` with a
qualifier is replaced by `super` alone. -/
theorem CompilationUnit.extract_unqualified (unit : CompilationUnit) (config : Config) (store : Store) :
    ({ unit with types := unit.types.map Node.unqualified }).extract config store =
      unit.extract config store := by
  have visited : (unit.types.map Node.unqualified).forM Walk.visit = unit.types.forM Walk.visit := by
    induction unit.types with
    | nil => rfl
    | cons node nodes ih =>
        have first : Walk.visit node.unqualified = Walk.visit node := by
          rw [Walk.visit, Walk.visit, Walk.visiting_unqualified, Walk.handle_unqualified]
        simp only [List.map_cons, List.forM, first, ih]
  have walked : ({ unit with types := unit.types.map Node.unqualified }).walk config store =
      unit.walk config store := by
    rw [walk, walk]
    dsimp only
    rw [visited]
  rw [extract, extract, walked]
  rfl

end JavaFacts
