import JavaFacts.Proofs.Lowering.Lexical

/-!
What the variables of a program denote once it is lowered: where a tree does not declare a name
itself, the name means in it what it means in front of it.
-/

namespace JavaFacts.Lowering

variable {table : TypeTable}

/-- A simple name denotes the variable that was found in scope, if one was, and otherwise none. -/
def Denotes : Option (Option VariableBinding) → Option NameBinding → Prop
  | some entry, binding => binding = entry.map .ofVariable
  | none, binding => ∀ entry, binding ≠ some (.ofVariable entry)

/-- The simple names `name` in a tree denote what was found. -/
def DenotesIn (name : String) (found : Option (Option VariableBinding)) (node : Node) : Prop :=
  ∀ span binding, (Node.simple span name binding).Within node → Denotes found binding

/-- A place where a name denotes what was found. Compact constructors declare the components of the
record around them, so these must have other names. -/
structure Finds (name : String) (found : Option (Option VariableBinding)) (names : Names) :
    Prop where
  lookup : names.lookup name = found
  components : ∀ component ∈ names.components, component.name ≠ name

theorem denotes_binding? (table : TypeTable) (names : Names) (name : String) :
    Denotes (names.lookup name) (names.binding? table name) := by
  unfold Names.binding?
  cases names.lookup name with
  | some entry => rfl
  | none =>
      intro entry same
      obtain ⟨type, -, wrong⟩ := Option.map_eq_some_iff.mp same
      cases wrong

/-- What is asked of the simple names `name`. -/
def denoting (name : String) (found : Option (Option VariableBinding)) : Meaning :=
  .ofNames fun written binding => written = name → Denotes found binding

theorem steady_finds (table : TypeTable) (name : String) (found : Option (Option VariableBinding)) :
    Steady table (Finds name found) (· ≠ name) (denoting name found) where
  closed := Meaning.closed_ofNames _
  reads written here same := by
    subst same
    exact here.lookup ▸ denotes_binding? table _ written
  uses _ _ := trivial
  add here others :=
    ⟨(Names.lookup_add others).trans here.lookup, fun component member =>
      here.components component (Names.add_components ▸ member)⟩
  pushLevel here others := ⟨(Names.lookup_pushLevel others).trans here.lookup, here.components⟩
  pushType here := ⟨here.lookup, here.components⟩
  typeVariables here _ := ⟨here.lookup, here.components⟩
  components here others := ⟨here.lookup, fun component member => (others component member).1⟩
  component here component member := ⟨here.components component member, trivial⟩

/-- Only variables matter to the simple names. -/
theorem allows_of_absent {source : SourceText} {name : String} {tree : Concrete}
    (absent : ¬ tree.Introduces source name) :
    tree.Allows source (· ≠ name) fun _ => True where
  introduced _ introduced same := absent (same ▸ introduced)
  opened _ _ := trivial

theorem denotesIn_of_reads {name : String} {found : Option (Option VariableBinding)} {node : Node}
    (reads : node.Reads (denoting name found)) : DenotesIn name found node :=
  fun _ _ within => reads _ within rfl

variable {names : Names} {name : String}

/-- A name that a tree does not declare denotes in it and behind it what it denotes in front. -/
theorem lower_denotes (tree : Concrete) (absent : ¬ tree.Introduces table.source name)
    (components : ∀ component ∈ names.components, component.name ≠ name) :
    let ran := (lower table tree).run names
    ran.2.lookup name = names.lookup name ∧
      ∀ node ∈ ran.1, DenotesIn name (names.lookup name) node := by
  obtain ⟨⟨added, after, others⟩, reads⟩ :=
    lower_keeps (steady_finds table name _) tree (allows_of_absent absent) names ⟨rfl, components⟩
  exact ⟨after ▸ Names.lookup_add others, fun node member => denotesIn_of_reads (reads node member)⟩

/-- The variables of a statement, the last declared first. -/
def declaredLevel (type : TypeUse) (declared : List DeclaredVariable) : VariableLevel :=
  declared.reverse.map fun entry =>
    let declarator := entry.declarator
    (declarator.name, some (VariableBinding.localVariable declarator.name
      (type.withDimensions declarator.extraDimensions).binding))

theorem run_declareLocals (type : TypeUse) (declared : List DeclaredVariable) (names : Names) :
    ((declared.forM fun entry => declareLocal entry.declarator.name
      (type.withDimensions entry.declarator.extraDimensions)).run names).2 =
      names.add (declaredLevel type declared) := by
  induction declared generalizing names with
  | nil => exact Names.add_nil.symm
  | cons entry declared ih =>
      refine (ih _).trans ?_
      dsimp only
      rw [Names.declare_eq_add, Names.add_add]
      simp [declaredLevel]

theorem lower_localVariables {head : ConcreteHead} (children : Forest)
    (kind : head.kind = .localVariables) :
    lower table (.node head children) =
      some <$> localVariables table head children (declaredVariables table children) := by
  have literal : literalType? table.source head = none := by simp [literalType?, kind]
  rw [lower, literal]
  simp only [kind]

/-- No initializer in a declaration sees a variable of the same declaration, wherever in it the
variable stands: all of them are bound as in front of the statement, and behind the statement all
its variables are in scope. -/
theorem initializers_denote_outside {head : ConcreteHead} {children : Forest}
    (kind : head.kind = .localVariables)
    (absent : ∀ child ∈ children, ¬ child.Introduces table.source name)
    (components : ∀ component ∈ names.components, component.name ≠ name)
    (inCode : names.levels ≠ []) :
    let ran := (lower table (.node head children)).run names
    ∃ type declared,
      ran.1 = some (.locals (table.source.spanOf head) ⟨children.modifiers, type⟩ declared) ∧
      (∀ entry ∈ declared, ∀ node ∈ entry.initializer?,
        DenotesIn name (names.lookup name) node) ∧
      ran.2.lookup name = ((declaredLevel type declared).lookup name).or (names.lookup name) := by
  have steady := steady_finds table name (names.lookup name)
  have inside : ∀ child ∈ children, child.Allows table.source (· ≠ name) fun _ => True :=
    fun child member => allows_of_absent (absent child member)
  obtain ⟨⟨added, after, others⟩, reads, -⟩ :=
    declaredVariables_keeps steady children inside names ⟨rfl, components⟩
  rw [lower_localVariables children kind]
  refine ⟨_, _, rfl, fun entry member node found => ?_, ?_⟩
  · exact denotesIn_of_reads (reads node (List.mem_filterMap.mpr ⟨entry, member, found⟩))
  · refine (congrArg (Names.lookup · name) (run_declareLocals _ _ _)).trans ?_
    have behind : (declaredVariables table children names).2 = names.add added := after
    rw [behind, Names.add_add, Names.lookup_add_level inCode, List.lookup_append,
      others.lookup_eq_none, Option.or_none]

/-- A variable alone in a level hides all others of its name. -/
theorem finds_declared (components : ∀ component ∈ names.components, component.name ≠ name)
    (binding : Option VariableBinding) :
    Finds name (some binding) ((names.pushLevel []).declare name binding) := by
  refine ⟨?_, components⟩
  simp [Names.lookup, Names.declare, Names.pushLevel]

/-- In a level of its own a variable is what its name denotes, and behind the level it is gone. -/
theorem inLevel_denotes {body : Lowering (Option Node)} (type : TypeUse)
    (keeps : ∀ found, Keeps (Finds name found) (· ≠ name) body
      (ReadsOption (denoting name found)))
    (components : ∀ component ∈ names.components, component.name ≠ name) :
    let ran := (inLevel [] do
      declareLocal name type
      body).run names
    ran.2 = names ∧ ∀ node ∈ ran.1,
      DenotesIn name (some (some (VariableBinding.localVariable name type.binding))) node := by
  obtain ⟨⟨inner, behind, -⟩, reads⟩ := keeps _ _
    (finds_declared components (some (VariableBinding.localVariable name type.binding)))
  rw [Names.declare_eq_add, Names.add_add] at behind
  exact ⟨(congrArg Names.popLevel behind).trans (Names.popLevel_add_pushLevel []),
    fun node member => denotesIn_of_reads (reads node member)⟩

section

variable {head : ConcreteHead} {children : Forest}
  (absent : ∀ child ∈ children, ¬ child.Introduces table.source name)
  (components : ∀ component ∈ names.components, component.name ≠ name)
include absent components

/-- The variable of a loop is in scope in the body, and neither in the collection nor behind. -/
theorem loopVariable_denotes (kind : head.kind = .enhancedFor)
    (named : table.source.childText .name children = name) :
    let ran := (lower table (.node head children)).run names
    ∃ type collection body,
      ran.1 = some (.expression (table.source.spanOf head) none (some (name, type))
        (Option.toList collection ++ Option.toList body)) ∧
      (∀ node ∈ collection, DenotesIn name (names.lookup name) node) ∧
      (∀ node ∈ body,
        DenotesIn name (some (some (VariableBinding.localVariable name type.binding))) node) ∧
      ran.2.lookup name = names.lookup name := by
  have literal : literalType? table.source head = none := by simp [literalType?, kind]
  have lowered : lower table (.node head children) = some <$> enhancedFor table head children
      (lowerFirst table (·.hasRole .value) children)
      (lowerFirst table (·.hasRole .body) children) := by
    rw [lower, literal]
    simp only [kind]
  have inside : ∀ child ∈ children, child.Allows table.source (· ≠ name) fun _ => True :=
    fun child member => allows_of_absent (absent child member)
  have part (accepts : ConcreteHead → Bool) (found : Option (Option VariableBinding)) :=
    lowerFirst_keeps (steady_finds table name found) children inside accepts
  subst named
  obtain ⟨⟨added, after, others⟩, first⟩ := part (·.hasRole .value) _ names ⟨rfl, components⟩
  have unchanged : ((lowerFirst table (·.hasRole .value) children).run names).2.components =
      names.components := by rw [after, Names.add_components]
  let type := (table.typeOf names.scope head children).withDimensions children.extraDimensions
  have body := inLevel_denotes type (part (·.hasRole .body)) (unchanged ▸ components)
  rw [lowered]
  refine ⟨type, _, _, rfl, fun node member => denotesIn_of_reads (first node member), body.2, ?_⟩
  exact (congrArg (Names.lookup · _) (body.1.trans after)).trans (Names.lookup_add others)

/-- The variable of a catch clause is in scope in its body only. -/
theorem caughtVariable_denotes (kind : head.kind = .catchClause)
    (named : table.source.childText .name
      (((children.first? (· == .catchParameter)).map (·.children)).getD []) = name) :
    let ran := (lower table (.node head children)).run names
    ∃ type body,
      ran.1 = some (.expression (table.source.spanOf head) none (some (name, type))
        (Option.toList body)) ∧
      (∀ node ∈ body,
        DenotesIn name (some (some (VariableBinding.localVariable name type.binding))) node) ∧
      ran.2.lookup name = names.lookup name := by
  have literal : literalType? table.source head = none := by simp [literalType?, kind]
  have lowered : lower table (.node head children) = some <$> catchClause table head children
      (blockFirst table (·.hasRole .body) children) := by
    rw [lower, literal]
    simp only [kind]
  have inside : ∀ child ∈ children, child.Allows table.source (· ≠ name) fun _ => True :=
    fun child member => allows_of_absent (absent child member)
  subst named
  have body (type : TypeUse) := inLevel_denotes type (fun found =>
    blockFirst_keeps (steady_finds table _ found) children inside (·.hasRole .body)) components
  rw [lowered]
  unfold catchClause
  dsimp only
  split
  · next type found =>
      let type := table.typeUse names.scope type
      exact ⟨type, _, rfl, (body type).2, congrArg (Names.lookup · _) (body type).1⟩
  · let type := TypeUse.unknown (table.source.spanOf head)
    exact ⟨type, _, rfl, (body type).2, congrArg (Names.lookup · _) (body type).1⟩

end

end JavaFacts.Lowering
