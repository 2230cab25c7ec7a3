import JavaFacts.Proofs.Lowering.Correspondence

/-!
What the types that a program uses by a simple name are bound to. In code a name is looked up as in
front of it, whatever types are declared in between, since no local type is ever found. Where a type
parameter has the name, it is found before all types, even those declared closer to the use.
-/

namespace JavaFacts

theorem WrittenType.withDimensions_ne_simple (written : WrittenType) (dimensions : Nat)
    (name : String) : written.withDimensions (dimensions + 1) ≠ .simple name := by
  cases written <;> simp [withDimensions]

namespace TypeTable

variable {table : TypeTable} {scope : TypeScope} {name : String}

mutual

/-- A type that is written as a simple name is bound to what the name is found to be. -/
theorem written_of_simple (tree : Concrete)
    (simple : (table.written scope tree).1 = .simple name) :
    (table.written scope tree).2 = table.simple? scope name := by
  match tree with
  | .node head children =>
      rw [written] at simple ⊢
      split at simple
      case h_1 | h_4 | h_8 => cases simple
      case h_2 | h_3 =>
        cases simple
        rfl
      case h_5 => split at simple <;> cases simple
      case h_6 =>
        split at simple
        · next element binding found =>
            dsimp only at simple ⊢
            cases dimensions : Forest.extraDimensions children with
            | zero =>
                rw [dimensions] at simple
                obtain rfl : element = .simple name := simple
                exact firstWritten_of_simple children _ found
            | succ more =>
                rw [dimensions] at simple
                exact absurd simple (WrittenType.withDimensions_ne_simple element more name)
        · cases simple
      case h_7 =>
        cases found : table.firstWritten scope (·.isNamedOf (·.isType)) children with
        | none =>
            rw [found] at simple
            cases simple
        | some type =>
            rw [found] at simple
            obtain ⟨element, binding⟩ := type
            obtain rfl : element = .simple name := simple
            exact firstWritten_of_simple children _ found
termination_by structural tree

theorem firstWritten_of_simple (forest : List Concrete) (accepts : ConcreteHead → Bool)
    {binding : Option TypeBinding}
    (found : table.firstWritten scope accepts forest = some (.simple name, binding)) :
    binding = table.simple? scope name := by
  match forest with
  | [] => cases found
  | tree :: forest =>
      rw [firstWritten] at found
      split at found
      · have same := Option.some.inj found
        have simple := written_of_simple tree (congrArg Prod.fst same)
        rwa [same] at simple
      · exact firstWritten_of_simple forest accepts found
termination_by structural forest

end

/-- A section of type parameters with other names does not change what a name is found to be. -/
theorem simple?_declareParameters {declaration : Forest}
    (others : name ∉ typeParameterNames table.source declaration) :
    table.simple? (table.declareParameters scope declaration) name = table.simple? scope name := by
  rw [simple?, simple?, find?_declareParameters others, declareParameters_eq]

end TypeTable

namespace Lowering

variable {table : TypeTable} {name : String} {binding : Option TypeBinding}

/-- If a type is written by that name, it is bound so. -/
def BindsUse (name : String) (binding : Option TypeBinding) (use : TypeUse) : Prop :=
  use.written = .simple name → use.binding = binding

/-- All types that a tree uses by that name are bound so. -/
def BindsTypes (name : String) (binding : Option TypeBinding) (node : Node) : Prop :=
  ∀ part : Node, part.Within node → ∀ use ∈ part.typeUses, BindsUse name binding use

/-- What is asked of the types that are written by that name. -/
def Meaning.ofTypes (name : String) (binding : Option TypeBinding) : Meaning :=
  ⟨fun _ _ => True, BindsUse name binding, (· ≠ name)⟩

/-- The type that `var` stands for is bound as its initializer is, and not by its name. -/
theorem Meaning.closed_ofTypes (written : name ≠ "var") : (ofTypes name binding).Closed where
  unknown _ simple := nomatch simple
  withDimensions {use} dimensions bound simple := by
    cases dimensions with
    | zero => exact bound simple
    | succ more => exact absurd simple (use.written.withDimensions_ne_simple more name)
  inferred {use} declared bound := by
    unfold inferred
    split
    · next same =>
        intro simple
        exact absurd (WrittenType.simple.inj (same.symm.trans simple)).symm written
    · exact bound
  created span binding others simple := absurd (WrittenType.simple.inj simple) others

theorem bindsTypes_of_reads {node : Node} (reads : node.Reads (.ofTypes name binding)) :
    BindsTypes name binding node := by
  intro part within use member
  have fits := reads part within
  unfold Meaning.Fits at fits
  split at fits
  · cases member
  · exact fits use member

theorem allows_of_closed {source : SourceText} {tree : Concrete}
    (absent : ¬ tree.Opens source name) : tree.Allows source (fun _ => True) (· ≠ name) where
  introduced _ _ := trivial
  opened _ opened same := absent (same ▸ opened)

/-- A property of scopes in which a name is bound in some way, kept by type parameters with other
names. -/
structure Binds (table : TypeTable) (name : String) (binding : Option TypeBinding)
    (holds : TypeScope → Prop) : Prop where
  simple {scope : TypeScope} : holds scope → table.simple? scope name = binding
  parameters {scope : TypeScope} {declaration : Forest} : holds scope →
    name ∉ TypeTable.typeParameterNames table.source declaration →
    holds (table.declareParameters scope declaration)

/-- A place whose scope has a property. Compact constructors have the components of the record
around them as parameters, so the types of these must be bound in the same way. -/
structure Stands (holds : TypeScope → Prop) (name : String) (binding : Option TypeBinding)
    (names : Names) : Prop where
  scope : holds names.scope
  components : ∀ component ∈ names.components, BindsUse name binding component.type

theorem steady_stands {holds : TypeScope → Prop} (binds : Binds table name binding holds)
    (written : name ≠ "var") : Steady table (Stands holds name binding) (fun _ => True)
      (.ofTypes name binding) where
  closed := Meaning.closed_ofTypes written
  reads _ _ := trivial
  uses tree here simple := (TypeTable.written_of_simple tree simple).trans (binds.simple here.scope)
  add here _ := ⟨(congrArg holds Names.scope_add).mpr here.scope, fun component member =>
    here.components component (Names.add_components ▸ member)⟩
  pushLevel here _ := ⟨here.scope, here.components⟩
  pushType here := ⟨here.scope, here.components⟩
  typeVariables {names declaration} here others := by
    refine ⟨?_, here.components⟩
    have scope : (withParameters table declaration names).scope =
        table.declareParameters names.scope declaration :=
      (table.declareParameters_eq names.scope declaration).symm
    rw [scope]
    exact binds.parameters here.scope fun listed => others name listed rfl
  components here bound := ⟨here.scope, fun component member => (bound component member).2⟩
  component here component member := ⟨trivial, here.components component member⟩

theorem binds_simple? (table : TypeTable) (scope : TypeScope) (name : String) :
    Binds table name (table.simple? scope name)
      fun inside => table.simple? inside name = table.simple? scope name where
  simple := id
  parameters here others := (TypeTable.simple?_declareParameters others).trans here

section

variable {names : Names} {tree : Concrete} (written : name ≠ "var")
  (absent : ¬ tree.Opens table.source name)
  (components : ∀ component ∈ names.components,
    BindsUse name (table.simple? names.scope name) component.type)
include written absent components

/-- In code a type is what its name is found to be in front of the code. No type that is declared in
the code, with or without that name, changes this. -/
theorem lower_bindsTypes : ∀ node ∈ ((lower table tree).run names).1,
    BindsTypes name (table.simple? names.scope name) node := by
  obtain ⟨-, reads⟩ := lower_keeps (steady_stands (binds_simple? table names.scope name) written)
    tree (allows_of_closed absent) names ⟨rfl, components⟩
  exact fun node member => bindsTypes_of_reads (reads node member)

/-- The same holds in all members of a type but its member types. -/
theorem member_bindsTypes (code : tree.kind.isTypeDeclaration = false) {created : Option TypeUse}
    (constants : tree.kind = .enumConstant →
      ∀ use ∈ created, BindsUse name (table.simple? names.scope name) use) :
    ∀ node ∈ ((member table created tree).run names).1,
      BindsTypes name (table.simple? names.scope name) node := by
  obtain ⟨-, reads⟩ := member_keeps (steady_stands (binds_simple? table names.scope name) written)
    (fun kind => absurd (code.symm.trans kind) Bool.false_ne_true) (allows_of_closed absent)
    constants names ⟨rfl, components⟩
  exact fun node member => bindsTypes_of_reads (reads node member)

end

/-- What a member is lowered to uses types as `scope` has them, except for those with the name of a
type parameter of the member. Member types are left out: their members have scopes of their own. -/
def UsesScope (table : TypeTable) (declaration : TypeDeclaration) (scope : TypeScope)
    (tree : Concrete) (nodes : List Node) : Prop :=
  tree.kind.isTypeDeclaration = false → ∀ name, name ≠ "var" → ¬ tree.Opens table.source name →
    (tree.kind = .enumConstant → name ≠ table.source.childText .name declaration.tree) →
    ∀ node ∈ nodes, BindsTypes name (table.simple? scope name) node

theorem Lowered.usesScope {declaration : TypeDeclaration} {scope : TypeScope} {tree : Concrete}
    {nodes : List Node} (lowered : Lowered table declaration scope tree nodes) :
    UsesScope table declaration scope tree nodes := by
  intro code name written absent constants
  obtain ⟨created, names, rfl, own, listed, rfl⟩ := lowered
  have components : ∀ component ∈ names.components,
      BindsUse name (table.simple? names.scope name) component.type :=
    fun component member => formalParameters_used (Meaning.closed_ofTypes written)
      (fun tree => TypeTable.written_of_simple tree) declaration.tree component
      (listed component member)
  have enumerated : tree.kind = .enumConstant →
      ∀ use ∈ created, BindsUse name (table.simple? names.scope name) use := by
    intro kind use member simple
    exact absurd (WrittenType.simple.inj (simple.symm.trans (own use member))) (constants kind)
  intro node member
  exact member_bindsTypes written absent components code enumerated node
    (Option.mem_toList.mp member)

/-- The innermost type parameter of that name. -/
def Declares (name : String) (declared : TypeVariable) (scope : TypeScope) : Prop :=
  scope.typeVariables.find? (·.name == name) = some declared

theorem binds_typeVariable (table : TypeTable) (name : String) (declared : TypeVariable) :
    Binds table name (some (TypeBinding.typeVariable name declared.bound))
      (Declares name declared) where
  simple {scope} found := by
    unfold Declares at found
    rw [TypeTable.simple?, found]
  parameters found others := (TypeTable.find?_declareParameters others).trans found

/-- Member types do not hide a type parameter, wherever they are declared. -/
theorem enters_declares (table : TypeTable) (outer : Names → Prop) (name : String)
    (declared : TypeVariable) (binding : Option TypeBinding) (placement : Placement) :
    Enters table outer (Stands (Declares name declared) name binding) (fun _ => True) placement :=
  fun _ _ _ _ _ => ⟨fun _ _ => trivial, fun _ here => ⟨here.scope, here.components⟩⟩

section

variable {names : Names} {declared : TypeVariable} {children : Forest}

theorem stands_withParameters
    (found : Declares name declared (table.declareParameters names.scope children))
    (components : ∀ component ∈ names.components, BindsUse name binding component.type) :
    ∀ outside, outside = names →
      Stands (Declares name declared) name binding (withParameters table children outside) := by
  rintro _ rfl
  exact ⟨found, components⟩

variable (written : name ≠ "var")
include written

/-- Inside of a type with type parameters, the last of these with a name is what all types of that
name are bound to: those in the head of the type, in its body and in its member types. -/
theorem typeDeclaration_bindsTypes {placement : Placement} {head : ConcreteHead}
    (found : Declares name declared (table.declareParameters names.scope children))
    (generic : head.kind ≠ .enumDeclaration)
    (absent : ∀ child ∈ children, ¬ child.Opens table.source name)
    (components : ∀ component ∈ names.components,
      BindsUse name (some (TypeBinding.typeVariable name declared.bound)) component.type) :
    BindsTypes name (some (TypeBinding.typeVariable name declared.bound))
      ((typeDeclaration table placement head children (membersOfBody table · children)).run
        names).1 := by
  have steady := steady_stands (binds_typeVariable table name declared) written
  have inside : ∀ child ∈ children, child.Allows table.source (fun _ => True) (· ≠ name) :=
    fun child member => allows_of_closed (absent child member)
  have keeps : Keeps (· = names) (fun _ => True)
      (typeDeclaration table placement head children (membersOfBody table · children))
      (·.Reads _) :=
    typeDeclaration_keeps steady inside (fun kind => absurd kind generic)
      (stands_withParameters found components) (enters_declares _ _ _ _ _ _)
      (fun _ _ used =>
        membersOfBody_keeps steady (enters_declares _ _ _ _ _ _) children inside used)
      fun _ used => membersOfBody_keeps steady.unnamed (enters_unnamed _ _ _ _) children inside used
  exact bindsTypes_of_reads (keeps names rfl).2

/-- The same for a method: those of its parameters, of what it returns, and in its body. -/
theorem methodDeclaration_bindsTypes {isConstructor : Bool} {head : ConcreteHead}
    (found : Declares name declared (table.declareParameters names.scope children))
    (absent : ∀ child ∈ children, ¬ child.Opens table.source name)
    (components : ∀ component ∈ names.components,
      BindsUse name (some (TypeBinding.typeVariable name declared.bound)) component.type) :
    BindsTypes name (some (TypeBinding.typeVariable name declared.bound))
      ((methodDeclaration table isConstructor head children
        (blockFirst table (·.hasRole .body) children)).run names).1 := by
  have steady := steady_stands (binds_typeVariable table name declared) written
  have inside : ∀ child ∈ children, child.Allows table.source (fun _ => True) (· ≠ name) :=
    fun child member => allows_of_closed (absent child member)
  have keeps : Keeps (· = names) (fun _ => True)
      (methodDeclaration table isConstructor head children
        (blockFirst table (·.hasRole .body) children)) (·.Reads _) :=
    methodDeclaration_keeps steady inside (stands_withParameters found components)
      (blockFirst_keeps steady children inside _)
  exact bindsTypes_of_reads (keeps names rfl).2

end

end Lowering

/-- In all members of the types of a file, a type that is written as a simple name is what the scope
of the member makes of it: the innermost type parameter of that name, or else the member type of the
innermost type around that has one. -/
theorem CompilationUnit.members_useScope {config : Config} {path text : String} {tree : Concrete}
    {unit : CompilationUnit} (succeeded : ofConcrete config path text tree = .ok unit) :
    let top := tree.children.named
    let table := typeTable (SourceText.ofString text) top
    List.Forall₂ (fun declaration node => ∃ (around : TypeScope) (components : List Node)
        (groups : List (List Node)), Lowering.Around table top declaration around ∧
        node.children = components ++ groups.flatten ∧
        List.Forall₂ (Lowering.UsesScope table declaration (table.memberScope declaration around))
          declaration.members groups)
      (table.declaredTypes top) (Node.memberTypesAll unit.types) := by
  refine (types_correspond succeeded).imp fun declaration node corresponds => ?_
  obtain @⟨span, header, body, components, groups, around, inside, placed, -, -, -, -, -, -, -,
    -, body, lowered⟩ := corresponds
  exact ⟨around, components, groups, placed, body,
    lowered.imp fun _ _ => Lowering.Lowered.usesScope⟩

end JavaFacts
