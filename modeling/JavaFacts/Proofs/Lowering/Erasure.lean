import JavaFacts.Naming
import JavaFacts.Proofs.Lowering.TypeUses

/-!
How the uses of a type parameter are named: by the first bound of the parameter, as far as the bound
is bound to a type itself when the parameter is declared, and else like a parameter without a bound.
-/

namespace JavaFacts

theorem Naming.bindingName?_typeVariable (name : String) (bound : Option TypeBinding) :
    bindingName? (TypeBinding.typeVariable name bound) =
      some ((bound.bind bindingName?).getD objectName) := by
  cases bound <;> rfl

namespace TypeTable

variable {table : TypeTable} {scope : TypeScope} {name : String}

/-- The first type that a type parameter is bounded by. -/
def firstBound? (parameter : Forest) : Option Concrete :=
  (parameter.first? (· == .typeBound)).bind fun list => list.children.named.head?

def parameterName? (source : SourceText) (parameter : Forest) : Option String :=
  (parameter.first? (·.isTypeName)).map fun name => source.textOf name.head

theorem declareParameter_of_named {parameter : Forest}
    (named : parameterName? table.source parameter = some name) :
    table.declareParameter scope parameter =
      { scope with typeVariables := ⟨name, (firstBound? parameter).bind fun bound =>
          (table.typeUse scope bound).binding⟩ :: scope.typeVariables } := by
  obtain ⟨tree, found, rfl⟩ := Option.map_eq_some_iff.mp named
  rw [declareParameter, found]
  simp only [firstBound?, Option.bind_assoc]
  rfl

theorem find?_declareParameter_of_ne {parameter : Forest}
    (other : parameterName? table.source parameter ≠ some name) :
    (table.declareParameter scope parameter).typeVariables.find? (·.name == name) =
      scope.typeVariables.find? (·.name == name) := by
  unfold declareParameter
  split
  · rfl
  · next tree found =>
      refine List.find?_cons_of_neg fun same => other ?_
      rw [parameterName?, found, ← beq_iff_eq.mp same]
      rfl

theorem find?_declare_others {others : List Forest}
    (apart : ∀ other ∈ others, parameterName? table.source other ≠ some name) :
    (others.foldl table.declareParameter scope).typeVariables.find? (·.name == name) =
      scope.typeVariables.find? (·.name == name) := by
  induction others generalizing scope with
  | nil => rfl
  | cons other others ih =>
      obtain ⟨here, there⟩ := List.forall_mem_cons.mp apart
      exact (ih there).trans (find?_declareParameter_of_ne here)

/-- The last type parameter with a name is the one that is found, with its bound looked up behind
the parameters in front of it. -/
theorem declares_last {before after : List Forest} {parameter : Forest}
    (named : parameterName? table.source parameter = some name)
    (last : ∀ other ∈ after, parameterName? table.source other ≠ some name) :
    Lowering.Declares name ⟨name, (firstBound? parameter).bind fun bound =>
      (table.typeUse (before.foldl table.declareParameter scope) bound).binding⟩
      ((before ++ parameter :: after).foldl table.declareParameter scope) := by
  rw [Lowering.Declares, List.foldl_append, List.foldl_cons, find?_declare_others last,
    declareParameter_of_named named]
  exact List.find?_cons_of_pos (beq_self_eq_true name)

/-- A declaration has a type parameter of that name, and none of the same name behind it. Those in
front of it are `before`. -/
structure ListsLast (table : TypeTable) (declaration : Forest) (before : List Forest)
    (parameter : Forest) (name : String) : Prop where
  named : parameterName? table.source parameter = some name
  listed : ∃ after, typeParameterNodes declaration = before ++ parameter :: after ∧
    ∀ other ∈ after, parameterName? table.source other ≠ some name

theorem ListsLast.declares {declaration parameter : Forest} {before : List Forest}
    (lists : table.ListsLast declaration before parameter name) :
    Lowering.Declares name ⟨name, (firstBound? parameter).bind fun bound =>
      (table.typeUse (before.foldl table.declareParameter scope) bound).binding⟩
      (table.declareParameters scope declaration) := by
  obtain ⟨named, after, listed, last⟩ := lists
  rw [declareParameters, listed]
  exact declares_last named last

/-- Name of the erasure of a type parameter that is declared in some scope. -/
def erasure (table : TypeTable) (scope : TypeScope) (parameter : Forest) : String :=
  (((firstBound? parameter).bind fun bound => (table.typeUse scope bound).binding).bind
    Naming.bindingName?).getD Naming.objectName

/-- A bound that is bound to a type with a name gives its own name to the parameter. -/
theorem erasure_of_named {parameter : Forest} {bound : Concrete} {erased : String}
    (first : firstBound? parameter = some bound)
    (known : (table.typeUse scope bound).binding.bind Naming.bindingName? = some erased) :
    let use := table.typeUse scope bound
    table.erasure scope parameter = Naming.typeName use.binding (some use.written) := by
  simp only [erasure, first, Option.bind_some, Naming.typeName, known, Option.getD_some]

/-- Without such a bound a parameter counts as a parameter without any bound. -/
theorem erasure_of_unnamed {parameter : Forest}
    (unknown : ∀ bound ∈ firstBound? parameter,
      (table.typeUse scope bound).binding.bind Naming.bindingName? = none) :
    table.erasure scope parameter = Naming.objectName := by
  rw [erasure]
  cases first : firstBound? parameter with
  | none => rfl
  | some bound => rw [Option.bind_some, unknown bound first]; rfl

/-- A parameter that is bounded by one in front of it has the same erasure. -/
theorem erasure_of_chain {before after : List Forest} {parameter other : Forest} {bound : Concrete}
    (first : firstBound? parameter = some bound)
    (simple : bound.kind = .typeIdentifier) (same : table.source.textOf bound.head = name)
    (named : parameterName? table.source other = some name)
    (last : ∀ later ∈ after, parameterName? table.source later ≠ some name) :
    table.erasure ((before ++ other :: after).foldl table.declareParameter scope) parameter =
      table.erasure (before.foldl table.declareParameter scope) other := by
  obtain ⟨head, children⟩ := bound
  obtain rfl := same
  have found := @declares_last table scope _ before after other named last
  have use (inside : TypeScope) : (table.typeUse inside (.node head children)).binding =
      table.simple? inside (table.source.textOf (Concrete.node head children).head) := by
    have simple : head.kind = .typeIdentifier := simple
    rw [typeUse, written, simple]
    rfl
  rw [erasure, first, Option.bind_some, use,
    (Lowering.binds_typeVariable table _ _).simple found, Option.bind_some,
    Naming.bindingName?_typeVariable, Option.getD_some, erasure]

end TypeTable

namespace Lowering

variable {table : TypeTable} {names : Names} {name : String} {children parameter : Forest}
  {before : List Forest}

/-- All types that a tree uses by the simple name `name` have that name, also in signatures. -/
def NamesTypes (name erased : String) (node : Node) : Prop :=
  ∀ part : Node, part.Within node → ∀ use ∈ part.typeUses, use.written = .simple name →
    Naming.typeName use.binding (some use.written) = erased ∧
      Naming.signatureName use.binding (some use.written) = erased

theorem BindsTypes.namesTypes {node : Node} {bound : Option TypeBinding}
    (binds : BindsTypes name (some (TypeBinding.typeVariable name bound)) node) :
    NamesTypes name ((bound.bind Naming.bindingName?).getD Naming.objectName) node := by
  intro part within use member written
  have noArray : (TypeBinding.typeVariable name bound).isArray = false := rfl
  rw [binds part within use member written]
  constructor
  · rw [Naming.typeName, Option.bind_some, Naming.bindingName?_typeVariable]
  · unfold Naming.signatureName
    dsimp only
    rw [noArray, Naming.bindingName?_typeVariable]
    rfl

/-- In a method with type parameters, all that is of the type of one of these is named by its
erasure. -/
theorem methodDeclaration_namesTypes (isConstructor : Bool) (head : ConcreteHead)
    (lists : table.ListsLast children before parameter name) (written : name ≠ "var")
    (absent : ∀ child ∈ children, ¬ child.Opens table.source name)
    (components : ∀ component ∈ names.components, component.type.written ≠ .simple name) :
    NamesTypes name (table.erasure (before.foldl table.declareParameter names.scope) parameter)
      ((methodDeclaration table isConstructor head children
        (blockFirst table (·.hasRole .body) children)).run names).1 :=
  (methodDeclaration_bindsTypes written lists.declares absent fun component member same =>
    absurd same (components component member)).namesTypes

/-- The same holds for a type with type parameters, its member types included. -/
theorem typeDeclaration_namesTypes {placement : Placement} {head : ConcreteHead}
    (generic : head.kind ≠ .enumDeclaration)
    (lists : table.ListsLast children before parameter name) (written : name ≠ "var")
    (absent : ∀ child ∈ children, ¬ child.Opens table.source name)
    (components : ∀ component ∈ names.components, component.type.written ≠ .simple name) :
    NamesTypes name (table.erasure (before.foldl table.declareParameter names.scope) parameter)
      ((typeDeclaration table placement head children (membersOfBody table · children)).run
        names).1 :=
  (typeDeclaration_bindsTypes written lists.declares generic absent fun component member same =>
    absurd same (components component member)).namesTypes

/-- What a member is lowered to names type parameters by their erasures: those of the type that it
stands in, and those of its own if it is a method. -/
structure NamesErasures (table : TypeTable) (declaration : TypeDeclaration) (around : TypeScope)
    (tree : Concrete) (nodes : List Node) : Prop where
  outer {before : List Forest} {parameter : Forest} {name : String} :
    tree.kind.isTypeDeclaration = false → name ≠ "var" →
    table.ListsLast declaration.tree before parameter name → ¬ tree.Opens table.source name →
    (tree.kind = .enumConstant → name ≠ table.source.childText .name declaration.tree) →
    ∀ node ∈ nodes,
      NamesTypes name (table.erasure (before.foldl table.declareParameter around) parameter) node
  own {before : List Forest} {parameter : Forest} {name : String} :
    tree.kind = .methodDeclaration ∨ tree.kind = .constructorDeclaration → name ≠ "var" →
    table.ListsLast tree.children before parameter name →
    (∀ child ∈ tree.children, ¬ child.Opens table.source name) →
    let scope := table.memberScope declaration around
    (∀ component ∈ formalParameters table scope declaration.tree,
      component.type.written ≠ .simple name) →
    ∀ node ∈ nodes,
      NamesTypes name (table.erasure (before.foldl table.declareParameter scope) parameter) node

theorem Lowered.namesErasures {declaration : TypeDeclaration} {around : TypeScope}
    {tree : Concrete} {nodes : List Node}
    (lowered : Lowered table declaration (table.memberScope declaration around) tree nodes) :
    NamesErasures table declaration around tree nodes where
  outer {before parameter name} code written lists absent constants node member := by
    have binds := lowered.usesScope code name written absent constants node member
    have declared : Declares name _ (table.memberScope declaration around) := lists.declares
    rw [(binds_typeVariable table name _).simple declared] at binds
    exact binds.namesTypes
  own {before parameter name} method written lists absent := by
    intro scope components node member
    obtain ⟨created, names, same, -, listed, rfl⟩ := lowered
    obtain ⟨head, children⟩ := tree
    have named (isConstructor : Bool) :=
      methodDeclaration_namesTypes isConstructor head lists written absent
        fun component among => components component (listed component among)
    rw [same] at named
    rw [Lowering.member.eq_def] at member
    rcases method with kind | kind <;>
      · have kind : head.kind = _ := kind
        simp only [kind] at member
        obtain rfl := Option.some.inj (Option.mem_toList.mp member)
        exact named _

end Lowering

/-- In all members of the types of a file, what is of the type of a type parameter is named by the
erasure of the parameter, whether it is one of the type around the member or of the member. -/
theorem CompilationUnit.members_nameErasures {config : Config} {path text : String}
    {tree : Concrete} {unit : CompilationUnit}
    (succeeded : ofConcrete config path text tree = .ok unit) :
    let top := tree.children.named
    let table := typeTable (SourceText.ofString text) top
    List.Forall₂ (fun declaration node => ∃ (around : TypeScope) (components : List Node)
        (groups : List (List Node)), Lowering.Around table top declaration around ∧
        node.children = components ++ groups.flatten ∧
        List.Forall₂ (Lowering.NamesErasures table declaration around) declaration.members groups)
      (table.declaredTypes top) (Node.memberTypesAll unit.types) := by
  refine (types_correspond succeeded).imp fun declaration node corresponds => ?_
  obtain @⟨span, header, body, components, groups, around, inside, placed, -, -, -, -, -, -, -,
    -, body, lowered⟩ := corresponds
  exact ⟨around, components, groups, placed, body,
    lowered.imp fun _ _ => Lowering.Lowered.namesErasures⟩

end JavaFacts
