import Mathlib.Data.List.Forall2
import JavaFacts.Lowering.Unit
import JavaFacts.Proofs.Lowering.DeclaredTypes
import JavaFacts.Proofs.Lowering.Lexical

/-!
The table of a file and its lowered tree describe the same types. They come in one order, and what
the one says of a type can be compared with what the other says: both look types up in the types
around, but only the lowered tree knows the type parameters of all of these.
-/

namespace JavaFacts

namespace Node

mutual

/-- A declared type and the member types inside it, outer ones first. -/
def memberTypes : Node → List Node
  | type span header body => .type span header body :: memberTypesAll body
  | _ => []
termination_by structural node => node

def memberTypesAll : List Node → List Node
  | [] => []
  | node :: nodes => memberTypes node ++ memberTypesAll nodes
termination_by structural nodes => nodes

end

theorem memberTypesAll_singleton (node : Node) : memberTypesAll [node] = node.memberTypes :=
  List.append_nil _

theorem memberTypesAll_append (nodes others : List Node) :
    memberTypesAll (nodes ++ others) = memberTypesAll nodes ++ memberTypesAll others := by
  induction nodes with
  | nil => rfl
  | cons node nodes ih => simp only [List.cons_append, memberTypesAll, ih, List.append_assoc]

theorem memberTypesAll_eq_nil {nodes : List Node} (none : ∀ node ∈ nodes, node.memberTypes = []) :
    memberTypesAll nodes = [] := by
  induction nodes with
  | nil => rfl
  | cons node nodes ih =>
      obtain ⟨here, there⟩ := List.forall_mem_cons.mp none
      rw [memberTypesAll, here, ih there, List.nil_append]

/-- Names and types of the fields that a node declares. -/
def fieldTypes : Node → List (String × Option TypeBinding)
  | fields _ header declared => declared.map fun entry =>
      (entry.declarator.name, (header.type.withDimensions entry.declarator.extraDimensions).binding)
  | _ => []

end Node

namespace TypeDeclaration

/-- The members that a type declares in its body. -/
def members (declaration : TypeDeclaration) : Forest :=
  match declaration.tree.child? .body with
  | some body => body.children.members
  | none => []

/-- What is written behind `extends`. -/
def superclassTree? (declaration : TypeDeclaration) : Option Concrete :=
  (declaration.tree.child? .superclass).bind (·.children.first? (·.isType))

end TypeDeclaration

/-- The scope of the members of a type, by the scope around the type. -/
def TypeTable.memberScope (table : TypeTable) (declaration : TypeDeclaration)
    (around : TypeScope) : TypeScope :=
  ⟨declaration.enclosing, (table.declareParameters around declaration.tree).typeVariables⟩

namespace Lowering

variable {table : TypeTable} {parameter : String → Prop}

/-- The scope around a declared type: that of the members of the type around it. -/
inductive Around (table : TypeTable) (top : Forest) : TypeDeclaration → TypeScope → Prop where
  | top {tree : Concrete} : tree ∈ top → tree.kind.isTypeDeclaration →
      Around table top (table.declarationIn [] tree.head tree.children) ⟨[], []⟩
  | member {outer : TypeDeclaration} {around : TypeScope} {tree : Concrete} :
      Around table top outer around → tree ∈ outer.members → tree.kind.isTypeDeclaration →
      Around table top (table.declarationIn outer.enclosing tree.head tree.children)
        (table.memberScope outer around)

/-- The type that the constants of an enum have is written by its own name. -/
def IsOwnUse (table : TypeTable) (declaration : TypeDeclaration) (use : TypeUse) : Prop :=
  use.written = .simple (table.source.childText .name declaration.tree)

/-- What a member of a type is lowered to in the scope of the body. The constants of an enum have
the type that they stand in, and compact constructors the components of their record. -/
def Lowered (table : TypeTable) (declaration : TypeDeclaration) (scope : TypeScope)
    (tree : Concrete) (nodes : List Node) : Prop :=
  ∃ (created : Option TypeUse) (names : Names), names.scope = scope ∧
    (∀ use ∈ created, IsOwnUse table declaration use) ∧
    (∀ component ∈ names.components, component ∈ formalParameters table scope declaration.tree) ∧
    nodes = ((member table created tree).run names).1.toList

/-- The lowered form of a declared type. All type parameters in scope have names of a kind. -/
inductive Corresponds (table : TypeTable) (top : Forest) (parameter : String → Prop)
    (declaration : TypeDeclaration) : Node → Prop where
  | type {span : Span} {header : TypeHeader} {body components : List Node}
      {groups : List (List Node)} {around inside : TypeScope} :
      Around table top declaration around →
      inside = table.declareParameters around declaration.tree →
      declaration.enclosing = declaration.name :: around.enclosing →
      (∀ name ∈ TypeTable.typeParameterNames table.source declaration.tree, parameter name) →
      (∀ declared ∈ inside.typeVariables, parameter declared.name) →
      header.name = table.source.childText .name declaration.tree →
      header.binding = table.binding? declaration.name →
      header.typeParameters = TypeTable.typeParameterNames table.source declaration.tree →
      header.superclass = declaration.superclassTree?.map (table.typeUse inside) →
      body = components ++ groups.flatten →
      List.Forall₂ (Lowered table declaration (table.memberScope declaration around))
        declaration.members groups →
      Corresponds table top parameter declaration (.type span header body)

/-- A place directly in the body of a type that can be named. -/
structure StandsIn (table : TypeTable) (parameter : String → Prop) (declaration : TypeDeclaration)
    (inside : TypeScope) (names : Names) : Prop where
  scope : names.scope = inside
  self : ∃ binding around, names.self? = some binding ∧ inside.enclosing = binding.name :: around
  named : ∀ declared ∈ inside.typeVariables, parameter declared.name
  components : ∀ component ∈ names.components,
    component ∈ formalParameters table inside declaration.tree

theorem StandsIn.add {declaration : TypeDeclaration} {scope : TypeScope} {names : Names}
    {added : VariableLevel} (stands : StandsIn table parameter declaration scope names) :
    StandsIn table parameter declaration scope (names.add added) where
  scope := Names.scope_add.trans stands.scope
  self := by rw [Names.self?_add]; exact stands.self
  named := stands.named
  components := by rw [Names.add_components]; exact stands.components

theorem mapM_typeUse (trees : Forest) :
    trees.mapM (typeUse table) = do return trees.map (table.typeUse (← get).scope) := by
  induction trees with
  | nil => rfl
  | cons tree trees ih => rw [List.mapM_cons, ih]; rfl

theorem option_mapM_typeUse (tree : Option Concrete) :
    tree.mapM (typeUse table) = do return tree.map (table.typeUse (← get).scope) := by
  cases tree <;> rfl

/-- The scope in which the members of a type are lowered. -/
def bodyNames (table : TypeTable) (binding : Option TypeBinding) (fields : VariableLevel)
    (components : List FormalParameter) (children : Forest) (names : Names) : Names :=
  { (({ names with
      typeVariables := (table.declareParameters names.scope children).typeVariables }.pushType
        binding).pushLevel fields) with components }

theorem run_typeDeclaration (placement : Placement) (head : ConcreteHead) (children : Forest)
    (members : Option TypeUse → Lowering (List Node)) (names : Names) :
    ∃ created fields components header,
      let name := table.source.childText .name children
      let binding := declaredBinding? table names placement name
      let inside := table.declareParameters names.scope children
      let inner := bodyNames table binding fields components children names
      ((typeDeclaration table placement head children members).run names).1 =
        .type (table.source.spanOf head) header
          (components.map componentField ++ ((members created).run inner).1) ∧
      header.name = name ∧ header.binding = binding ∧
      header.typeParameters = TypeTable.typeParameterNames table.source children ∧
      header.superclass = ((children.child? .superclass).bind
        (·.children.first? (·.isType))).map (table.typeUse inside) ∧
      (∀ use ∈ created, use.written = .simple name) ∧
      ∀ component ∈ components, component ∈ formalParameters table inner.scope children := by
  unfold typeDeclaration
  simp only [mapM_typeUse, option_mapM_typeUse]
  refine ⟨_, _, _, _, rfl, rfl, rfl, rfl, ?_, ?_, ?_⟩
  · rw [TypeTable.declareParameters_eq]
    rfl
  · intro use member
    split at member
    · obtain rfl := Option.some.inj member
      rfl
    · cases member
  · intro component member
    split at member
    · exact member
    · cases member

theorem declarators_declaredVariables (forest : Forest) (names : Names) :
    ((declaredVariables table forest).run names).1.map (·.declarator) =
      (forest.filter (·.head.hasRole .declarator)).map fun tree =>
        ⟨table.source.spanOf tree.head, table.source.childText .name tree.children,
          tree.children.extraDimensions, none⟩ := by
  induction forest generalizing names with
  | nil => rfl
  | cons tree forest ih =>
      cases tree with
      | node head children =>
          rw [declaredVariables]
          rw [List.filter_cons]
          by_cases role : head.hasRole .declarator
          · have here : (Concrete.node head children).head.hasRole .declarator := role
            rw [if_pos role, if_pos here, List.map_cons, ← ih]
            rfl
          · have here : ¬ (Concrete.node head children).head.hasRole .declarator := role
            rw [if_neg role, if_neg here]
            exact ih names

/-- The types of the fields that a declaration is lowered to. -/
theorem fieldTypes_member {tree : Concrete} (kind : tree.kind = .fieldDeclaration)
    (written : (tree.children.child? .type).isSome) (created : Option TypeUse) (names : Names)
    (own : TypeBinding) :
    ((member table created tree).run names).1.toList.flatMap (·.fieldTypes) =
      table.memberFields names.scope own tree := by
  obtain ⟨type, found⟩ := Option.isSome_iff_exists.mp written
  cases tree with
  | node head children =>
      have declarators := @declarators_declaredVariables table children names
      have kind : head.kind = .fieldDeclaration := kind
      have found : Forest.child? .type children = some type := found
      have same : table.typeOf names.scope head children = table.typeUse names.scope type := by
        rw [TypeTable.typeOf, found]
      rw [member.eq_def]
      simp only [kind]
      calc _ = (((declaredVariables table children).run names).1.map (·.declarator)).map
            (fun declarator => (declarator.name,
              ((table.typeOf names.scope head children).withDimensions
                declarator.extraDimensions).binding)) := by
            rw [List.map_map]
            exact List.append_nil _
        _ = table.memberFields names.scope own (.node head children) := by
            rw [declarators, List.map_map, TypeTable.memberFields, Concrete.kind, Concrete.head,
              kind, same, Concrete.children, found]
            rfl

theorem member_typeDeclaration {head : ConcreteHead} {children : Forest}
    (kind : head.kind.isTypeDeclaration) (created : Option TypeUse) :
    member table created (.node head children) =
      some <$> typeDeclaration table .member head children (membersOfBody table · children) := by
  rw [member.eq_def]
  dsimp only
  unfold ConcreteKind.isTypeDeclaration at kind
  split at kind
  case h_1 same | h_2 same | h_3 same | h_4 same => simp only [same]
  case h_5 => cases kind

/-- Only declarations of types are lowered to types. -/
theorem memberTypes_member {tree : Concrete} (kind : tree.kind.isTypeDeclaration = false)
    (created : Option TypeUse) (names : Names) :
    Node.memberTypesAll ((member table created tree).run names).1.toList = [] := by
  refine Node.memberTypesAll_eq_nil ?_
  cases tree with
  | node head children =>
      have kind : head.kind.isTypeDeclaration = false := kind
      rw [member.eq_def]
      dsimp only
      split
      case h_8 same | h_9 same | h_10 same | h_11 same => rw [same] at kind; cases kind
      case h_6 =>
        intro node found
        obtain ⟨body, -, rfl⟩ := Option.map_eq_some_iff.mp (Option.mem_toList.mp found)
        rfl
      case h_7 =>
        split
        · exact List.forall_mem_singleton.mpr rfl
        · exact List.forall_mem_nil _
      case h_12 => exact List.forall_mem_nil _
      all_goals exact List.forall_mem_singleton.mpr rfl

/-- A declared type that can be named, and whose type parameters have names of a kind. -/
structure Known (table : TypeTable) (parameter : String → Prop) (declaration : TypeDeclaration) :
    Prop where
  found : ∃ binding, table.binding? declaration.name = some binding ∧
    binding.name = declaration.name
  parameters : ∀ name ∈ TypeTable.typeParameterNames table.source declaration.tree, parameter name

/-- The nodes that some members are lowered to, and the types that are declared among these. -/
structure MembersCorrespond (table : TypeTable) (top : Forest) (parameter : String → Prop)
    (outer : TypeDeclaration) (scope : TypeScope) (declarations : List TypeDeclaration)
    (members : Forest) (nodes : List Node) : Prop where
  types : List.Forall₂ (Corresponds table top parameter) declarations (Node.memberTypesAll nodes)
  lowered : ∃ groups : List (List Node), nodes = groups.flatten ∧
    List.Forall₂ (Lowered table outer scope) members groups

namespace MembersCorrespond

variable {top : Forest} {outer : TypeDeclaration} {scope : TypeScope}
  {declarations others : List TypeDeclaration} {members further : Forest} {nodes rest : List Node}

theorem nil : MembersCorrespond table top parameter outer scope [] [] [] :=
  ⟨.nil, [], rfl, .nil⟩

theorem append
    (first : MembersCorrespond table top parameter outer scope declarations members nodes)
    (second : MembersCorrespond table top parameter outer scope others further rest) :
    MembersCorrespond table top parameter outer scope (declarations ++ others) (members ++ further)
      (nodes ++ rest) := by
  obtain ⟨types, groups, rfl, lowered⟩ := first
  obtain ⟨laterTypes, later, rfl, laterLowered⟩ := second
  refine ⟨?_, groups ++ later, List.flatten_append.symm, List.rel_append lowered laterLowered⟩
  rw [Node.memberTypesAll_append]
  exact List.rel_append types laterTypes

end MembersCorrespond

/-- Named nodes, those in the groups behind the constants of an enum included. -/
def membersAmong (atTop : Bool) (forest : Forest) : Forest :=
  forest.named.flatMap fun tree =>
    if atTop && tree.kind == .enumBodyDeclarations then tree.children.named else [tree]

theorem membersAmong_false (forest : Forest) : membersAmong false forest = forest.named := by
  simp [membersAmong]

theorem membersAmong_cons (atTop : Bool) (tree : Concrete) (forest : Forest) :
    membersAmong atTop (tree :: forest) =
      (if tree.isNamed then
        if atTop && tree.kind == .enumBodyDeclarations then tree.children.named else [tree]
      else []) ++ membersAmong atTop forest := by
  unfold membersAmong Forest.named
  rw [List.filter_cons]
  split
  · rw [List.flatMap_cons]
  · rfl

/-- In the scope of a body the types among its members have their place. -/
def Places (table : TypeTable) (top : Forest) (scope : TypeScope) (members : Forest) : Prop :=
  ∀ tree ∈ members, tree.kind.isTypeDeclaration →
    Around table top (table.declarationIn scope.enclosing tree.head tree.children) scope

section

variable {top : Forest}

theorem typeDeclaration_corresponds {placement : Placement} {head : ConcreteHead}
    {children : Forest} {members : Option TypeUse → Lowering (List Node)} {names : Names}
    {declaration : TypeDeclaration} {scope : TypeScope}
    (declares : declaration = table.declarationIn names.enclosing head children)
    (inside : scope = table.memberScope declaration names.scope)
    (placed : Around table top declaration names.scope)
    (named : ∀ declared ∈ names.typeVariables, parameter declared.name)
    (bound : declaredBinding? table names placement (table.source.childText .name children) =
      table.binding? declaration.name)
    (known : Known table parameter declaration)
    (within : ∀ created inner, (∀ use ∈ created, IsOwnUse table declaration use) →
      StandsIn table parameter declaration scope inner →
      Places table top scope declaration.members →
      MembersCorrespond table top parameter declaration scope (table.declarationsOfBody
        scope.enclosing children) declaration.members ((members created).run inner).1) :
    List.Forall₂ (Corresponds table top parameter)
      (table.declarations names.enclosing (.node head children))
      ((typeDeclaration table placement head children members).run names).1.memberTypes := by
  subst declares inside
  obtain ⟨created, fields, components, header, lowered, name, binding, typeParameters, superclass,
    constants, listedComponents⟩ := run_typeDeclaration placement head children members names
  obtain ⟨self, found, same⟩ := known.found
  rw [bound, found] at lowered binding listedComponents
  have parameters : ∀ declared ∈ (table.declareParameters names.scope children).typeVariables,
      parameter declared.name := by
    intro declared member
    obtain ⟨own, same, listed⟩ := table.exists_own_typeVariables names.scope children
    rw [same] at member
    rcases List.mem_append.mp member with inside | around
    · exact known.parameters _ (listed declared inside)
    · exact named declared around
  have scope : (bodyNames table (some self) fields components children names).scope =
      table.memberScope (table.declarationIn names.enclosing head children) names.scope :=
    congrArg (TypeScope.mk · _) (congrArg (· :: names.enclosing) same)
  have stands : StandsIn table parameter (table.declarationIn names.enclosing head children)
      (table.memberScope (table.declarationIn names.enclosing head children) names.scope)
      (bodyNames table (some self) fields components children names) := {
    scope
    self := ⟨self, names.enclosing, rfl, congrArg (· :: names.enclosing) same.symm⟩
    named := parameters
    components := scope ▸ listedComponents }
  obtain ⟨types, groups, flat, looked⟩ := within created _ constants stands
    fun tree member kind => .member placed member kind
  have none : Node.memberTypesAll (components.map componentField) = [] :=
    Node.memberTypesAll_eq_nil fun node member => by
      obtain ⟨component, -, rfl⟩ := List.mem_map.mp member
      rfl
  rw [lowered, TypeTable.declarations, Node.memberTypes, Node.memberTypesAll_append, none,
    List.nil_append]
  have nodes : components.map componentField ++ ((members created).run
      (bodyNames table (some self) fields components children names)).1 =
        components.map componentField ++ groups.flatten := by
    rw [flat]
  exact .cons (.type placed rfl rfl known.parameters parameters name
    (binding.trans found.symm) typeParameters superclass nodes looked) types

mutual

theorem membersOfBody_corresponds (forest : List Concrete) {outer : TypeDeclaration}
    {scope : TypeScope} {names : Names}
    (stands : StandsIn table parameter outer scope names) {created : Option TypeUse}
    (constants : ∀ use ∈ created, IsOwnUse table outer use)
    (placed : Places table top scope (match Forest.child? .body forest with
      | some body => body.children.members
      | none => []))
    (known : ∀ declaration ∈ table.declarationsOfBody scope.enclosing forest,
      Known table parameter declaration) :
    MembersCorrespond table top parameter outer scope
      (table.declarationsOfBody scope.enclosing forest)
      (match Forest.child? .body forest with
        | some body => body.children.members
        | none => [])
      ((membersOfBody table created forest).run names).1 := by
  match forest with
  | [] => exact .nil
  | .node head children :: forest =>
      rw [TypeTable.declarationsOfBody] at known ⊢
      rw [membersOfBody]
      by_cases body : head.hasRole .body
      · have here : Forest.child? .body (.node head children :: forest) =
            some (.node head children) := List.find?_cons_of_pos body
        rw [if_pos body] at known
        simp only [body, here, if_true] at placed ⊢
        exact membersIn_corresponds children stands constants true placed known
      · have there : Forest.child? .body (.node head children :: forest) =
            Forest.child? .body forest := List.find?_cons_of_neg body
        rw [if_neg body] at known
        simp only [body, there] at placed ⊢
        exact membersOfBody_corresponds forest stands constants placed known
termination_by structural forest

theorem membersIn_corresponds (forest : List Concrete) {outer : TypeDeclaration}
    {scope : TypeScope} {names : Names}
    (stands : StandsIn table parameter outer scope names) {created : Option TypeUse}
    (constants : ∀ use ∈ created, IsOwnUse table outer use) (atTop : Bool)
    (placed : Places table top scope (membersAmong atTop forest))
    (known : ∀ declaration ∈ table.declarationsIn scope.enclosing atTop forest,
      Known table parameter declaration) :
    MembersCorrespond table top parameter outer scope
      (table.declarationsIn scope.enclosing atTop forest) (membersAmong atTop forest)
      ((membersIn table created atTop forest).run names).1 := by
  match forest with
  | [] => exact .nil
  | .node head children :: forest =>
      rw [membersAmong_cons] at placed ⊢
      obtain ⟨placedFirst, placedRest⟩ := List.forall_mem_append.mp placed
      -- what a member leaves in scope are variables, and no type is looked up among these
      have together {here : Lowering (List Node)} {declarations : List TypeDeclaration}
          {members : Forest} (left : ∃ added, (here.run names).2 = names.add added)
          (met : MembersCorrespond table top parameter outer scope declarations members
            (here.run names).1)
          (rest : ∀ declaration ∈ table.declarationsIn scope.enclosing atTop forest,
            Known table parameter declaration) :
          MembersCorrespond table top parameter outer scope
            (declarations ++ table.declarationsIn scope.enclosing atTop forest)
            (members ++ membersAmong atTop forest)
            ((do
              let here ← here
              let others ← membersIn table created atTop forest
              pure (here ++ others) : Lowering (List Node)).run names).1 := by
        obtain ⟨added, after⟩ := left
        have stands : StandsIn table parameter outer scope (names.add added) := stands.add
        have later := membersIn_corresponds forest stands constants atTop placedRest rest
        rw [← after] at later
        exact met.append later
      rw [TypeTable.declarationsIn] at known ⊢
      obtain ⟨first, rest⟩ := List.forall_mem_append.mp known
      rw [membersIn]
      by_cases named : head.isNamed
      · have here : (Concrete.node head children).isNamed = true := named
        rw [named] at first
        simp only [named, here, Bool.not_true, Bool.false_eq_true, if_false, if_true]
          at first placedFirst ⊢
        by_cases group : atTop && head.kind == .enumBodyDeclarations
        · have same : atTop && (Concrete.node head children).kind == .enumBodyDeclarations := group
          simp only [group, same, if_true] at first placedFirst ⊢
          have inner : Places table top scope (membersAmong false children) := by
            rw [membersAmong_false]
            exact placedFirst
          have inside := membersIn_corresponds children stands constants false inner first
          rw [membersAmong_false] at inside
          exact together (exists_add_membersIn table created names false children) inside rest
        · have same : ¬ (atTop && (Concrete.node head children).kind == .enumBodyDeclarations) :=
            group
          simp only [group, same] at first placedFirst ⊢
          refine @together (Option.toList <$> member table created (.node head children)) _ _
            (exists_add_member table created names (.node head children)) ?_ rest
          have lowered : Lowered table outer scope (.node head children)
              ((member table created (.node head children)).run names).1.toList :=
            ⟨created, names, stands.scope, constants, stands.components, rfl⟩
          refine ⟨?_, [_], List.flatten_singleton.symm, .cons lowered .nil⟩
          by_cases kind : head.kind.isTypeDeclaration
          · simp only [kind, if_true] at first ⊢
            exact member_corresponds (.node head children) stands kind
              (placedFirst _ List.mem_cons_self kind) first created
          · simp only [kind]
            have none := @memberTypes_member table (.node head children)
              (Bool.eq_false_iff.mpr kind) created names
            exact none ▸ .nil
      · have here : (Concrete.node head children).isNamed = false := Bool.eq_false_iff.mpr named
        simp only [named, here, Bool.not_false, if_true]
        exact together ⟨[], Names.add_nil.symm⟩ .nil rest
termination_by structural forest

theorem member_corresponds (tree : Concrete) {outer : TypeDeclaration} {scope : TypeScope}
    {names : Names} (stands : StandsIn table parameter outer scope names)
    (kind : tree.kind.isTypeDeclaration)
    (placed : Around table top (table.declarationIn scope.enclosing tree.head tree.children) scope)
    (known : ∀ declaration ∈ table.declarations scope.enclosing tree,
      Known table parameter declaration) (created : Option TypeUse) :
    List.Forall₂ (Corresponds table top parameter) (table.declarations scope.enclosing tree)
      (Node.memberTypesAll ((member table created tree).run names).1.toList) := by
  match tree with
  | .node head children =>
      obtain ⟨self, around, found, here⟩ := stands.self
      obtain rfl := stands.scope
      rw [TypeTable.declarations] at known
      obtain ⟨first, inside⟩ := List.forall_mem_cons.mp known
      have here : names.enclosing = self.name :: around := here
      have bound : declaredBinding? table names .member (table.source.childText .name children) =
          table.binding? (table.declarationIn names.enclosing head children).name := by
        rw [declaredBinding?, found, here]
        rfl
      have types := typeDeclaration_corresponds rfl rfl placed stands.named bound first
        fun created inner constants stands placed =>
          membersOfBody_corresponds children stands constants placed inside
      have kind : head.kind.isTypeDeclaration := kind
      rw [member_typeDeclaration kind]
      rw [← Node.memberTypesAll_singleton] at types
      exact types
termination_by structural tree

end

/-- All types that some top-level trees declare, in the order of the source. -/
theorem topLevel_corresponds (trees : Forest) {names : Names} (outside : names.scope = ⟨[], []⟩)
    (listed : ∀ tree ∈ trees, tree ∈ top ∧ tree.kind.isTypeDeclaration)
    (known : ∀ declaration ∈ trees.flatMap (table.declarations []),
      Known table parameter declaration) :
    List.Forall₂ (Corresponds table top parameter) (trees.flatMap (table.declarations []))
      (Node.memberTypesAll ((trees.mapM (topLevel table)).run names).1) := by
  induction trees generalizing names with
  | nil => exact .nil
  | cons tree trees ih =>
      rw [List.flatMap_cons] at known ⊢
      obtain ⟨here, later⟩ := List.forall_mem_append.mp known
      obtain ⟨⟨among, kind⟩, listedLater⟩ := List.forall_mem_cons.mp listed
      obtain ⟨added, after⟩ := exists_add_topLevel table names tree
      have enclosing : names.enclosing = [] := congrArg (·.enclosing) outside
      have first : List.Forall₂ (Corresponds table top parameter) (table.declarations [] tree)
          ((topLevel table tree).run names).1.memberTypes := by
        cases tree with
        | node head children =>
            have placed : Around table top (table.declarationIn names.enclosing head children)
                names.scope := by
              rw [outside, enclosing]
              exact .top among kind
            have named : ∀ declared ∈ names.typeVariables, parameter declared.name := by
              have none : names.typeVariables = [] := congrArg (·.typeVariables) outside
              rw [none]
              exact List.forall_mem_nil _
            rw [TypeTable.declarations, ← enclosing] at here
            obtain ⟨own, inside⟩ := List.forall_mem_cons.mp here
            have bound : declaredBinding? table names .topLevel
                (table.source.childText .name children) =
                table.binding? (table.declarationIn names.enclosing head children).name := by
              rw [enclosing]
              rfl
            have types := typeDeclaration_corresponds rfl rfl placed named bound own
              fun created inner constants stands placed =>
                membersOfBody_corresponds children stands constants placed inside
            rw [enclosing] at types
            exact types
      have others := @ih (names.add added) (Names.scope_add.trans outside) listedLater later
      rw [← after] at others
      rw [List.mapM_cons]
      exact List.rel_append first others

end

end Lowering

namespace TypeTable

mutual

/-- Which types are declared does not depend on what is known of them. -/
theorem declarations_withDeclared (table : TypeTable) (entries : List (String × DeclaredType))
    (outer : List String) (tree : Concrete) :
    { table with declared := entries }.declarations outer tree = table.declarations outer tree := by
  match tree with
  | .node head children =>
      rw [declarations, declarations]
      exact congrArg _ (declarationsOfBody_withDeclared table entries _ children)
termination_by structural tree

theorem declarationsOfBody_withDeclared (table : TypeTable) (entries : List (String × DeclaredType))
    (outer : List String) (forest : List Concrete) :
    { table with declared := entries }.declarationsOfBody outer forest =
      table.declarationsOfBody outer forest := by
  match forest with
  | [] => rfl
  | .node head children :: forest =>
      rw [declarationsOfBody, declarationsOfBody,
        declarationsIn_withDeclared table entries outer true,
        declarationsOfBody_withDeclared table entries outer forest]
termination_by structural forest

theorem declarationsIn_withDeclared (table : TypeTable) (entries : List (String × DeclaredType))
    (outer : List String) (atTop : Bool) (forest : List Concrete) :
    { table with declared := entries }.declarationsIn outer atTop forest =
      table.declarationsIn outer atTop forest := by
  match forest with
  | [] => rfl
  | .node head children :: forest =>
      rw [declarationsIn, declarationsIn, declarationsIn_withDeclared table entries outer false,
        declarations_withDeclared table entries outer (.node head children),
        declarationsIn_withDeclared table entries outer atTop forest]
termination_by structural forest

end

/-- All types that some top-level trees declare. -/
def declaredTypes (table : TypeTable) (top : Forest) : List TypeDeclaration :=
  (top.filter (·.kind.isTypeDeclaration)).flatMap (table.declarations [])

theorem isSome_binding?_declareAll {table : TypeTable} {top : Forest}
    {declaration : TypeDeclaration}
    (member : declaration ∈ (table.declareAll top).declaredTypes top) :
    ((table.declareAll top).binding? declaration.name).isSome := by
  obtain ⟨tree, listed, inside⟩ := List.mem_flatMap.mp member
  have inside : declaration ∈ table.declarations [] tree :=
    declarations_withDeclared table _ [] tree ▸ inside
  have collected := List.mem_reverse.mpr (List.mem_flatMap.mpr ⟨tree, listed, inside⟩)
  rw [binding?, Option.isSome_map, find?, List.lookup_isSome_iff]
  exact ⟨_, List.mem_map_of_mem collected, beq_self_eq_true _⟩

/-- A name that some declared type has for a type parameter. -/
def IsTypeParameter (table : TypeTable) (top : Forest) (name : String) : Prop :=
  ∃ declaration ∈ table.declaredTypes top, name ∈ typeParameterNames table.source declaration.tree

theorem known_declareAll {table : TypeTable} {top : Forest} :
    let full := table.declareAll top
    ∀ declaration ∈ full.declaredTypes top,
      Lowering.Known full (full.IsTypeParameter top) declaration := by
  intro full declaration member
  obtain ⟨binding, found⟩ := Option.isSome_iff_exists.mp (isSome_binding?_declareAll member)
  exact {
    found := ⟨binding, found, (isIndexed_declareAll top _ _ found).1⟩
    parameters := fun name listed => ⟨declaration, member, listed⟩ }

end TypeTable

/-- The types of a unit are those in the table of its file, one by one. -/
theorem CompilationUnit.types_correspond {config : Config} {path text : String} {tree : Concrete}
    {unit : CompilationUnit} (succeeded : ofConcrete config path text tree = .ok unit) :
    let top := tree.children.named
    let table := typeTable (SourceText.ofString text) top
    List.Forall₂ (Lowering.Corresponds table top (table.IsTypeParameter top))
      (table.declaredTypes top) (Node.memberTypesAll unit.types) := by
  unfold ofConcrete at succeeded
  split at succeeded
  · cases succeeded
  · dsimp only at succeeded
    split at succeeded
    · cases succeeded
    · obtain rfl := Except.ok.inj succeeded
      exact Lowering.topLevel_corresponds _ rfl (fun tree member => List.mem_filter.mp member)
        TypeTable.known_declareAll

end JavaFacts
