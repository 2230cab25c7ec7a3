import JavaFacts.Proofs.Lowering.Unit
import JavaFacts.Proofs.Outline.Ownership
import JavaFacts.Proofs.Outline.Reached

/-!
Owners lead to packages. A type is declared inside others with shorter names only, and in the package
that its name tells, as long as the names are put together from identifiers.
-/

namespace JavaFacts

open Naming (DeclaredIn IsInner IsDotted IsIdentifier)

/-- Whether a type may be declared in a package, inside another type or outside of all. -/
def Nests (package : String) (outer : Option String) (name : String) : Prop :=
  DeclaredIn package name ∧ ∀ type, outer = some type →
    DeclaredIn package type ∧ Naming.nameSize type < Naming.nameSize name

theorem nests_inner {package outer rest : String} (declared : DeclaredIn package outer)
    (inner : IsInner rest) :
    Nests package (some outer) (Naming.withoutTypeParameters outer ++ "$" ++ rest) := by
  refine ⟨(declared.inner inner).1, fun type same => ?_⟩
  obtain rfl := Option.some.inj same
  exact ⟨declared, (declared.inner inner).2⟩

section

variable {table : TypeTable} {simple : String} {parameters : List String}

theorem free_of_identifiers (identifiers : ∀ parameter ∈ parameters, IsIdentifier parameter) :
    ∀ parameter ∈ parameters, '(' ∉ parameter.toList :=
  fun parameter member => (identifiers parameter member).free rfl

theorem isInner_simple (identifier : IsIdentifier simple)
    (identifiers : ∀ parameter ∈ parameters, IsIdentifier parameter) :
    IsInner (simple ++ Naming.typeParameterList parameters) := by
  have inner : IsInner ("" ++ (simple ++ Naming.typeParameterList parameters)) :=
    .of_parts (by decide) (by decide) (by decide) identifier (free_of_identifiers identifiers)
  rwa [String.empty_append] at inner

theorem isInner_numbered (ordinal : Nat) (identifier : IsIdentifier simple)
    (identifiers : ∀ parameter ∈ parameters, IsIdentifier parameter) :
    IsInner (toString ordinal ++ (simple ++ Naming.typeParameterList parameters)) :=
  .of_parts (Naming.not_mem_toString rfl ordinal) (Naming.not_mem_toString rfl ordinal)
    (Naming.not_mem_toString rfl ordinal) identifier (free_of_identifiers identifiers)

theorem isInner_anonymous (ordinal : Nat) : IsInner (toString ordinal ++ "!") := by
  apply Naming.isInner_of_free <;> rw [Text.not_mem_append] <;>
    exact ⟨Naming.not_mem_toString rfl ordinal, by decide⟩

theorem nests_qualify (packages : table.HasNamedPackage) (identifier : IsIdentifier simple)
    (identifiers : ∀ parameter ∈ parameters, IsIdentifier parameter) :
    Nests (table.package.getD Naming.defaultPackage) none
      (table.qualify simple ++ Naming.typeParameterList parameters) := by
  refine ⟨.outermost (TypeTable.isDotted_qualify packages identifier) identifier parameters
    (free_of_identifiers identifiers) ?_, nofun⟩
  unfold TypeTable.qualify
  cases known : table.package with
  | none => exact .inl ⟨rfl, rfl⟩
  | some package =>
      have nonempty : package.isEmpty = false :=
        Bool.eq_false_iff.mpr fun empty => (packages package known).nonempty (String.isEmpty_iff.mp empty)
      dsimp only
      rw [nonempty]
      exact .inr rfl

end

namespace CompilationUnit

variable {unit : CompilationUnit} {table : TypeTable}

/-- The names that a bound type gets nest. -/
theorem FitsTable.nests_bound (fits : unit.FitsTable table) {around : Around} {header : TypeHeader}
    {types : List String} {binding : TypeBinding}
    (part : .type around header ∈ unit.parts) (bound : header.binding = some binding)
    (place : around.Fits types)
    (nested : ∀ type ∈ types, DeclaredIn (unit.package.getD Naming.defaultPackage) type) :
    Nests (unit.package.getD Naming.defaultPackage) types.head?
      (binding.name ++ Naming.typeParameterList binding.typeParameters) := by
  obtain ⟨identifier, -, known⟩ := fits.parts _ part
  obtain ⟨declared, named⟩ := known binding bound
  cases around with
  | outside =>
      obtain rfl : types = [] := place
      have named : binding.name = table.qualify header.name := named
      rw [named, fits.package]
      exact nests_qualify fits.packages identifier declared.typeParameters
  | anonymous => exact named.elim
  | named outer =>
      obtain ⟨own, ownBound, ownDeclared, named⟩ := named
      obtain ⟨type, others, rfl, sameName⟩ := place
      have same : type = own.name ++ Naming.typeParameterList own.typeParameters :=
        sameName _ (by rw [ownBound]; exact ownDeclared.bindingName?)
      have stripped : Naming.withoutTypeParameters type = own.name := by
        rw [same]
        exact ownDeclared.withoutTypeParameters
      have inner := nests_inner (nested type List.mem_cons_self)
        (isInner_simple identifier declared.typeParameters)
      rw [stripped, ← String.append_assoc] at inner
      rw [named]
      exact inner

/-- The names that a type without a binding may get nest. -/
theorem FitsTable.nests_unbound (fits : unit.FitsTable table) (config : Config)
    {around : Around} {header : TypeHeader} {standing : Standing} (part : .type around header ∈ unit.parts)
    (unbound : header.binding = none)
    (nested : ∀ type ∈ standing.types, DeclaredIn (unit.package.getD Naming.defaultPackage) type)
    {name : String} (gives : (standing.naming (unit.origin config) header).Gives name) :
    Nests (unit.package.getD Naming.defaultPackage) standing.types.head? name := by
  obtain ⟨identifier, identifiers, -⟩ := fits.parts _ part
  have unnamed : header.binding.bind Naming.bindingName? = none := by rw [unbound]; rfl
  have same : (unit.origin config).package = table.package := fits.package
  simp only [Standing.naming, unnamed] at gives
  cases types : standing.types with
  | nil =>
      have shape : name = table.qualify header.name ++ Naming.typeParameterList header.typeParameters := by
        rw [types, same] at gives
        unfold TypeTable.qualify
        cases known : table.package with
        | none =>
            rw [known] at gives
            exact gives
        | some package =>
            rw [known] at gives
            have gives : name = if package.isEmpty then _ else _ := gives
            rw [gives]
            dsimp only
            split
            · rfl
            · exact String.append_assoc.symm
      rw [shape, fits.package]
      exact nests_qualify fits.packages identifier identifiers
  | cons type outer =>
      rw [types] at gives nested
      have declared := nested type List.mem_cons_self
      dsimp only at gives
      split at gives
      · obtain ⟨ordinal, rfl⟩ := gives
        have inner := nests_inner declared (isInner_numbered ordinal identifier identifiers)
        rw [← String.append_assoc] at inner
        exact inner
      · obtain rfl := gives
        exact nests_inner declared (isInner_simple identifier identifiers)

theorem FitsTable.sound (fits : unit.FitsTable table) (config : Config) :
    (unit.setting config (Nests (unit.package.getD Naming.defaultPackage))).Sound where
  trans outer inner := ⟨inner.1, fun type same =>
    have first := outer.2 type same
    ⟨first.1, first.2.trans (inner.2 _ rfl).2⟩⟩
  type {around header} part standing place nested name gives := by
    have declared : ∀ type ∈ standing.types,
        DeclaredIn (unit.package.getD Naming.defaultPackage) type :=
      fun type member => (nested type member).elim fun _ nests => nests.1
    cases bound : header.binding with
    | none => exact fits.nests_unbound config part bound declared gives
    | some binding =>
        have known := ((fits.parts _ part).2.2 binding bound).1
        have named : header.binding.bind Naming.bindingName? =
            some (binding.name ++ Naming.typeParameterList binding.typeParameters) := by
          rw [bound]
          exact known.bindingName?
        simp only [Standing.naming, named] at gives
        rw [TypeNaming.Gives] at gives
        rw [gives]
        exact fits.nests_bound part bound place declared
  anonymousClass {binding} part enclosing ordinal nested := by
    have unbound : binding = none := fits.parts _ part
    obtain ⟨outer, declared, -⟩ := nested
    rw [unbound, Option.bind_none, Option.getD_none, Naming.anonymousName, String.append_assoc]
    exact nests_inner declared (isInner_anonymous ordinal)

theorem FitsTable.classOf_eq (fits : unit.FitsTable table) {package type method : String}
    (declared : DeclaredIn package type) (named : NamedMethod unit.parts type method) :
    Naming.classOf method = type := by
  cases named with
  | declared part => exact Naming.classOf_methodName declared.plain (fits.parts _ part) _
  | host marked => exact Naming.classOf_initializerName declared.plain marked

end CompilationUnit

/-- Whether an owner is nearer to the package. -/
inductive MayOwn : Identity → Identity → Prop where
  | packageOf {name package : String} : Naming.packageOf name = package →
      MayOwn (.type, name) (.package, package)
  | inType {outer name : String} : Naming.packageOf name = Naming.packageOf outer →
      Naming.nameSize outer < Naming.nameSize name → MayOwn (.type, name) (.type, outer)
  | inMethod {outer name method : String} : Naming.classOf method = outer →
      Naming.packageOf name = Naming.packageOf outer → Naming.nameSize outer < Naming.nameSize name →
      MayOwn (.type, name) (.method, method)
  | classOf {name type : String} : Naming.classOf name = type → MayOwn (.method, name) (.type, type)
  | field {name type : String} : MayOwn (.field, name) (.type, type)
  | parameter {name method : String} : MayOwn (.parameter, name) (.method, method)
  | localVariable {name method : String} : MayOwn (.localVariable, name) (.method, method)

namespace CompilationUnit

theorem FitsTable.owning {unit : CompilationUnit} {table : TypeTable} (fits : unit.FitsTable table)
    (config : Config) :
    (unit.setting config (Nests (unit.package.getD Naming.defaultPackage))).Owning MayOwn where
  placeholder name := .packageOf rfl
  outermost nests := .packageOf nests.1.packageOf_eq
  inner nests := by
    have outer := nests.2 _ rfl
    exact .inType (nests.1.packageOf_eq.trans outer.1.packageOf_eq.symm) outer.2
  inMethod nests named := by
    have outer := nests.2 _ rfl
    exact .inMethod (fits.classOf_eq outer.1 named)
      (nests.1.packageOf_eq.trans outer.1.packageOf_eq.symm) outer.2
  method nests named := .classOf (fits.classOf_eq nests.1 named)
  constructor parameterTypes nests := by
    refine .classOf (Naming.classOf_methodName nests.1.plain ?_ parameterTypes)
    exact fun plain => absurd plain.symm Bool.false_ne_true
  bound part := absurd (fits.parts _ part : _ = none) (Option.some_ne_none _)
  field _ _ := .field
  parameter _ _ := .parameter
  localVariable _ _ := .localVariable

theorem IsLowered.extract_owned {unit : CompilationUnit} (lowered : unit.IsLowered) (config : Config)
    {store : Store} (whole : store.Whole) (owned : store.facts.OwnedBy MayOwn) :
    (unit.extract config store).store.Whole ∧ (unit.extract config store).store.facts.OwnedBy MayOwn := by
  obtain ⟨table, fits⟩ := lowered.fitsTable
  obtain ⟨after, -, same⟩ := unit.extract_facts config whole
  exact ⟨after, same ▸ unit.plan_owned config (fits.sound config) (fits.owning config) owned⟩

end CompilationUnit

namespace Store

/-- Following owners from an entity leads to a package. -/
inductive LeadsTo (store : Store) : EntityId → EntityId → Prop where
  | here {package : EntityId} {entity : Entity} : store.entity? package = some entity →
      entity.kind = .package → entity.owner = none → LeadsTo store package package
  | up {id owner package : EntityId} {entity : Entity} : store.entity? id = some entity →
      entity.owner = some owner → LeadsTo store owner package → LeadsTo store id package

/-- Following owners from an entity leads to the package of that name. -/
def LeadsHome (store : Store) (id : EntityId) (name : String) : Prop :=
  ∃ package, store.LeadsTo id package ∧ store.identity? package = some (.package, name)

section

variable {store : Store} {id : EntityId} {name : String}

theorem leadsHome_package (whole : store.Whole) (named : store.identity? id = some (.package, name)) :
    store.LeadsHome id name := by
  obtain ⟨entity, found, same⟩ := exists_entity_of_identity named
  have kind : entity.kind = .package := congrArg Prod.fst same
  refine ⟨id, .here found kind ?_, named⟩
  cases owned : entity.owner with
  | none => rfl
  | some owner =>
      obtain ⟨ownerKind, allowed, -⟩ := (whole.entity found).owner owned
      rw [kind] at allowed
      cases allowed

/-- One step on the way. -/
theorem leadsHome_up (whole : store.Whole) (owned : store.facts.OwnedBy MayOwn) {kind : EntityKind}
    (named : store.identity? id = some (kind, name)) (inner : kind ≠ .package) :
    ∃ owner identity, store.identity? owner = some identity ∧ MayOwn (kind, name) identity ∧
      ∀ home, store.LeadsHome owner home → store.LeadsHome id home := by
  obtain ⟨entity, found, same⟩ := exists_entity_of_identity named
  have known := knows_facts whole.toSound found
  rw [same] at known
  obtain ⟨identity, owns, may⟩ := owned _ known inner not_false
  rw [← same, owner?_facts whole.toSound found] at owns
  obtain ⟨owner, above, owns⟩ := Option.bind_eq_some_iff.mp owns
  exact ⟨owner, identity, owns, may, fun home ⟨package, leads, isHome⟩ =>
    ⟨package, .up found above leads, isHome⟩⟩

/-- A type is declared inside types with shorter names only, so by strong induction on the length. -/
theorem leadsHome_type (whole : store.Whole) (owned : store.facts.OwnedBy MayOwn)
    (named : store.identity? id = some (.type, name)) :
    store.LeadsHome id (Naming.packageOf name) := by
  induction size : Naming.nameSize name using Nat.strongRecOn generalizing id name with
  | ind bound ih =>
      obtain ⟨owner, identity, ownerNamed, may, up⟩ := leadsHome_up whole owned named nofun
      apply up
      cases may with
      | packageOf same => exact same ▸ leadsHome_package whole ownerNamed
      | inType same shorter => exact same ▸ ih _ (size ▸ shorter) ownerNamed rfl
      | inMethod inside same shorter =>
          obtain ⟨type, typeIdentity, typeNamed, mayMethod, further⟩ :=
            leadsHome_up whole owned ownerNamed nofun
          apply further
          cases mayMethod with
          | classOf here =>
              obtain rfl := inside.symm.trans here
              exact same ▸ ih _ (size ▸ shorter) typeNamed rfl

theorem leadsHome (whole : store.Whole) (owned : store.facts.OwnedBy MayOwn) {kind : EntityKind}
    (named : store.identity? id = some (kind, name)) (inner : kind ≠ .package) :
    ∃ home, store.LeadsHome id home ∧ (kind = .type → home = Naming.packageOf name) := by
  have method {id : EntityId} {name : String} (named : store.identity? id = some (.method, name)) :
      ∃ home, store.LeadsHome id home := by
    obtain ⟨owner, identity, ownerNamed, may, up⟩ := leadsHome_up whole owned named nofun
    cases may with
    | classOf => exact ⟨_, up _ (leadsHome_type whole owned ownerNamed)⟩
  obtain ⟨owner, identity, ownerNamed, may, up⟩ := leadsHome_up whole owned named inner
  cases kind with
  | package => exact absurd rfl inner
  | type => exact ⟨_, leadsHome_type whole owned named, fun _ => rfl⟩
  | method => exact (method named).imp fun _ leads => ⟨leads, nofun⟩
  | field =>
      cases may with
      | field => exact ⟨_, up _ (leadsHome_type whole owned ownerNamed), nofun⟩
  | parameter =>
      cases may with
      | parameter => exact (method ownerNamed).imp fun _ leads => ⟨up _ leads, nofun⟩
  | localVariable =>
      cases may with
      | localVariable => exact (method ownerNamed).imp fun _ leads => ⟨up _ leads, nofun⟩

end

/-- The store that extracting units into an empty one leads to, one behind the other. -/
def ofUnits (units : List (Config × CompilationUnit)) : Store :=
  units.foldl (fun store unit => (unit.2.extract unit.1 store).store) ∅

/-- What every extraction keeps holds of the store behind all of them. -/
theorem ofUnits_keeps {units : List (Config × CompilationUnit)} (holds : Store → Prop) (empty : holds ∅)
    (keeps : ∀ unit ∈ units, ∀ store, holds store → holds (unit.2.extract unit.1 store).store) :
    holds (ofUnits units) := by
  rw [ofUnits]
  generalize (∅ : Store) = store at empty ⊢
  induction units generalizing store with
  | nil => exact empty
  | cons unit units ih =>
      rw [List.forall_mem_cons] at keeps
      exact ih keeps.2 _ (keeps.1 store empty)

theorem ofUnits_owned {units : List (Config × CompilationUnit)}
    (lowered : ∀ unit ∈ units, unit.2.IsLowered) :
    (ofUnits units).Whole ∧ (ofUnits units).facts.OwnedBy MayOwn := by
  refine ofUnits_keeps (fun store => store.Whole ∧ store.facts.OwnedBy MayOwn) ⟨.empty, ?_⟩
    fun unit member store held => (lowered unit member).extract_owned unit.1 held.1 held.2
  rw [facts_empty]
  exact fun _ known => absurd rfl known

/-- In the facts of lowered units, extracted in any order and maybe more than once, owners lead from
everything to a package, and from a type to the package that the name of the type tells. -/
theorem owners_lead_to_package {units : List (Config × CompilationUnit)}
    (lowered : ∀ unit ∈ units, unit.2.IsLowered) {id : EntityId} {entity : Entity}
    (found : (ofUnits units).entity? id = some entity) (inner : entity.kind ≠ .package) :
    ∃ package, (ofUnits units).LeadsHome id package ∧
      (entity.kind = .type → package = Naming.packageOf entity.name) := by
  obtain ⟨whole, owned⟩ := ofUnits_owned lowered
  exact leadsHome whole owned (identity?_of_entity found) inner

/-- The file `class A{class B{}}`. -/
theorem owners_lead_to_package_of_nested :
    let node (role : Option Role) (kind : ConcreteKind) (start stop : Nat) (children : Forest) :
        Concrete := .node ⟨role, kind, true, false, false, false, start, stop⟩ children
    let inner := node none .classDeclaration 8 17
      [node (some .name) .identifier 14 15 [], node (some .body) .classBody 15 17 []]
    let outer := node none .classDeclaration 0 18
      [node (some .name) .identifier 6 7 [], node (some .body) .classBody 7 18 [inner]]
    ∃ unit, CompilationUnit.ofConcrete .standard "A.java" "class A{class B{}}"
        (node none .other 0 18 [outer]) = .ok unit ∧
      ∀ id entity, (ofUnits [(.standard, unit)]).entity? id = some entity → entity.kind = .type →
        (ofUnits [(.standard, unit)]).LeadsHome id (Naming.packageOf entity.name) := by
  intro node inner outer
  have read : ∃ unit, CompilationUnit.ofConcrete .standard "A.java" "class A{class B{}}"
      (node none .other 0 18 [outer]) = .ok unit := by
    unfold CompilationUnit.ofConcrete
    rw [if_neg (by decide)]
    exact ⟨_, rfl⟩
  obtain ⟨unit, read⟩ := read
  let source := SourceText.ofString "class A{class B{}}"
  have name (start : Nat) (text : String)
      (same : source.textOf ⟨some .name, .identifier, true, false, false, false, start, start + 1⟩ = text)
      (identifier : IsIdentifier text) :
      (node (some .name) .identifier start (start + 1) []).Grammatical source :=
    .node ⟨fun _ => same ▸ identifier, (·.elim nofun nofun), nofun⟩ fun _ => (nomatch ·)
  have body (role : Option Role) (kind : ConcreteKind) (other : kind ∈ [.classBody, .other])
      (start stop : Nat) (children : Forest) (inside : ∀ child ∈ children, child.Grammatical source) :
      (node role kind start stop children).Grammatical source := by
    rcases List.mem_pair.mp other with rfl | rfl
    · exact .node ⟨nofun, (·.elim nofun nofun), nofun⟩ inside
    · exact .node ⟨nofun, (·.elim nofun nofun), nofun⟩ inside
  have type (start stop : Nat) (name body : Concrete) (named : name.head.role = some .name)
      (kind : name.kind = .identifier)
      (nameFits : name.Grammatical source) (bodyFits : body.Grammatical source) :
      (node none .classDeclaration start stop [name, body]).Grammatical source := by
    have found : Forest.child? .name [name, body] = some name := by
      rw [Forest.child?, List.find?_cons_of_pos]
      exact beq_iff_eq.mpr named
    refine .node ⟨nofun, fun _ => ⟨name, found, by rw [kind]; rfl⟩, nofun⟩ ?_
    exact List.forall_mem_cons.mpr ⟨nameFits, List.forall_mem_singleton.mpr bodyFits⟩
  have innerFits : inner.Grammatical source :=
    type 8 17 _ _ rfl rfl (name 14 "B" (by decide) ⟨by decide, List.forall_mem_singleton.mpr rfl, rfl⟩)
      (body _ _ (by decide) 15 17 [] fun _ => (nomatch ·))
  have outerFits : outer.Grammatical source :=
    type 0 18 _ _ rfl rfl (name 6 "A" (by decide) ⟨by decide, List.forall_mem_singleton.mpr rfl, rfl⟩)
      (body _ _ (by decide) 7 18 [inner] (List.forall_mem_singleton.mpr innerFits))
  have grammatical : (node none .other 0 18 [outer]).Grammatical source :=
    body _ _ (by decide) 0 18 [outer] (List.forall_mem_singleton.mpr outerFits)
  refine ⟨unit, read, fun id entity found kind => ?_⟩
  have lowered : ∀ other ∈ [((.standard, unit) : Config × CompilationUnit)], other.2.IsLowered :=
    List.forall_mem_singleton.mpr ⟨_, _, _, _, read, grammatical⟩
  obtain ⟨package, leads, same⟩ := owners_lead_to_package lowered found (kind ▸ nofun)
  exact same kind ▸ leads

end Store

end JavaFacts
