import JavaFacts.Lowering.Declarations

/-!
What lowering does to the names in scope. Brackets restore what they change, so all that an action
leaves behind are variables in the innermost level. A property of scopes that such variables cannot
break therefore holds wherever a name is looked up.
-/

namespace JavaFacts

/-- All variables of a level have names that are allowed. -/
def VariableLevel.All (allowed : String → Prop) (level : VariableLevel) : Prop :=
  ∀ entry ∈ level, allowed entry.1

theorem VariableLevel.all_nil (allowed : String → Prop) : VariableLevel.All allowed [] :=
  List.forall_mem_nil _

theorem VariableLevel.All.lookup_eq_none {level : VariableLevel} {name : String}
    (others : level.All (· ≠ name)) : level.lookup name = none := by
  rw [List.lookup_eq_none_iff]
  intro entry member
  exact bne_iff_ne.mpr (others entry member).symm

namespace Names

/-- The scope with some more variables in the innermost level, if there is one. -/
def add (names : Names) (added : VariableLevel) : Names :=
  match names.levels with
  | level :: outer => { names with levels := (added ++ level) :: outer }
  | [] => names

variable {names : Names} {added others : VariableLevel}

@[simp] theorem add_nil : names.add [] = names := by
  cases names with
  | mk enclosing typeVariables selves levels components => cases levels <;> rfl

@[simp] theorem add_add : (names.add added).add others = names.add (others ++ added) := by
  cases names with
  | mk enclosing typeVariables selves levels components => cases levels <;> simp [add]

theorem declare_eq_add (name : String) (binding : Option VariableBinding) :
    names.declare name binding = names.add [(name, binding)] := rfl

@[simp] theorem popLevel_add_pushLevel (level : VariableLevel) :
    ((names.pushLevel level).add added).popLevel = names := rfl

@[simp] theorem add_typeVariables : (names.add added).typeVariables = names.typeVariables := by
  unfold add; split <;> rfl

@[simp] theorem add_selves : (names.add added).selves = names.selves := by
  unfold add; split <;> rfl

@[simp] theorem add_components : (names.add added).components = names.components := by
  unfold add; split <;> rfl

@[simp] theorem add_enclosing : (names.add added).enclosing = names.enclosing := by
  unfold add; split <;> rfl

theorem with_typeVariables_add (typeVariables : List TypeVariable) :
    { names.add added with typeVariables } = { names with typeVariables }.add added := by
  cases names with
  | mk enclosing typeVariables selves levels components => cases levels <;> rfl

theorem with_components_add (components : List FormalParameter) :
    { names.add added with components } = { names with components }.add added := by
  cases names with
  | mk enclosing typeVariables selves levels components => cases levels <;> rfl

@[simp] theorem popType_pushType (binding : Option TypeBinding) :
    (names.pushType binding).popType binding = names := by
  cases names with
  | mk enclosing typeVariables selves levels components => simp [pushType, popType]

theorem self?_add : (names.add added).self? = names.self? := by
  rw [self?, self?, add_selves]

theorem scope_add : (names.add added).scope = names.scope := by
  rw [scope, scope, add_enclosing, add_typeVariables]

/-- Variables of other names do not matter to a name. -/
theorem lookup_add {name : String} (others : added.All (· ≠ name)) :
    (names.add added).lookup name = names.lookup name := by
  unfold add
  split
  · next level outer levels =>
      rw [lookup, lookup, levels, List.findSome?_cons, List.findSome?_cons, List.lookup_append,
        others.lookup_eq_none, Option.none_or]
  · rfl

/-- In a level the variables added last come first. -/
theorem lookup_add_level {name : String} (inLevel : names.levels ≠ []) :
    (names.add added).lookup name = (added.lookup name).or (names.lookup name) := by
  cases levels : names.levels with
  | nil => exact absurd levels inLevel
  | cons level outer =>
      simp only [add, lookup, levels, List.findSome?_cons, List.lookup_append]
      cases added.lookup name <;> simp

theorem lookup_pushLevel {name : String} {level : VariableLevel} (others : level.All (· ≠ name)) :
    (names.pushLevel level).lookup name = names.lookup name := by
  rw [lookup, pushLevel, List.findSome?_cons, others.lookup_eq_none]
  rfl

/-- What a simple name denotes, if anything is known of it. -/
def binding? (table : TypeTable) (names : Names) (name : String) : Option NameBinding :=
  match names.lookup name with
  | some entry => entry.map .ofVariable
  | none => ((table.simple? names.scope name).filter (·.kind != .typeVariable)).map .ofType

end Names

/-- The type parameters of a declaration come in front of those around it. -/
theorem TypeTable.exists_own_typeVariables (table : TypeTable) (scope : TypeScope)
    (children : Forest) :
    ∃ own, table.declareParameters scope children =
        { scope with typeVariables := own ++ scope.typeVariables } ∧
      ∀ declared ∈ own, declared.name ∈ typeParameterNames table.source children := by
  unfold declareParameters typeParameterNames
  induction typeParameterNodes children generalizing scope with
  | nil => exact ⟨[], rfl, List.forall_mem_nil _⟩
  | cons parameter parameters ih =>
      obtain ⟨own, same, named⟩ := ih (table.declareParameter scope parameter)
      rw [List.foldl_cons, same]
      unfold declareParameter
      cases found : parameter.first? (·.isTypeName) with
      | none => exact ⟨own, rfl, by rwa [List.filterMap_cons_none (by rw [found]; rfl)]⟩
      | some name =>
          refine ⟨own ++ [_], congrArg (TypeScope.mk _) (List.append_assoc own [_] _).symm, ?_⟩
          rw [List.filterMap_cons_some (by rw [found]; rfl)]
          exact List.forall_mem_append.mpr
            ⟨fun declared member => List.mem_cons_of_mem _ (named declared member),
              List.forall_mem_singleton.mpr List.mem_cons_self⟩

/-- Declaring type parameters leaves the types around as they are. -/
theorem TypeTable.declareParameters_eq (table : TypeTable) (scope : TypeScope)
    (children : Forest) : table.declareParameters scope children =
      ⟨scope.enclosing, (table.declareParameters scope children).typeVariables⟩ := by
  obtain ⟨own, same, -⟩ := table.exists_own_typeVariables scope children
  rw [same]

/-- A name that is not declared among type parameters is found around them. -/
theorem TypeTable.find?_declareParameters {table : TypeTable} {scope : TypeScope}
    {children : Forest} {name : String} (others : name ∉ typeParameterNames table.source children) :
    (table.declareParameters scope children).typeVariables.find? (·.name == name) =
      scope.typeVariables.find? (·.name == name) := by
  obtain ⟨own, same, named⟩ := table.exists_own_typeVariables scope children
  have missing : own.find? (·.name == name) = none := by
    rw [List.find?_eq_none]
    intro declared member here
    exact others (beq_iff_eq.mp here ▸ named declared member)
  rw [same, List.find?_append, missing, Option.none_or]

namespace Lowering

/-- What is asked of the names and types in a lowered tree. -/
structure Meaning where
  /-- Bindings that a simple name may have. -/
  bound : String → Option NameBinding → Prop
  used : TypeUse → Prop
  /-- Names that the type parameters and enums of the tree may have. -/
  opens : String → Prop

namespace Meaning

/-- What is made of a use cannot break what is asked of it. The constants of an enum use the enum as
their type without writing it. -/
structure Closed (meaning : Meaning) : Prop where
  unknown (span : Span) : meaning.used (.unknown span)
  withDimensions {use : TypeUse} (dimensions : Nat) :
    meaning.used use → meaning.used (use.withDimensions dimensions)
  inferred {use : TypeUse} (declared : List DeclaredVariable) :
    meaning.used use → meaning.used (inferred use declared)
  created {name : String} (span : Span) (binding : Option TypeBinding) :
    meaning.opens name → meaning.used ⟨span, .simple name, binding⟩

/-- Nothing is asked of types. -/
def ofNames (bound : String → Option NameBinding → Prop) : Meaning :=
  ⟨bound, fun _ => True, fun _ => True⟩

theorem closed_ofNames (bound : String → Option NameBinding → Prop) : (ofNames bound).Closed :=
  ⟨fun _ => trivial, fun _ _ => trivial, fun _ _ => trivial, fun _ _ _ => trivial⟩

end Meaning

/-- The scope with the type parameters that a declaration lists. -/
def withParameters (table : TypeTable) (declaration : Forest) (names : Names) : Names :=
  { names with typeVariables := (table.declareParameters names.scope declaration).typeVariables }

/-- A property of scopes that allowed names cannot break, whatever brackets are opened. Where it
holds simple names and types mean what is asked of them. -/
structure Steady (table : TypeTable) (fits : Names → Prop) (allowed : String → Prop)
    (meaning : Meaning) : Prop where
  closed : meaning.Closed
  reads {names : Names} (name : String) :
    fits names → meaning.bound name (names.binding? table name)
  uses {names : Names} (tree : Concrete) :
    fits names → meaning.used (table.typeUse names.scope tree)
  add {names : Names} {added : VariableLevel} :
    fits names → added.All allowed → fits (names.add added)
  pushLevel {names : Names} {level : VariableLevel} :
    fits names → level.All allowed → fits (names.pushLevel level)
  /-- Types in code cannot be named. -/
  pushType {names : Names} : fits names → fits (names.pushType none)
  typeVariables {names : Names} {declaration : Forest} : fits names →
    (∀ name ∈ TypeTable.typeParameterNames table.source declaration, meaning.opens name) →
    fits (withParameters table declaration names)
  components {names : Names} {components : List FormalParameter} : fits names →
    (∀ component ∈ components, allowed component.name ∧ meaning.used component.type) →
    fits { names with components }
  component {names : Names} : fits names →
    ∀ component ∈ names.components, allowed component.name ∧ meaning.used component.type

/-- Where `fits` holds the action gives good results only, and all that it leaves in scope are
variables with allowed names. -/
def Keeps (fits : Names → Prop) (allowed : String → Prop) (action : Lowering α)
    (good : α → Prop) : Prop :=
  ∀ names, fits names →
    (∃ added : VariableLevel, (action.run names).2 = names.add added ∧ added.All allowed) ∧
      good (action.run names).1

namespace Keeps

variable {fits : Names → Prop} {allowed : String → Prop}

theorem unchanged {action : Lowering α} {good : α → Prop}
    (each : ∀ names, fits names → (action.run names).2 = names ∧ good (action.run names).1) :
    Keeps fits allowed action good := fun names here =>
  ⟨⟨[], (each names here).1.trans Names.add_nil.symm, List.forall_mem_nil _⟩, (each names here).2⟩

theorem pure {value : α} {good : α → Prop} (here : good value) :
    Keeps fits allowed (Pure.pure value) good :=
  .unchanged fun _ _ => ⟨rfl, here⟩

theorem get {next : Names → Lowering α} {good : α → Prop}
    (rest : ∀ names, fits names → Keeps fits allowed (next names) good) :
    Keeps fits allowed (MonadState.get >>= next) good :=
  fun names here => rest names here names here

theorem map {action : Lowering α} {change : α → β} {good : α → Prop} {better : β → Prop}
    (keeps : Keeps fits allowed action good)
    (enough : ∀ value, good value → better (change value)) :
    Keeps fits allowed (change <$> action) better := fun names here =>
  ⟨(keeps names here).1, enough _ (keeps names here).2⟩

theorem weaken {action : Lowering α} {good better : α → Prop}
    (keeps : Keeps fits allowed action good) (enough : ∀ value, good value → better value) :
    Keeps fits allowed action better := fun names here =>
  ⟨(keeps names here).1, enough _ (keeps names here).2⟩

theorem forget {action : Lowering α} {good : α → Prop} (keeps : Keeps fits allowed action good) :
    Keeps fits allowed action fun _ => True :=
  keeps.weaken fun _ _ => trivial

variable {table : TypeTable} {meaning : Meaning} (steady : Steady table fits allowed meaning)
include steady

theorem bind {action : Lowering α} {next : α → Lowering β} {good : α → Prop} {better : β → Prop}
    (first : Keeps fits allowed action good)
    (rest : ∀ value, good value → Keeps fits allowed (next value) better) :
    Keeps fits allowed (action >>= next) better := by
  intro names here
  obtain ⟨⟨added, after, fine⟩, value⟩ := first names here
  have there : fits (action.run names).2 := after ▸ steady.add here fine
  obtain ⟨⟨later, behind, well⟩, result⟩ := rest _ value _ there
  refine ⟨⟨later ++ added, behind.trans ?_, List.forall_mem_append.mpr ⟨well, fine⟩⟩, result⟩
  rw [after, Names.add_add]

theorem andThen {action : Lowering α} {next : α → Lowering β} {good : β → Prop}
    (first : Keeps fits allowed action fun _ => True)
    (rest : ∀ value, Keeps fits allowed (next value) good) :
    Keeps fits allowed (action >>= next) good :=
  .bind steady first fun value _ => rest value

theorem forM {items : List α} {action : α → Lowering Unit}
    (each : ∀ item ∈ items, Keeps fits allowed (action item) fun _ => True) :
    Keeps fits allowed (items.forM action) fun _ => True := by
  induction items with
  | nil => exact .pure trivial
  | cons item items ih =>
      rw [List.forM]
      exact .andThen steady (each item List.mem_cons_self) fun _ =>
        ih fun other member => each other (List.mem_cons_of_mem _ member)

theorem mapM {items : List α} {action : α → Lowering β} {good : β → Prop}
    (each : ∀ item, Keeps fits allowed (action item) good) :
    Keeps fits allowed (items.mapM action) fun results => ∀ result ∈ results, good result := by
  induction items with
  | nil => exact .pure (List.forall_mem_nil _)
  | cons item items ih =>
      rw [List.mapM_cons]
      exact .bind steady (each item) fun _ first => .bind steady ih fun _ others =>
        .pure (List.forall_mem_cons.mpr ⟨first, others⟩)

end Keeps

/-- A scope in a local or anonymous class, or in none at all. -/
def Unnamed (fits : Names → Prop) (names : Names) : Prop :=
  fits names ∧ names.self? = none

theorem Steady.unnamed {table : TypeTable} {fits : Names → Prop} {allowed : String → Prop}
    {meaning : Meaning} (steady : Steady table fits allowed meaning) :
    Steady table (Unnamed fits) allowed meaning where
  closed := steady.closed
  reads name here := steady.reads name here.1
  uses tree here := steady.uses tree here.1
  add here fine := ⟨steady.add here.1 fine, Names.self?_add.trans here.2⟩
  pushLevel here fine := ⟨steady.pushLevel here.1 fine, here.2⟩
  pushType here := ⟨steady.pushType here.1, rfl⟩
  typeVariables here fine := ⟨steady.typeVariables here.1 fine, here.2⟩
  components here fine := ⟨steady.components here.1 fine, here.2⟩
  component here := steady.component here.1

/-- Where `fits` holds, types with that placement that can be named are entered without breaking
`inner`. -/
def Enters (table : TypeTable) (fits inner : Names → Prop) (allowed : String → Prop)
    (placement : Placement) : Prop :=
  ∀ names name binding, fits names → declaredBinding? table names placement name = some binding →
    VariableLevel.All allowed (table.visibleFields binding.name) ∧
      ∀ inside, inner inside → inner (inside.pushType (some binding))

theorem enters_localType (table : TypeTable) (fits inner : Names → Prop)
    (allowed : String → Prop) : Enters table fits inner allowed .localType :=
  fun _ _ _ _ => (nomatch ·)

theorem enters_unnamed (table : TypeTable) (fits inner : Names → Prop) (allowed : String → Prop) :
    Enters table (Unnamed fits) inner allowed .member := by
  intro names name binding here found
  simp [declaredBinding?, here.2] at found

section

variable {table : TypeTable} {fits : Names → Prop} {allowed other : String → Prop}
  {meaning : Meaning} {α : Type} {action : Lowering α} {good : α → Prop}

theorem declareLocal_keeps {name : String} (fine : allowed name) (type : TypeUse) :
    Keeps fits allowed (declareLocal name type) fun _ => True :=
  fun _ _ => ⟨⟨[(name, _)], rfl, List.forall_mem_singleton.mpr fine⟩, trivial⟩

theorem declareHidden_keeps {name : String} (fine : allowed name) :
    Keeps fits allowed (declareHidden name) fun _ => True :=
  fun _ _ => ⟨⟨[(name, _)], rfl, List.forall_mem_singleton.mpr fine⟩, trivial⟩

/-- A level is closed together with all that was declared in it. -/
theorem inLevel_keeps (steady : Steady table fits allowed meaning) {level : VariableLevel}
    (fine : level.All allowed) (inside : Keeps fits allowed action good) :
    Keeps fits other (inLevel level action) good := by
  refine .unchanged fun names here => ?_
  obtain ⟨⟨added, after, -⟩, result⟩ := inside _ (steady.pushLevel here fine)
  exact ⟨(congrArg Names.popLevel after).trans (Names.popLevel_add_pushLevel level), result⟩

theorem inType_keeps {inner : Names → Prop} (steady : Steady table inner allowed meaning)
    {binding : Option TypeBinding} (enters : ∀ names, fits names → inner (names.pushType binding))
    {fields : VariableLevel} (fine : fields.All allowed)
    (inside : Keeps inner allowed action good) :
    Keeps fits other (inType binding fields action) good := by
  refine .unchanged fun names here => ?_
  obtain ⟨⟨added, after, -⟩, result⟩ := inside _ (steady.pushLevel (enters names here) fine)
  have closed := (congrArg Names.popLevel after).trans (Names.popLevel_add_pushLevel fields)
  exact ⟨(congrArg (Names.popType binding) closed).trans (Names.popType_pushType binding), result⟩

/-- Behind a declaration its type parameters are gone. -/
theorem withTypeParameters_keeps {inner : Names → Prop} {declaration : Forest}
    (opens : ∀ names, fits names → inner (withParameters table declaration names))
    (inside : Keeps inner allowed action good) :
    Keeps fits allowed (withTypeParameters table declaration action) good := by
  intro names here
  obtain ⟨⟨added, after, fine⟩, result⟩ := inside _ (opens names here)
  refine ⟨⟨added, ?_, fine⟩, result⟩
  let close (inside : Names) : Names := { inside with
    typeVariables := inside.typeVariables.drop
      (inside.typeVariables.length - names.typeVariables.length) }
  obtain ⟨own, extended, -⟩ := table.exists_own_typeVariables names.scope declaration
  refine (congrArg close after).trans ?_
  simp only [close, withParameters]
  rw [Names.with_typeVariables_add, Names.add_typeVariables, extended, List.length_append,
    Names.scope, Nat.add_sub_cancel, List.drop_left]

theorem typeOf_used (closed : meaning.Closed) {scope : TypeScope}
    (uses : ∀ tree, meaning.used (table.typeUse scope tree)) (head : ConcreteHead)
    (children : Forest) : meaning.used (table.typeOf scope head children) := by
  unfold TypeTable.typeOf
  split
  · exact uses _
  · exact closed.unknown _

variable (steady : Steady table fits allowed meaning)
include steady

theorem typeUse_keeps (tree : Concrete) : Keeps fits allowed (typeUse table tree) meaning.used :=
  .unchanged fun _ here => ⟨rfl, steady.uses tree here⟩

theorem optionUse_keeps (tree : Option Concrete) :
    Keeps fits allowed (tree.mapM (typeUse table)) fun type => ∀ use ∈ type, meaning.used use := by
  cases tree with
  | none => exact .pure fun _ => (nomatch ·)
  | some tree =>
      exact .bind steady (typeUse_keeps steady tree) fun _ used =>
        .pure fun _ same => Option.some.inj same ▸ used

theorem typeOf_keeps (head : ConcreteHead) (children : Forest) :
    Keeps fits allowed (typeOf table head children) meaning.used :=
  .unchanged fun _ here => ⟨rfl, typeOf_used steady.closed (steady.uses · here) head children⟩

theorem withComponents_keeps {components : List FormalParameter}
    (fine : ∀ component ∈ components, allowed component.name ∧ meaning.used component.type)
    (inside : Keeps fits allowed action good) :
    Keeps fits allowed (withComponents components action) good := by
  intro names here
  obtain ⟨⟨added, after, well⟩, result⟩ := inside _ (steady.components here fine)
  refine ⟨⟨added, ?_, well⟩, result⟩
  exact (congrArg (fun inside : Names => { inside with components := names.components })
    after).trans (Names.with_components_add _)

end

end Lowering

end JavaFacts
