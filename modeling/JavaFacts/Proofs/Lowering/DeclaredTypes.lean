import JavaFacts.Proofs.Lowering.Grammar

/-!
Names of the types that a file declares. Every type is in the table of the file under the name that
its binding has, and such a name consists of identifiers.
-/

namespace JavaFacts

open Naming (IsIdentifier IsDotted)

/-- A binding that a file has for a type that it declares. -/
structure TypeBinding.IsDeclared (binding : TypeBinding) : Prop where
  shape : ∃ kind, binding = { named (TypeTable.declaredKind kind) binding.name with
    typeParameters := binding.typeParameters }
  name : IsDotted binding.name
  typeParameters : ∀ parameter ∈ binding.typeParameters, IsIdentifier parameter

/-- The name of a binding that a file has for a type, unless that is empty. -/
theorem TypeBinding.bindingName?_of_shape {binding : TypeBinding}
    (shape : ∃ kind, binding = { named (TypeTable.declaredKind kind) binding.name with
      typeParameters := binding.typeParameters }) :
    Naming.bindingName? binding = if binding.name.isEmpty then none
      else some (binding.name ++ Naming.typeParameterList binding.typeParameters) := by
  obtain ⟨kind, shape⟩ := shape
  generalize binding.name = name, binding.typeParameters = parameters at shape ⊢
  subst shape
  cases kind <;>
    simp only [named, TypeTable.declaredKind, Naming.bindingName?, Bool.false_and, Bool.or_false]

namespace TypeBinding.IsDeclared

variable {binding : TypeBinding}

theorem bindingName? (declared : binding.IsDeclared) : Naming.bindingName? binding =
    some (binding.name ++ Naming.typeParameterList binding.typeParameters) := by
  have nonempty : binding.name.isEmpty = false :=
    Bool.eq_false_iff.mpr fun empty => declared.name.nonempty (String.isEmpty_iff.mp empty)
  rw [bindingName?_of_shape declared.shape, nonempty, if_neg Bool.false_ne_true]

theorem withoutTypeParameters (declared : binding.IsDeclared) : Naming.withoutTypeParameters
    (binding.name ++ Naming.typeParameterList binding.typeParameters) = binding.name :=
  declared.name.withoutTypeParameters binding.typeParameters

end TypeBinding.IsDeclared

namespace TypeTable

variable {table : TypeTable}

theorem isIdentifier_typeParameterNames {source : SourceText} {children : Forest}
    (inside : ∀ child ∈ children, child.Grammatical source) :
    ∀ name ∈ typeParameterNames source children, IsIdentifier name := by
  intro name member
  obtain ⟨parameter, listed, named⟩ := List.mem_filterMap.mp member
  obtain ⟨tree, first, rfl⟩ := Option.map_eq_some_iff.mp named
  obtain ⟨within, kind⟩ := Forest.mem_of_first? first
  unfold typeParameterNodes at listed
  split at listed
  · next list found =>
      obtain ⟨node, member, rfl⟩ := List.mem_map.mp listed
      have list := inside list (Forest.mem_of_child? found)
      exact ((list.child (List.mem_filter.mp member).1).child within).fits.identifier kind
  · cases listed

mutual

theorem exists_of_mem_declarations {outer : List String} {declaration : TypeDeclaration} :
    (tree : Concrete) → declaration ∈ table.declarations outer tree →
      ∃ around head children, declaration = table.declarationIn around head children
  | .node head children, member => by
      rw [declarations] at member
      rcases List.mem_cons.mp member with rfl | inside
      · exact ⟨outer, head, children, rfl⟩
      · exact exists_of_mem_declarationsOfBody children inside
termination_by structural tree => tree

theorem exists_of_mem_declarationsOfBody {outer : List String} {declaration : TypeDeclaration} :
    (forest : List Concrete) → declaration ∈ table.declarationsOfBody outer forest →
      ∃ around head children, declaration = table.declarationIn around head children
  | [], member => nomatch member
  | .node head children :: forest, member => by
      rw [declarationsOfBody] at member
      split at member
      · exact exists_of_mem_declarationsIn children member
      · exact exists_of_mem_declarationsOfBody forest member
termination_by structural forest => forest

theorem exists_of_mem_declarationsIn {outer : List String} {atTop : Bool}
    {declaration : TypeDeclaration} :
    (forest : List Concrete) → declaration ∈ table.declarationsIn outer atTop forest →
      ∃ around head children, declaration = table.declarationIn around head children
  | [], member => nomatch member
  | .node head children :: forest, member => by
      rw [declarationsIn] at member
      rcases List.mem_append.mp member with here | there
      · split at here
        · cases here
        · split at here
          · exact exists_of_mem_declarationsIn children here
          · split at here
            · exact exists_of_mem_declarations (.node head children) here
            · cases here
      · exact exists_of_mem_declarationsIn forest there
termination_by structural forest => forest

end

/-- What a table knows under a name is a declared type of some tree of the file. -/
theorem exists_of_binding?_declareAll {top : Forest} {name : String} {binding : TypeBinding}
    (found : (table.declareAll top).binding? name = some binding) :
    ∃ tree ∈ top, tree.kind.isTypeDeclaration ∧
      ∃ declaration ∈ table.declarations [] tree, declaration.name = name ∧
        declaration.binding = binding := by
  obtain ⟨entry, listed, rfl⟩ := Option.map_eq_some_iff.mp found
  obtain ⟨before, after, same, -⟩ := List.lookup_eq_some_iff.mp listed
  have member : (name, entry) ∈ (table.declareAll top).declared :=
    same ▸ List.mem_append_right before List.mem_cons_self
  obtain ⟨declaration, collected, same⟩ := List.mem_map.mp member
  obtain ⟨rfl, rfl⟩ := Prod.mk.inj same
  obtain ⟨tree, taken, collected⟩ := List.mem_flatMap.mp (List.mem_reverse.mp collected)
  obtain ⟨topmost, kind⟩ := List.mem_filter.mp taken
  exact ⟨tree, topmost, kind, declaration, collected, rfl, rfl⟩

/-- A table in which every type is found by the name of its binding, and that binding tells no more
than the declaration of a type does. -/
def IsIndexed (table : TypeTable) : Prop :=
  ∀ name binding, table.binding? name = some binding → binding.name = name ∧
    ∃ kind, binding = { TypeBinding.named (declaredKind kind) binding.name with
      typeParameters := binding.typeParameters }

theorem isIndexed_declareAll (top : Forest) : (table.declareAll top).IsIndexed := by
  intro name binding found
  obtain ⟨tree, -, -, declaration, collected, rfl, rfl⟩ := exists_of_binding?_declareAll found
  obtain ⟨around, head, children, rfl⟩ := exists_of_mem_declarations tree collected
  exact ⟨rfl, head.kind, rfl⟩

/-- The package of the file, if it tells one, is named by identifiers. -/
def HasNamedPackage (table : TypeTable) : Prop :=
  ∀ package, table.package = some package → IsDotted package

theorem isDotted_memberName {outer name : String} (dotted : IsDotted outer)
    (identifier : IsIdentifier name) : IsDotted (memberName outer name) := by
  refine ⟨Text.ne_empty_of_mem (c := '$') (by simp [memberName]), fun c member => ?_⟩
  rw [memberName, String.toList_append, String.toList_append, List.mem_append, List.mem_append] at member
  rcases member with (member | member) | member
  · exact dotted.parts c member
  · rw [List.mem_singleton.mp member]
    exact .inl rfl
  · exact .inl (identifier.parts c member)

theorem isDotted_qualify (packages : table.HasNamedPackage)
    {name : String} (identifier : IsIdentifier name) : IsDotted (table.qualify name) := by
  unfold qualify
  split
  · next package found =>
      split
      · exact identifier.isDotted
      · refine ⟨Text.ne_empty_of_mem (c := '.') (by simp), fun c member => ?_⟩
        rw [String.toList_append, String.toList_append, List.mem_append, List.mem_append] at member
        rcases member with (member | member) | member
        · exact (packages package found).parts c member
        · exact .inr (List.mem_singleton.mp member)
        · exact .inl (identifier.parts c member)
  · exact identifier.isDotted

/-- What is true of each type in the table of a file. -/
structure Collected (declaration : TypeDeclaration) : Prop where
  named : declaration.binding.name = declaration.name
  declared : declaration.binding.IsDeclared
  enclosing : ∀ name ∈ declaration.enclosing, IsDotted name

theorem collected_declarationIn (packages : table.HasNamedPackage)
    {outer : List String} (dotted : ∀ name ∈ outer, IsDotted name) {head : ConcreteHead}
    {children : Forest} (fits : head.Fits table.source children) (kind : head.kind.isTypeDeclaration)
    (inside : ∀ child ∈ children, child.Grammatical table.source) :
    Collected (table.declarationIn outer head children) := by
  have identifier := SourceText.isIdentifier_childText inside (fits.named (.inl kind))
  have name : IsDotted (table.declarationIn outer head children).name := by
    cases outer with
    | nil => exact isDotted_qualify packages identifier
    | cons innermost outer =>
        exact isDotted_memberName (dotted innermost List.mem_cons_self) identifier
  exact {
    named := rfl
    declared := ⟨⟨head.kind, rfl⟩, name, isIdentifier_typeParameterNames inside⟩
    enclosing := List.forall_mem_cons.mpr ⟨name, dotted⟩ }

mutual

theorem collected_declarations (packages : table.HasNamedPackage) (tree : Concrete)
    (grammatical : tree.Grammatical table.source) (kind : tree.kind.isTypeDeclaration)
    {outer : List String} (dotted : ∀ name ∈ outer, IsDotted name) :
    ∀ declaration ∈ table.declarations outer tree, Collected declaration := by
  cases tree with
  | node head children =>
      obtain ⟨fits, inside⟩ := grammatical
      have first := collected_declarationIn packages dotted fits kind inside
      rw [declarations]
      exact List.forall_mem_cons.mpr
        ⟨first, collected_declarationsOfBody packages children inside first.enclosing⟩
termination_by structural tree

theorem collected_declarationsOfBody (packages : table.HasNamedPackage) (forest : List Concrete)
    (inside : ∀ tree ∈ forest, tree.Grammatical table.source) {outer : List String}
    (dotted : ∀ name ∈ outer, IsDotted name) :
    ∀ declaration ∈ table.declarationsOfBody outer forest, Collected declaration := by
  match forest with
  | [] => exact fun _ => (nomatch ·)
  | .node head children :: forest =>
      obtain ⟨⟨-, first⟩, rest⟩ := List.forall_mem_cons.mp inside
      rw [declarationsOfBody]
      split
      · exact collected_declarationsIn packages children first dotted true
      · exact collected_declarationsOfBody packages forest rest dotted
termination_by structural forest

theorem collected_declarationsIn (packages : table.HasNamedPackage) (forest : List Concrete)
    (inside : ∀ tree ∈ forest, tree.Grammatical table.source) {outer : List String}
    (dotted : ∀ name ∈ outer, IsDotted name) (atTop : Bool) :
    ∀ declaration ∈ table.declarationsIn outer atTop forest, Collected declaration := by
  match forest with
  | [] => exact fun _ => (nomatch ·)
  | .node head children :: forest =>
      obtain ⟨first, rest⟩ := List.forall_mem_cons.mp inside
      rw [declarationsIn]
      refine List.forall_mem_append.mpr ⟨?_, collected_declarationsIn packages forest rest dotted atTop⟩
      split
      · exact fun _ => (nomatch ·)
      · split
        · exact collected_declarationsIn packages children (fun _ => first.child) dotted false
        · split
          · next kind => exact collected_declarations packages (.node head children) first kind dotted
          · exact fun _ => (nomatch ·)
termination_by structural forest

end

/-- A table in which every type is found by its name only. -/
def IsNamed (table : TypeTable) : Prop :=
  ∀ name binding, table.binding? name = some binding → binding.name = name ∧ binding.IsDeclared

theorem isNamed_declareAll (packages : table.HasNamedPackage)
    {top : Forest} (inside : ∀ tree ∈ top, tree.Grammatical table.source) :
    (table.declareAll top).IsNamed := by
  intro name binding found
  obtain ⟨tree, topmost, kind, declaration, collected, rfl, rfl⟩ :=
    exists_of_binding?_declareAll found
  have outside : ∀ name ∈ ([] : List String), IsDotted name := fun _ => (nomatch ·)
  have sound := collected_declarations packages tree (inside tree topmost) kind outside declaration
    collected
  exact ⟨sound.named, sound.declared⟩

end TypeTable

end JavaFacts
