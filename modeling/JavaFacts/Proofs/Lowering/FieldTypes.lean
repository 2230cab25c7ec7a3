import JavaFacts.Proofs.Lowering.TypeLookup

/-!
The types of fields, which are looked up twice: for the table, with the type parameters of the type
alone, and for the lowered tree, with those of the types around as well. Whatever no type parameter
is named in has the same type both times.
-/

namespace JavaFacts

namespace TypeTable

/-- The scope in which the table looks up what a type declares. -/
def scopeOf (table : TypeTable) (declaration : TypeDeclaration) : TypeScope :=
  table.declareParameters ⟨declaration.enclosing, []⟩ declaration.tree

/-- The fields that the table of a file records for a type are those of its components and those of
its members, looked up in the finished table. -/
theorem fields_declareAll {table : TypeTable} {top : Forest} {name : String}
    {declared : DeclaredType} (found : (table.declareAll top).find? name = some declared) :
    let full := table.declareAll top
    ∃ declaration ∈ full.declaredTypes top, declaration.name = name ∧
      declared.fields = full.componentFields (full.scopeOf declaration) declaration.tree ++
        declaration.members.flatMap
          (full.memberFields (full.scopeOf declaration) declaration.binding) := by
  obtain ⟨declaration, member, named, rfl⟩ := find?_declareAll found
  exact ⟨declaration, member, named, rfl⟩

/-- Some nodes declare the fields that the table has for a member of a type, with the same types.
Only fields whose type has to do with a type parameter are left out. -/
def FieldsAgree (table : TypeTable) (parameter : String → Prop) (declaration : TypeDeclaration)
    (member : Concrete) (nodes : List Node) : Prop :=
  member.kind = .fieldDeclaration → ∀ type, member.children.child? .type = some type →
    (∀ name, type.NamesType table.source name → ¬ parameter name) →
      nodes.flatMap (·.fieldTypes) =
        table.memberFields (table.scopeOf declaration) declaration.binding member

end TypeTable

theorem Lowering.Corresponds.fieldsAgree {table : TypeTable} {top : Forest}
    {parameter : String → Prop} {declaration : TypeDeclaration} {node : Node}
    (corresponds : Corresponds table top parameter declaration node) :
    ∃ (components : List Node) (groups : List (List Node)),
      node.children = components ++ groups.flatten ∧
      List.Forall₂ (table.FieldsAgree parameter declaration) declaration.members groups := by
  obtain @⟨span, header, body, components, groups, around, inside, -, entered, -, own, named, -, -,
    -, -, body, lowered⟩ := corresponds
  refine ⟨components, groups, body, lowered.imp fun member nodes within kind type found free => ?_⟩
  -- the scopes differ in the type parameters around the type, and in no other way
  obtain ⟨alone, resolved, listed⟩ := table.exists_own_typeVariables ⟨declaration.enclosing, []⟩
    declaration.tree
  have alike : TypeScope.Alike table parameter ⟨declaration.enclosing, inside.typeVariables⟩
      (table.scopeOf declaration) := by
    rw [TypeTable.scopeOf, resolved, List.append_nil]
    exact .of_named (fun _ _ => rfl) named fun declared member => own _ (listed declared member)
  have unchanged : table.SameTypes table.declared := fun _ => rfl
  obtain ⟨created, names, scope, -, -, rfl⟩ := within
  have same : names.scope = ⟨declaration.enclosing, inside.typeVariables⟩ := by
    rw [scope, TypeTable.memberScope, entered]
  rw [fieldTypes_member kind (by rw [found]; rfl) created names declaration.binding, same]
  refine TypeTable.memberFields_alike unchanged alike kind (fun other first => ?_) _
  rw [found] at first
  exact Option.some.inj first ▸ free

/-- For every type of a file the table and the lowered tree agree on the types of all fields that
are not declared with a type parameter of the file. -/
theorem CompilationUnit.fieldTypes_agree {config : Config} {path text : String} {tree : Concrete}
    {unit : CompilationUnit} (succeeded : ofConcrete config path text tree = .ok unit) :
    let top := tree.children.named
    let table := typeTable (SourceText.ofString text) top
    List.Forall₂ (fun declaration node => ∃ (components : List Node) (groups : List (List Node)),
        node.children = components ++ groups.flatten ∧
        List.Forall₂ (table.FieldsAgree (table.IsTypeParameter top) declaration)
          declaration.members groups)
      (table.declaredTypes top) (Node.memberTypesAll unit.types) :=
  (types_correspond succeeded).imp fun _ _ => Lowering.Corresponds.fieldsAgree

end JavaFacts
