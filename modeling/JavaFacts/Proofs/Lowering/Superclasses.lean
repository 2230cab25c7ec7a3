import JavaFacts.Proofs.Lowering.FieldTypes

/-!
Superclasses, which are looked up twice: in front of the type for the lowered tree, but inside of it
for the table. A member type of the type itself is therefore found for the table only. Apart from
these, and from type parameters, both find the same superclass, and it is the one that inherited
fields are looked up in.
-/

namespace JavaFacts

/-- The part of a type that tells its binding, if it is not the whole. -/
def ConcreteKind.isBase : ConcreteKind → ConcreteHead → Bool
  | .genericType => (·.isNamed)
  | .arrayType => (·.hasRole .element)
  | .annotatedType => (·.isNamedOf (·.isType))
  | _ => fun _ => false

/-- The type that a tree is bound to has that name, or a longer one that starts with it. -/
inductive Concrete.NamesBase (source : SourceText) (name : String) : Concrete → Prop where
  | simple {head : ConcreteHead} {children : Forest} :
      head.kind = .typeIdentifier ∨ head.kind = .identifier → source.textOf head = name →
      NamesBase source name (.node head children)
  | qualified {head : ConcreteHead} {children : Forest} : head.kind = .scopedTypeIdentifier →
      (Text.pieces (· == '.') (source.dottedName (.node head children))).head? = some name →
      NamesBase source name (.node head children)
  | base {head : ConcreteHead} {children : Forest} {child : Concrete} : child ∈ children →
      head.kind.isBase child.head → NamesBase source name child →
      NamesBase source name (.node head children)

/-- Array levels are added to the binding, however the type is written. -/
theorem TypeUse.withDimensions_binding_congr {use other : TypeUse}
    (same : use.binding = other.binding) (dimensions : Nat) :
    (use.withDimensions dimensions).binding = (other.withDimensions dimensions).binding := by
  cases dimensions with
  | zero => exact same
  | succ more => exact congrArg (Option.map _) same

/-- What a lowered type extends. -/
def Node.superclass? : Node → Option TypeUse
  | type _ header _ => header.superclass
  | _ => none

namespace TypeTable

variable {table : TypeTable} {exempt : String → Prop} {scope other : TypeScope}

mutual

/-- For the binding of a type its arguments do not matter. -/
theorem written_binding_alike (alike : scope.Alike table exempt other) (tree : Concrete)
    (free : ∀ name, tree.NamesBase table.source name → ¬ exempt name) :
    (table.written scope tree).2 = (table.written other tree).2 := by
  have unchanged : table.SameTypes table.declared := fun _ => rfl
  match tree with
  | .node head children =>
      have first := firstWritten_binding_alike alike children head.kind.isBase
        fun child member base name named => free name (.base member base named)
      rw [written, written]
      split
      case h_1 | h_8 => rfl
      case h_2 kind => exact simple?_alike unchanged alike (free _ (.simple (.inl kind) rfl))
      case h_3 kind => exact simple?_alike unchanged alike (free _ (.simple (.inr kind) rfl))
      case h_4 kind =>
        exact qualified?_alike unchanged alike fun first found => free first (.qualified kind found)
      case h_5 kind | h_6 kind | h_7 kind =>
        rw [kind, ConcreteKind.isBase] at first
        generalize table.firstWritten scope _ children = one at first ⊢
        generalize table.firstWritten other _ children = two at first ⊢
        rcases one with _ | ⟨_, one⟩ <;> rcases two with _ | ⟨_, two⟩
        case none.none => rfl
        case none.some | some.none => cases first
        case some.some =>
          obtain rfl : one = two := Option.some.inj first
          first
          | rfl
          | refine TypeUse.withDimensions_binding_congr ?_ _; rfl
termination_by structural tree

theorem firstWritten_binding_alike (alike : scope.Alike table exempt other)
    (forest : List Concrete) (accepts : ConcreteHead → Bool)
    (free : ∀ tree ∈ forest, accepts tree.head →
      ∀ name, tree.NamesBase table.source name → ¬ exempt name) :
    (table.firstWritten scope accepts forest).map (·.2) =
      (table.firstWritten other accepts forest).map (·.2) := by
  match forest with
  | [] => rfl
  | tree :: forest =>
      obtain ⟨here, there⟩ := List.forall_mem_cons.mp free
      rw [firstWritten, firstWritten]
      split
      · next accepted => exact congrArg some (written_binding_alike alike tree (here accepted))
      · exact firstWritten_binding_alike alike forest accepts there
termination_by structural forest

end

/-- Binary name of the type that a use is bound to, if the file declares this type. -/
def declaredName? (table : TypeTable) (use : TypeUse) : Option String :=
  use.binding.bind fun binding =>
    if (table.find? binding.name).isSome then some binding.name else none

theorem superclass_resolve (table : TypeTable) (declaration : TypeDeclaration) :
    (table.resolve declaration).superclass =
      (declaration.superclassTree?.map (table.typeUse (table.scopeOf declaration))).bind
        table.declaredName? := by
  unfold resolve TypeDeclaration.superclassTree?
  cases declaration.tree.child? .superclass with
  | none => rfl
  | some clause =>
      cases written : clause.children.first? (·.isType) with
      | none => simp [written]
      | some type => simp [written, declaredName?, scopeOf]

/-- The entries of the types that are left to look at behind a type. -/
def without (type : String) (remaining : List (String × DeclaredType)) :
    List (String × DeclaredType) :=
  remaining.filter (·.1 != type)

section

variable {type other name superclass : String} {remaining : List (String × DeclaredType)}
  {declared : DeclaredType}

theorem lookup_without_self : (without type remaining).lookup type = none := by
  rw [List.lookup_eq_none_iff]
  intro entry member
  obtain ⟨-, apart⟩ := List.mem_filter.mp member
  rwa [bne_comm]

theorem lookup_without (apart : other ≠ type) :
    (without type remaining).lookup other = remaining.lookup other := by
  induction remaining with
  | nil => rfl
  | cons entry remaining ih =>
      unfold without at ih ⊢
      rw [List.filter_cons]
      by_cases here : entry.1 = type
      · have missed : (other == entry.1) = false := beq_eq_false_iff_ne.mpr (here ▸ apart)
        rw [if_neg (by simpa using here), ih, List.lookup_cons, missed]
      · rw [if_pos (bne_iff_ne.mpr here), List.lookup_cons, List.lookup_cons, ih]

theorem lookup_without_eq_none (missing : remaining.lookup other = none) :
    (without type remaining).lookup other = none := by
  by_cases same : other = type
  · exact same ▸ lookup_without_self
  · rw [lookup_without same, missing]

theorem without_comm : without type (without other remaining) =
    without other (without type remaining) :=
  List.filter_comm _ _ _

theorem length_without_lt (found : remaining.lookup type = some declared) :
    (without type remaining).length < remaining.length := by
  obtain ⟨before, after, rfl, -⟩ := List.lookup_eq_some_iff.mp found
  have listed : (type, declared) ∈ before ++ (type, declared) :: after :=
    List.mem_append_right _ List.mem_cons_self
  exact List.length_filter_lt_length_iff_exists.mpr ⟨(type, declared), listed, by simp⟩

theorem fieldAmong_of_missing {steps : Nat} (missing : remaining.lookup type = none) :
    fieldAmong name steps remaining type = none := by
  cases steps with
  | zero => rfl
  | succ steps => rw [fieldAmong, missing]

/-- On the way up, a type that does not declare the field can be left out if what it extends has
been passed already. -/
theorem fieldAmong_without (missing : declared.fields.lookup name = none)
    (above : declared.superclass = some superclass) {steps fewer : Nat} {current : String}
    (enough : remaining.length ≤ steps) (still : (without type remaining).length ≤ fewer)
    (found : remaining.lookup type = some declared)
    (passed : current = superclass ∨ remaining.lookup superclass = none) :
    fieldAmong name fewer (without type remaining) current =
      fieldAmong name steps remaining current := by
  induction steps generalizing fewer remaining current with
  | zero =>
      obtain rfl := List.length_eq_zero_iff.mp (Nat.le_zero.mp enough)
      cases found
  | succ steps ih =>
      have behind : (without current remaining).lookup superclass = none := by
        rcases passed with same | gone
        · exact same ▸ lookup_without_self
        · exact lookup_without_eq_none gone
      by_cases here : current = type
      · -- the type itself only leads to a type that has been passed
        subst here
        rw [fieldAmong_of_missing lookup_without_self, fieldAmong, found]
        simp only [missing, above]
        exact (fieldAmong_of_missing behind).symm
      · cases entry : remaining.lookup current with
        | none =>
            rw [fieldAmong_of_missing entry, fieldAmong_of_missing (lookup_without_eq_none entry)]
        | some visited =>
            have shorter := length_without_lt entry
            have entered : (without type remaining).lookup current = some visited :=
              (lookup_without here).trans entry
            have left := length_without_lt entered
            obtain ⟨fewer, rfl⟩ := Nat.exists_eq_add_one_of_ne_zero
              (Nat.ne_zero_of_lt (left.trans_le still))
            rw [without_comm] at left
            have onwards (next : String) :
                fieldAmong name fewer (without type (without current remaining)) next =
                  fieldAmong name steps (without current remaining) next :=
              ih (by omega) (by omega) ((lookup_without (Ne.symm here)).trans found) (.inr behind)
            rw [without_comm] at onwards
            rw [fieldAmong, fieldAmong, entered, entry]
            dsimp only
            split
            · rfl
            · split
              · exact onwards _
              · rfl

/-- A field that a type does not declare is looked up in the superclass that the table records. -/
theorem field?_inherited (found : table.find? type = some declared)
    (missing : declared.fields.lookup name = none) (above : declared.superclass = some superclass) :
    table.field? type name = table.field? superclass name := by
  have shorter := length_without_lt found
  obtain ⟨steps, many⟩ := Nat.exists_eq_add_one_of_ne_zero (Nat.ne_zero_of_lt shorter)
  calc table.field? type name
    _ = fieldAmong name steps (without type table.declared) superclass := by
        rw [field?, many, fieldAmong, show table.declared.lookup type = some declared from found]
        simp only [missing, above]
        rfl
    _ = table.field? superclass name :=
        fieldAmong_without missing above le_rfl (by omega) found (.inl rfl)

end

/-- What a type extends has nothing to do with a type parameter or a member of the type itself. -/
def ExtendsOuter (table : TypeTable) (parameter : String → Prop) (declaration : TypeDeclaration) :
    Prop :=
  ∀ clause ∈ declaration.superclassTree?, ∀ name, clause.NamesBase table.source name →
    ¬ parameter name ∧ table.binding? (memberName declaration.name name) = none

/-- Every declared type comes first among those that its names are looked up in. -/
theorem exists_enclosing_eq {top : Forest} {declaration : TypeDeclaration}
    (listed : declaration ∈ table.declaredTypes top) :
    ∃ around, declaration.enclosing = declaration.name :: around := by
  obtain ⟨tree, -, collected⟩ := List.mem_flatMap.mp listed
  obtain ⟨around, _, _, rfl⟩ := exists_of_mem_declarations tree collected
  exact ⟨around, rfl⟩

/-- A member type hides all others of its name from the clause of the type around it, although it is
in scope in the body only. -/
theorem superclass_of_own_member {top : Forest} {declaration : TypeDeclaration}
    {head : ConcreteHead} {children : Forest} :
    let full := table.declareAll top
    let name := full.source.textOf head
    declaration ∈ full.declaredTypes top →
    declaration.superclassTree? = some (.node head children) → head.kind = .typeIdentifier →
    name ∉ typeParameterNames full.source declaration.tree →
    (full.binding? (memberName declaration.name name)).isSome →
      (full.resolve declaration).superclass = some (memberName declaration.name name) := by
  intro full name listed clause kind free declares
  obtain ⟨binding, found⟩ := Option.isSome_iff_exists.mp declares
  obtain ⟨same, -⟩ := isIndexed_declareAll top _ _ found
  obtain ⟨around, enclosing⟩ := exists_enclosing_eq listed
  have bound : full.simple? (full.scopeOf declaration) name = some binding := by
    rw [scopeOf, simple?, find?_declareParameters free, declareParameters_eq]
    dsimp only [List.find?_nil]
    rw [enclosing, enclosingMember?, found]
    rfl
  have known : (full.find? binding.name).isSome := by
    rwa [binding?, Option.isSome_map, ← same] at declares
  have use : (full.typeUse (full.scopeOf declaration) (.node head children)).binding =
      some binding := by
    rw [typeUse, written]
    simp only [kind]
    exact bound
  rw [superclass_resolve, clause, Option.map_some, Option.bind_some, declaredName?, use,
    Option.bind_some, if_pos known, same]

end TypeTable

theorem Lowering.Corresponds.superclass_eq {table : TypeTable} {top : Forest}
    {parameter : String → Prop} {declaration : TypeDeclaration} {node : Node}
    (corresponds : Corresponds table top parameter declaration node)
    (outer : table.ExtendsOuter parameter declaration) :
    (table.resolve declaration).superclass = node.superclass?.bind table.declaredName? := by
  obtain @⟨span, header, body, components, groups, around, inside, -, entered, enclosing, own,
    named, -, -, -, superclass, -, -⟩ := corresponds
  let exempt (name : String) : Prop :=
    parameter name ∨ (table.binding? (TypeTable.memberName declaration.name name)).isSome
  obtain ⟨alone, resolved, listed⟩ := table.exists_own_typeVariables ⟨declaration.enclosing, []⟩
    declaration.tree
  have outside : inside.enclosing = around.enclosing := by
    rw [entered, TypeTable.declareParameters_eq]
  -- in the type itself only its own members are found that are not found in front of it as well
  have alike : TypeScope.Alike table exempt (table.scopeOf declaration) inside := by
    rw [TypeTable.scopeOf, resolved, List.append_nil]
    refine .of_named (fun name free => ?_)
      (fun declared member => .inl (own _ (listed declared member)))
      fun declared member => .inl (named declared member)
    have missing : table.binding? (TypeTable.memberName declaration.name name) = none :=
      Option.not_isSome_iff_eq_none.mp fun present => free (.inr present)
    rw [enclosing, outside, TypeTable.enclosingMember?, missing]
  rw [TypeTable.superclass_resolve, Node.superclass?, superclass, Option.bind_map, Option.bind_map]
  refine Option.bind_congr fun clause written => ?_
  have same : (table.written (table.scopeOf declaration) clause).2 =
      (table.written inside clause).2 :=
    TypeTable.written_binding_alike alike clause fun name occurs => by
      obtain ⟨other, missing⟩ := outer clause written name occurs
      simp [exempt, other, missing]
  exact congrArg (Option.bind · _) same

/-- The superclass that the table records for a type is the one that the lowered type is bound to,
if the file declares this one, and inherited fields are looked up in it. -/
theorem CompilationUnit.superclasses_agree {config : Config} {path text : String} {tree : Concrete}
    {unit : CompilationUnit} (succeeded : ofConcrete config path text tree = .ok unit)
    {name : String} {declared : DeclaredType} :
    let top := tree.children.named
    let table := typeTable (SourceText.ofString text) top
    table.find? name = some declared →
    ∃ declaration ∈ table.declaredTypes top, ∃ node ∈ Node.memberTypesAll unit.types,
      declaration.name = name ∧
      Lowering.Corresponds table top (table.IsTypeParameter top) declaration node ∧
      (table.ExtendsOuter (table.IsTypeParameter top) declaration →
        declared.superclass = node.superclass?.bind table.declaredName? ∧
        ∀ superclass ∈ node.superclass?.bind table.declaredName?, ∀ field,
          declared.fields.lookup field = none →
            table.field? name field = table.field? superclass field) := by
  intro top table found
  obtain ⟨declaration, listed, named, rfl⟩ := TypeTable.find?_declareAll found
  have pairs := types_correspond succeeded
  obtain ⟨place, first, rfl⟩ := List.mem_iff_getElem.mp listed
  have second : place < (Node.memberTypesAll unit.types).length := by rwa [← pairs.length_eq]
  have corresponds := pairs.get first second
  refine ⟨_, listed, _, List.getElem_mem second, named, corresponds, fun outer => ?_⟩
  have same := corresponds.superclass_eq outer
  exact ⟨same, fun superclass above field missing =>
    TypeTable.field?_inherited found missing (same.trans above)⟩

end JavaFacts
