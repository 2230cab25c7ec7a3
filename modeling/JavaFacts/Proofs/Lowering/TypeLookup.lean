import JavaFacts.Proofs.Lowering.Correspondence

/-!
What the look-up of a written type depends on: the types around the place, the type parameters whose
names are written, and which types the table knows, but nothing else that it tells of them. What a
table records of a type therefore is what the finished table gives when it is looked up again.
-/

namespace JavaFacts

/-- A type tree names a type: alone, as the first segment of a longer name, or in an argument. -/
inductive Concrete.NamesType (source : SourceText) (name : String) : Concrete → Prop where
  | simple {head : ConcreteHead} {children : Forest} :
      head.kind = .typeIdentifier ∨ head.kind = .identifier → source.textOf head = name →
      NamesType source name (.node head children)
  | qualified {head : ConcreteHead} {children : Forest} : head.kind = .scopedTypeIdentifier →
      (Text.pieces (· == '.') (source.dottedName (.node head children))).head? = some name →
      NamesType source name (.node head children)
  | inside {head : ConcreteHead} {children : Forest} {child : Concrete} : child ∈ children →
      NamesType source name child → NamesType source name (.node head children)

/-- Scopes in which the same type parameters and the same member types are found under all names
that are not exempt. -/
structure TypeScope.Alike (table : TypeTable) (exempt : String → Prop) (scope other : TypeScope) :
    Prop where
  members : ∀ name, ¬ exempt name →
    table.enclosingMember? name scope.enclosing = table.enclosingMember? name other.enclosing
  typeVariables : ∀ name, ¬ exempt name →
    scope.typeVariables.find? (·.name == name) = other.typeVariables.find? (·.name == name)

theorem TypeScope.Alike.refl (table : TypeTable) (exempt : String → Prop) (scope : TypeScope) :
    scope.Alike table exempt scope :=
  ⟨fun _ _ => rfl, fun _ _ => rfl⟩

/-- Type parameters with exempt names do not matter. -/
theorem TypeScope.Alike.of_named {table : TypeTable} {exempt : String → Prop}
    {scope other : TypeScope}
    (members : ∀ name, ¬ exempt name →
      table.enclosingMember? name scope.enclosing = table.enclosingMember? name other.enclosing)
    (left : ∀ declared ∈ scope.typeVariables, exempt declared.name)
    (right : ∀ declared ∈ other.typeVariables, exempt declared.name) :
    scope.Alike table exempt other := by
  refine ⟨members, fun name free => ?_⟩
  have missing {declared : List TypeVariable} (named : ∀ entry ∈ declared, exempt entry.name) :
      declared.find? (·.name == name) = none := by
    rw [List.find?_eq_none]
    intro entry member same
    exact free (beq_iff_eq.mp same ▸ named entry member)
  rw [missing left, missing right]

namespace TypeTable

/-- Entries for the same types, whatever else they tell of these. -/
def SameTypes (table : TypeTable) (entries : List (String × DeclaredType)) : Prop :=
  ∀ name, { table with declared := entries }.binding? name = table.binding? name

section

variable {table : TypeTable} {entries : List (String × DeclaredType)}
  (same : table.SameTypes entries) {exempt : String → Prop} {scope other : TypeScope}
include same

theorem binding?_sameTypes (name : String) :
    { table with declared := entries }.binding? name = table.binding? name :=
  same name

theorem enclosingMember?_sameTypes (name : String) (enclosing : List String) :
    { table with declared := entries }.enclosingMember? name enclosing =
      table.enclosingMember? name enclosing := by
  induction enclosing with
  | nil => rfl
  | cons outer enclosing ih => rw [enclosingMember?, enclosingMember?, same, ih]

theorem simple?_alike (alike : scope.Alike table exempt other) {name : String}
    (free : ¬ exempt name) :
    { table with declared := entries }.simple? scope name = table.simple? other name := by
  have imported : { table with declared := entries }.imported? name = table.imported? name := by
    simp only [imported?, binding?_sameTypes same]
  have qualified : { table with declared := entries }.qualify name = table.qualify name := rfl
  rw [simple?, simple?, alike.typeVariables name free, enclosingMember?_sameTypes same,
    alike.members name free, qualified, same, imported]

theorem qualified?_alike (alike : scope.Alike table exempt other) {name : String}
    (free : ∀ first, (Text.pieces (· == '.') name).head? = some first → ¬ exempt first) :
    { table with declared := entries }.qualified? scope name = table.qualified? other name := by
  unfold qualified?
  rw [same]
  split
  · rfl
  · split
    · next first second rest pieces =>
        rw [simple?_alike same alike (free first (by rw [pieces]; rfl))]
        simp only [binding?_sameTypes same]
    · rfl

end

variable {table : TypeTable} {entries : List (String × DeclaredType)} {exempt : String → Prop}
  {scope other : TypeScope}

mutual

theorem written_alike (same : table.SameTypes entries) (alike : scope.Alike table exempt other)
    (tree : Concrete) (free : ∀ name, tree.NamesType table.source name → ¬ exempt name) :
    { table with declared := entries }.written scope tree = table.written other tree := by
  match tree with
  | .node head children =>
      have inside : ∀ child ∈ children, ∀ name, child.NamesType table.source name →
          ¬ exempt name := fun child member name named => free name (.inside member named)
      have first := firstWritten_alike same alike children inside
      rw [written, written]
      split
      case h_1 => rfl
      case h_2 kind =>
        dsimp only
        rw [simple?_alike same alike (free _ (.simple (.inl kind) rfl))]
      case h_3 kind =>
        dsimp only
        rw [simple?_alike same alike (free _ (.simple (.inr kind) rfl))]
      case h_4 kind =>
        dsimp only
        rw [qualified?_alike same alike fun first found => free first (.qualified kind found)]
      case h_5 => rw [first, writtenArguments_alike same alike children inside]
      case h_6 | h_7 => rw [first]
      case h_8 => rfl
termination_by structural tree

theorem firstWritten_alike (same : table.SameTypes entries) (alike : scope.Alike table exempt other)
    (forest : List Concrete)
    (free : ∀ tree ∈ forest, ∀ name, tree.NamesType table.source name → ¬ exempt name)
    (accepts : ConcreteHead → Bool) :
    { table with declared := entries }.firstWritten scope accepts forest =
      table.firstWritten other accepts forest := by
  match forest with
  | [] => rfl
  | tree :: forest =>
      obtain ⟨first, rest⟩ := List.forall_mem_cons.mp free
      rw [firstWritten, firstWritten, written_alike same alike tree first,
        firstWritten_alike same alike forest rest]
termination_by structural forest

theorem writtenArguments_alike (same : table.SameTypes entries)
    (alike : scope.Alike table exempt other) (forest : List Concrete)
    (free : ∀ tree ∈ forest, ∀ name, tree.NamesType table.source name → ¬ exempt name) :
    { table with declared := entries }.writtenArguments scope forest =
      table.writtenArguments other forest := by
  match forest with
  | [] => rfl
  | .node head children :: forest =>
      obtain ⟨first, rest⟩ := List.forall_mem_cons.mp free
      rw [writtenArguments, writtenArguments, writtenArguments_alike same alike forest rest,
        writtenNamed_alike same alike children fun child member name named =>
          first name (.inside member named)]
termination_by structural forest

theorem writtenNamed_alike (same : table.SameTypes entries) (alike : scope.Alike table exempt other)
    (forest : List Concrete)
    (free : ∀ tree ∈ forest, ∀ name, tree.NamesType table.source name → ¬ exempt name) :
    { table with declared := entries }.writtenNamed scope forest =
      table.writtenNamed other forest := by
  match forest with
  | [] => rfl
  | tree :: forest =>
      obtain ⟨first, rest⟩ := List.forall_mem_cons.mp free
      rw [writtenNamed, writtenNamed, written_alike same alike tree first,
        writtenNamed_alike same alike forest rest]
termination_by structural forest

end

/-- A field declaration declares the same fields in both scopes. -/
theorem memberFields_alike (same : table.SameTypes entries) (alike : scope.Alike table exempt other)
    {member : Concrete} (kind : member.kind = .fieldDeclaration)
    (free : ∀ type, member.children.child? .type = some type →
      ∀ name, type.NamesType table.source name → ¬ exempt name) (own : TypeBinding) :
    { table with declared := entries }.memberFields scope own member =
      table.memberFields other own member := by
  rw [memberFields, memberFields, kind]
  dsimp only
  split
  · rfl
  · next type found => rw [typeUse, typeUse, written_alike same alike type (free type found)]

section

variable (same : table.SameTypes entries)
include same

theorem typeUse_sameTypes (scope : TypeScope) (tree : Concrete) :
    { table with declared := entries }.typeUse scope tree = table.typeUse scope tree := by
  rw [typeUse, typeUse, written_alike same (.refl _ (fun _ => False) scope) tree fun _ _ => id]

theorem declareParameters_sameTypes (scope : TypeScope) (children : Forest) :
    { table with declared := entries }.declareParameters scope children =
      table.declareParameters scope children := by
  unfold declareParameters
  refine congrArg (List.foldl · scope _) (funext fun scope => funext fun parameter => ?_)
  simp only [declareParameter, written_alike same (.refl _ (fun _ => False) scope) _ fun _ _ => id]

/-- What is looked up of a type depends on which types the table knows only. -/
theorem resolve_sameTypes (declaration : TypeDeclaration) :
    { table with declared := entries }.resolve declaration = table.resolve declaration := by
  have known (name : String) : ({ table with declared := entries }.find? name).isSome =
      (table.find? name).isSome := by
    have bound := congrArg Option.isSome (same name)
    rwa [binding?, binding?, Option.isSome_map, Option.isSome_map] at bound
  have members (scope : TypeScope) : { table with declared := entries }.memberFields scope =
      table.memberFields scope := by
    funext own member
    simp only [memberFields, typeUse_sameTypes same]
  simp only [resolve, declareParameters_sameTypes same, componentFields, typeUse_sameTypes same,
    known, members]

end

/-- Of several types with one name the first one listed is found. -/
theorem lookup_entries (all : List TypeDeclaration) (entry : TypeDeclaration → DeclaredType)
    (name : String) :
    (all.map fun declaration => (declaration.name, entry declaration)).lookup name =
      (all.find? (·.name == name)).map entry := by
  induction all with
  | nil => rfl
  | cons declaration others ih =>
      rw [List.map_cons, List.lookup_cons, List.find?_cons]
      by_cases here : declaration.name = name
      · rw [here, beq_self_eq_true, Option.map_some]
      · rw [beq_eq_false_iff_ne.mpr here, beq_eq_false_iff_ne.mpr (Ne.symm here)]
        exact ih

/-- What the table of a file records of a type is what it gives for a declaration of that name. -/
theorem find?_declareAll {top : Forest} {name : String} {declared : DeclaredType}
    (found : (table.declareAll top).find? name = some declared) :
    ∃ declaration ∈ (table.declareAll top).declaredTypes top,
      declaration.name = name ∧ (table.declareAll top).resolve declaration = declared := by
  let all := ((top.filter (·.kind.isTypeDeclaration)).flatMap (table.declarations [])).reverse
  let collected : TypeTable := { table with
    declared := all.map fun declaration =>
      (declaration.name, ⟨declaration.binding, declaration.enclosing, none, []⟩) }
  let entries := all.map fun declaration => (declaration.name, collected.resolve declaration)
  have full : table.declareAll top = { collected with declared := entries } := rfl
  have same : collected.SameTypes entries := by
    intro name
    rw [binding?, binding?, find?, find?, lookup_entries, lookup_entries, Option.map_map,
      Option.map_map]
    rfl
  rw [full, find?, lookup_entries] at found
  obtain ⟨declaration, first, rfl⟩ := Option.map_eq_some_iff.mp found
  have named := List.find?_some first
  refine ⟨declaration, ?_, beq_iff_eq.mp named, ?_⟩
  · obtain ⟨tree, listed, inside⟩ :=
      List.mem_flatMap.mp (List.mem_reverse.mp (List.mem_of_find?_eq_some first))
    have known : declaration ∈ { table with declared := entries }.declarations [] tree := by
      rwa [declarations_withDeclared]
    exact List.mem_flatMap.mpr ⟨tree, listed, known⟩
  · rw [full, resolve_sameTypes same]

end TypeTable

end JavaFacts
