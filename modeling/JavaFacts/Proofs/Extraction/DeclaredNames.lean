import JavaFacts.Proofs.Extraction.Nesting
import JavaFacts.Proofs.Lowering.References
import JavaFacts.Proofs.Lowering.Unit
import Mathlib.Data.List.Nodup

/-!
Names of the types that a file declares at top level and as members. The table of the file makes such a
name from the package and the types around, and the walk makes it from the names under which it
entered these. Both come to the same, so a type has one name whether it is known by its binding or not.
-/

namespace JavaFacts

open Naming (IsIdentifier IsDotted)

namespace TypeTable

variable {table : TypeTable} {top : Forest}

/-- No two types of a file have one name, and all simple names are identifiers. -/
structure DistinctNames (table : TypeTable) (top : Forest) : Prop where
  packages : table.HasNamedPackage
  identifiers : ∀ declaration ∈ table.declaredTypes top,
    IsIdentifier (table.source.childText .name declaration.tree)
  distinct : ((table.declaredTypes top).map (·.name)).Nodup

theorem exists_of_mem_declaredTypes {declaration : TypeDeclaration}
    (listed : declaration ∈ table.declaredTypes top) :
    ∃ around head children, declaration = table.declarationIn around head children := by
  obtain ⟨tree, -, inside⟩ := List.mem_flatMap.mp listed
  exact exists_of_mem_declarations tree inside

theorem hasPlainNames_declareAll (identifiers : ∀ declaration ∈ (table.declareAll top).declaredTypes top,
    IsIdentifier (table.source.childText .name declaration.tree)) :
    (table.declareAll top).HasPlainNames := by
  intro key binding found
  obtain ⟨declared, known, -⟩ := Option.map_eq_some_iff.mp found
  obtain ⟨declaration, listed, rfl, -⟩ := find?_declareAll known
  have identifier := identifiers declaration listed
  obtain ⟨around, head, children, rfl⟩ := exists_of_mem_declaredTypes listed
  refine ⟨_, identifier, ?_⟩
  cases around with
  | nil => exact .inl rfl
  | cons outer around => exact .inr ⟨outer, rfl⟩

/-- The table finds a type under its name. -/
theorem binding?_declareAll (distinct : (((table.declareAll top).declaredTypes top).map (·.name)).Nodup)
    {declaration : TypeDeclaration} (listed : declaration ∈ (table.declareAll top).declaredTypes top) :
    (table.declareAll top).binding? declaration.name = some declaration.binding := by
  obtain ⟨binding, found⟩ := Option.isSome_iff_exists.mp (isSome_binding?_declareAll listed)
  obtain ⟨declared, known, rfl⟩ := Option.map_eq_some_iff.mp found
  obtain ⟨other, otherListed, same, rfl⟩ := find?_declareAll known
  obtain rfl := List.inj_on_of_nodup_map distinct otherListed listed same
  exact found

end TypeTable

/-- What is known of a type that a file declares and can name. -/
structure TypeHeader.Names (header : TypeHeader) (table : TypeTable) (own : TypeBinding) : Prop where
  bound : header.binding = some own
  found : table.binding? own.name = some own
  typeParameters : own.typeParameters = header.typeParameters
  identifier : IsIdentifier header.name

namespace CompilationUnit

variable {config : Config} {path text : String} {tree : Concrete} {unit : CompilationUnit}

theorem exists_names (succeeded : ofConcrete config path text tree = .ok unit)
    (names : (typeTable (SourceText.ofString text) tree.children.named).DistinctNames tree.children.named)
    {span : Span} {header : TypeHeader} {body : List Node}
    (listed : .type span header body ∈ Node.memberTypesAll unit.types) :
    ∃ own, header.Names (typeTable (SourceText.ofString text) tree.children.named) own := by
  have pairs := types_correspond succeeded
  obtain ⟨place, within, here⟩ := List.mem_iff_getElem.mp listed
  have first : place < ((typeTable (SourceText.ofString text) tree.children.named).declaredTypes
      tree.children.named).length := by rwa [pairs.length_eq]
  have corresponds := pairs.get first within
  have declared := List.getElem_mem first
  rw [List.get_eq_getElem, List.get_eq_getElem, here] at corresponds
  generalize ((typeTable (SourceText.ofString text) tree.children.named).declaredTypes
    tree.children.named)[place] = declaration at corresponds declared
  obtain ⟨-, -, -, -, -, name, bound, typeParameters, -, -, -⟩ := corresponds
  have found := TypeTable.binding?_declareAll names.distinct declared
  obtain ⟨around, head, children, rfl⟩ := TypeTable.exists_of_mem_declaredTypes declared
  exact ⟨_, bound.trans found, found, typeParameters.symm, name ▸ names.identifiers _ declared⟩

/-- What a table says of a unit, all types of which it can name. -/
structure IsNamedBy (unit : CompilationUnit) (table : TypeTable) : Prop where
  package : unit.package = table.package
  packages : table.HasNamedPackage
  indexed : table.IsIndexed
  shaped : ∀ node ∈ unit.types, node.Shaped table (fun _ => True) .outside
  names : ∀ {span : Span} {header : TypeHeader} {body : List Node},
    .type span header body ∈ Node.memberTypesAll unit.types → ∃ own, header.Names table own

theorem isNamedBy_of_ofConcrete (succeeded : ofConcrete config path text tree = .ok unit)
    (names : (typeTable (SourceText.ofString text) tree.children.named).DistinctNames tree.children.named) :
    unit.IsNamedBy (typeTable (SourceText.ofString text) tree.children.named) := by
  obtain ⟨-, package, shaped⟩ := shaped_of_ofConcrete (Spelling.any _) (fun _ _ => trivial) succeeded
  exact ⟨package, names.packages, TypeTable.isIndexed_declareAll _, shaped, exists_names succeeded names⟩

/-- Where the walk over a unit stands outside of all methods, by the types that it has entered: among
the types of the unit, or among the members of a type that it entered under its name. -/
inductive StandsAmong (unit : CompilationUnit) : List TypeFrame → List Node → Prop where
  | types : StandsAmong unit [] unit.types
  | members {nodes : List Node} {span : Span} {header : TypeHeader} {body : List Node}
      (type : EntityId) (store : Store) (scopes : Scopes) (anchor : Anchor) :
      StandsAmong unit scopes.types nodes → scopes.methods = [] → .type span header body ∈ nodes →
      StandsAmong unit
        (⟨type, Walk.declaredName store scopes unit.package header anchor⟩ :: scopes.types) body

/-- How the types that the walk has entered are named, by what is around a node. -/
inductive Entered : Enclosure → List TypeFrame → Prop where
  | outside : Entered .outside []
  | body {own : TypeBinding} {frame : TypeFrame} {outer : List TypeFrame} (parameters : List String) :
      IsDotted own.name → frame.name = own.name ++ Naming.typeParameterList parameters →
      Entered (.body (some own)) (frame :: outer)

end CompilationUnit

namespace Walk

variable {table : TypeTable} {scopes : Scopes} {header : TypeHeader} {own : TypeBinding}
  {around : Enclosure}

/-- Without a binding a type gets its binary name, with its type parameters behind it. -/
theorem declaredName_unbound (packages : table.HasNamedPackage) (indexed : table.IsIndexed)
    {frames : List TypeFrame} (entered : CompilationUnit.Entered around frames)
    (types : scopes.types = frames) (outside : scopes.methods = []) (identifier : IsIdentifier header.name)
    (known : around.declared? table header.name = some own) (store : Store) (anchor : Anchor) :
    IsDotted own.name ∧
      declaredName store scopes table.package { header with binding := none } anchor =
        own.name ++ Naming.typeParameterList header.typeParameters := by
  cases entered with
  | outside =>
      have current : scopes.type? = none := by rw [Scopes.type?, types, List.head?_nil]
      have named : own.name = table.qualify header.name := (indexed _ own known).1
      refine ⟨named ▸ TypeTable.isDotted_qualify packages identifier, ?_⟩
      rw [named, ← TypeTable.qualify_append]
      simp only [declaredName, current, Option.bind_none]
      rfl
  | @body outer frame frames parameters dotted entered =>
      have current : scopes.type? = some frame := by rw [Scopes.type?, types, List.head?_cons]
      have notInMethod : scopes.isInMethod = false := by
        rw [Scopes.isInMethod, types, outside]
      have named : own.name = TypeTable.memberName outer.name header.name := (indexed _ own known).1
      refine ⟨named ▸ TypeTable.isDotted_memberName dotted identifier, ?_⟩
      simp only [declaredName, current, Option.bind_none, notInMethod, Bool.false_eq_true, ↓reduceIte,
        entered, dotted.withoutTypeParameters, named, TypeTable.memberName,
        String.append_assoc]

/-- With a binding it gets the name that the binding has. -/
theorem declaredName_bound (indexed : table.IsIndexed) (names : header.Names table own)
    (dotted : IsDotted own.name) (store : Store) (scopes : Scopes) (package : Option String)
    (anchor : Anchor) : Naming.bindingName? own = some (declaredName store scopes package header anchor) ∧
      declaredName store scopes package header anchor =
        own.name ++ Naming.typeParameterList header.typeParameters := by
  have nonempty : own.name.isEmpty = false :=
    Bool.eq_false_iff.mpr fun empty => dotted.nonempty (String.isEmpty_iff.mp empty)
  have named : Naming.bindingName? own =
      some (own.name ++ Naming.typeParameterList header.typeParameters) := by
    rw [TypeBinding.bindingName?_of_shape (indexed _ own names.found).2, nonempty, names.typeParameters,
      if_neg Bool.false_ne_true]
  simp only [declaredName, names.bound, Option.bind_some, named, and_self]

end Walk

namespace CompilationUnit

variable {config : Config} {path text : String} {tree : Concrete} {unit : CompilationUnit}
  {table : TypeTable} {frames : List TypeFrame} {nodes body : List Node} {span : Span}
  {header : TypeHeader}

theorem mem_memberTypesAll (member : .type span header body ∈ nodes) :
    .type span header body ∈ Node.memberTypesAll nodes ∧
      ∀ node ∈ Node.memberTypesAll body, node ∈ Node.memberTypesAll nodes := by
  induction nodes with
  | nil => cases member
  | cons first rest ih =>
      rw [Node.memberTypesAll]
      rcases List.mem_cons.mp member with rfl | later
      · rw [Node.memberTypes]
        exact ⟨List.mem_append_left _ List.mem_cons_self, fun node inside =>
          List.mem_append_left _ (List.mem_cons_of_mem _ inside)⟩
      · obtain ⟨here, inside⟩ := ih later
        exact ⟨List.mem_append_right _ here, fun node within =>
          List.mem_append_right _ (inside node within)⟩

/-- What the walk finds where it stands: types that stand there and are among those of the unit. -/
structure Finds (unit : CompilationUnit) (table : TypeTable) (around : Enclosure)
    (frames : List TypeFrame) (nodes : List Node) : Prop where
  entered : Entered around frames
  shaped : ∀ node ∈ nodes, node.Shaped table (fun _ => True) around
  listed : ∀ node ∈ Node.memberTypesAll nodes, node ∈ Node.memberTypesAll unit.types

/-- A type where the walk stands can be named by its binding and without it. -/
theorem Finds.type {around : Enclosure} (finds : unit.Finds table around frames nodes)
    (named : unit.IsNamedBy table) {scopes : Scopes} (types : scopes.types = frames)
    (outside : scopes.methods = []) (member : .type span header body ∈ nodes) (store : Store)
    (anchor : Anchor) :
    ∃ own, header.Names table own ∧ IsDotted own.name ∧
      (∀ node ∈ body, node.Shaped table (fun _ => True) (.body (some own))) ∧
      let name := Walk.declaredName store scopes unit.package header anchor
      name = own.name ++ Naming.typeParameterList header.typeParameters ∧
        Naming.bindingName? own = some name ∧
        Walk.declaredName store scopes unit.package { header with binding := none } anchor = name := by
  obtain ⟨own, names⟩ := named.names (finds.listed _ (mem_memberTypesAll member).1)
  obtain ⟨placed, inside⟩ := (finds.shaped _ member).of_type
  rw [names.bound] at placed inside
  obtain ⟨dotted, unbound⟩ := Walk.declaredName_unbound named.packages named.indexed finds.entered types
    outside names.identifier placed.symm store anchor
  obtain ⟨bound, same⟩ :=
    Walk.declaredName_bound named.indexed names dotted store scopes unit.package anchor
  refine ⟨own, names, dotted, inside, same, bound, ?_⟩
  rw [same, named.package]
  exact unbound

theorem StandsAmong.finds (stands : unit.StandsAmong frames nodes) (named : unit.IsNamedBy table) :
    ∃ around, unit.Finds table around frames nodes := by
  induction stands with
  | types => exact ⟨.outside, .outside, named.shaped, fun _ listed => listed⟩
  | @members nodes span header body type store scopes anchor _ outside member ih =>
      obtain ⟨around, finds⟩ := ih
      obtain ⟨own, -, dotted, inside, name, -⟩ := finds.type named rfl outside member store anchor
      exact ⟨.body (some own), .body header.typeParameters dotted name, inside, fun node within =>
        finds.listed node ((mem_memberTypesAll member).2 node within)⟩

mutual

/-- The walk comes to every type that is declared inside of one where it stands. -/
theorem StandsAmong.exists_of_memberTypes {frames : List TypeFrame} {nodes : List Node}
    (stands : unit.StandsAmong frames nodes) :
    (node : Node) → node ∈ nodes → ∀ type ∈ node.memberTypes,
      ∃ inner others, unit.StandsAmong inner others ∧ type ∈ others
  | .type span header body, member, type, listed => by
      rw [Node.memberTypes] at listed
      rcases List.mem_cons.mp listed with rfl | inside
      · exact ⟨frames, nodes, stands, member⟩
      · have entered : unit.StandsAmong _ body :=
          .members 0 ∅ { (∅ : Scopes) with types := frames } default stands rfl member
        exact entered.exists_of_memberTypesAll body (fun _ within => within) type inside
termination_by structural node => node

theorem StandsAmong.exists_of_memberTypesAll {frames : List TypeFrame} {nodes : List Node}
    (stands : unit.StandsAmong frames nodes) :
    (others : List Node) → (∀ node ∈ others, node ∈ nodes) → ∀ type ∈ Node.memberTypesAll others,
      ∃ inner among, unit.StandsAmong inner among ∧ type ∈ among
  | [], _, _, listed => nomatch listed
  | node :: others, within, type, listed => by
      obtain ⟨here, there⟩ := List.forall_mem_cons.mp within
      rw [Node.memberTypesAll] at listed
      rcases List.mem_append.mp listed with first | later
      · exact stands.exists_of_memberTypes node here type first
      · exact stands.exists_of_memberTypesAll others there type later
termination_by structural others => others

end

/-- Every type that a file declares at top level or as a member, at any depth, has one name. The walk
comes to all of these types, each at a place among those it stands at. Wherever it stands, the binding
of a type there gives the name that is made up of the package or the type around, the simple name and
the type parameters where the binding is missing, and so does every reference to a type of that binary
name. -/
theorem declared_types_have_one_name (succeeded : ofConcrete config path text tree = .ok unit)
    (names : (typeTable (SourceText.ofString text) tree.children.named).DistinctNames tree.children.named) :
    let table := typeTable (SourceText.ofString text) tree.children.named
    (∀ type ∈ Node.memberTypesAll unit.types,
      ∃ frames nodes, unit.StandsAmong frames nodes ∧ type ∈ nodes) ∧
    ∀ {scopes : Scopes} {nodes : List Node} {span : Span} {header : TypeHeader} {body : List Node},
      unit.StandsAmong scopes.types nodes → scopes.methods = [] → .type span header body ∈ nodes →
        ∀ (store : Store) (anchor : Anchor),
          let name := Walk.declaredName store scopes unit.package header anchor
          ∃ own, header.binding = some own ∧ Naming.bindingName? own = some name ∧
            Walk.declaredName store scopes unit.package { header with binding := none } anchor = name ∧
            ∀ binding, table.Refers binding → binding.kind.isDeclared → binding.name = own.name →
              ∀ written, Naming.typeName (some binding) written = name := by
  intro table
  have named : unit.IsNamedBy table := isNamedBy_of_ofConcrete succeeded names
  refine ⟨StandsAmong.types.exists_of_memberTypesAll unit.types fun _ listed => listed, ?_⟩
  intro scopes nodes span header body stands outside member store anchor name
  obtain ⟨around, finds⟩ := stands.finds named
  obtain ⟨own, known, -, -, -, bound, unbound⟩ := finds.type named rfl outside member store anchor
  refine ⟨own, known.bound, bound, unbound, fun binding refers declared same written => ?_⟩
  have plain : table.HasPlainNames := TypeTable.hasPlainNames_declareAll names.identifiers
  obtain rfl := refers.eq_of_name named.indexed plain declared (same ▸ known.found)
  rw [Naming.typeName, Option.bind_some, bound]

/-- A member of a generic type. -/
theorem declared_types_have_one_name_of_member :
    let text := "package p; class A<T> { class B {} }"
    let node (role : Option Role) (kind : ConcreteKind) (start stop : Nat) (children : Forest) :
        Concrete := .node ⟨role, kind, true, false, false, false, start, stop⟩ children
    let inner := node none .classDeclaration 24 34
      [node (some .name) .identifier 30 31 [], node (some .body) .classBody 32 34 []]
    let outer := node none .classDeclaration 11 36 [node (some .name) .identifier 17 18 [],
      node (some .typeParameters) .other 18 21
        [node none .typeParameter 19 20 [node none .typeIdentifier 19 20 []]],
      node (some .body) .classBody 22 36 [inner]]
    let tree := node none .other 0 36
      [node none .packageDeclaration 0 10 [node none .identifier 8 9 []], outer]
    ∃ unit span header place member, ofConcrete .standard "A.java" text tree = .ok unit ∧
      unit.types = [.type span header [.type place member []]] ∧
      let scopes : Scopes := { (∅ : Scopes) with types := [⟨0, "p.A<T>"⟩] }
      ∃ own, member.binding = some own ∧ Naming.bindingName? own = some "p.A$B" ∧
        Walk.declaredName ∅ scopes unit.package { member with binding := none } ⟨"A.java", 24, 34⟩ =
          "p.A$B" := by
  intro text node inner outer tree
  let table := typeTable (SourceText.ofString text) tree.children.named
  obtain ⟨unit, span, header, place, member, lowered, types, named, spelled, plain, package, simple,
      binary⟩ :
      ∃ unit span header place member, ofConcrete .standard "A.java" text tree = .ok unit ∧
        unit.types = [.type span header [.type place member []]] ∧
        header.binding.bind Naming.bindingName? = some "p.A<T>" ∧ member.name = "B" ∧
        member.typeParameters = [] ∧ table.package = some "p" ∧
        (table.declaredTypes tree.children.named).map
          (fun declaration => table.source.childText .name declaration.tree) = ["A", "B"] ∧
        (table.declaredTypes tree.children.named).map (·.name) = ["p.A", "p.A$B"] := by
    refine ⟨_, _, _, _, _, rfl, rfl, ?_⟩
    decide +kernel +revert
  have names : table.DistinctNames tree.children.named := {
    packages := by
      intro named given
      obtain rfl : "p" = named := Option.some.inj (package.symm.trans given)
      exact ⟨by decide, List.forall_mem_singleton.mpr (by decide)⟩
    identifiers := by
      intro declaration listed
      have spelled := List.mem_map_of_mem (f := fun declaration : TypeDeclaration =>
        table.source.childText .name declaration.tree) listed
      rw [simple] at spelled
      simp only [List.mem_cons, List.not_mem_nil, or_false] at spelled
      rcases spelled with same | same <;> rw [same] <;>
        exact ⟨by decide, List.forall_mem_singleton.mpr (by decide), by decide⟩
    distinct := by
      rw [binary]
      decide }
  refine ⟨unit, span, header, place, member, lowered, types, ?_⟩
  intro scopes
  have entered : Walk.declaredName ∅ ∅ unit.package header ⟨"A.java", 11, 36⟩ = "p.A<T>" := by
    simp only [Walk.declaredName, named]
  have stands : unit.StandsAmong scopes.types [.type place member []] := by
    have listed : .type span header [.type place member []] ∈ unit.types := types ▸ List.mem_cons_self
    have inside := StandsAmong.members 0 ∅ ∅ ⟨"A.java", 11, 36⟩ .types rfl listed
    rwa [entered] at inside
  obtain ⟨-, oneName⟩ := declared_types_have_one_name lowered names
  obtain ⟨own, known, bound, unbound, -⟩ :=
    oneName stands rfl List.mem_cons_self ∅ ⟨"A.java", 24, 34⟩
  have made : Walk.declaredName ∅ scopes unit.package { member with binding := none }
      ⟨"A.java", 24, 34⟩ = "p.A$B" := by
    simp only [Walk.declaredName, spelled, plain]
    rfl
  exact ⟨own, known, bound.trans (congrArg some (unbound.symm.trans made)), made⟩

end CompilationUnit

end JavaFacts
