import JavaFacts.Proofs.Extraction.Nesting
import JavaFacts.Proofs.Naming.Segments
import JavaFacts.Proofs.Outline.Labels

/-!
What keeps the types of a unit apart. All names that the types directly inside of one type get go on
from its name, each with a segment of its own, and the segments tell the types apart: members by their
simple names, anonymous classes by their numbers, and types in code by both.
-/

namespace JavaFacts

open Naming (IsSimple Segment GoesOn withoutTypeParameters typeParameterList nameSize)

namespace Node

def header? : Node → Option TypeHeader
  | type _ header _ => some header
  | _ => none

/-- The members of the type that a node gives rise to. -/
def typeBody? : Node → Option (List Node)
  | type _ _ body => some body
  | creation _ _ _ _ _ (some anonymous) => some anonymous.body
  | _ => none

/-- The nodes inside a node that lie in the same type as the node does. -/
def outerChildren : Node → List Node
  | creation _ _ _ receiver arguments (some _) => receiver.toList ++ arguments
  | node => node.children

/-- Whether a node is in the code among the nodes, outside of the types there. -/
inductive IsCodeAmong (node : Node) : List Node → Prop where
  | here {nodes : List Node} : node ∈ nodes → IsCodeAmong node nodes
  | inside {nodes : List Node} {other : Node} : other ∈ nodes → other.isType = false →
      IsCodeAmong node other.outerChildren → IsCodeAmong node nodes

/-- Whether a node is in the code of the members of a type, outside of the types there. -/
def IsCodeOf (node : Node) (body : List Node) : Prop :=
  ∃ member ∈ body, member.isType = false ∧ node.IsCodeAmong member.children

/-- Whether the types directly inside of a type, the members of which are given, are told apart by
what stands in the source: no two member types have one simple name, and types in code that have one
simple name have the same type parameters. -/
structure KeepsApart (body : List Node) : Prop where
  members : ∀ ⦃first⦄, first ∈ body → ∀ ⦃second⦄, second ∈ body → ∀ ⦃header other⦄,
    first.header? = some header → second.header? = some other → header.name = other.name →
      first = second
  code : ∀ ⦃first second : Node⦄, first.IsCodeOf body → second.IsCodeOf body → ∀ ⦃header other⦄,
    first.header? = some header → second.header? = some other → header.name = other.name →
      header.typeParameters = other.typeParameters

theorem outerChildren_eq {node : Node} (notType : node.makesType = false) :
    node.isType = false ∧ node.outerChildren = node.children := by
  cases node with
  | type => cases notType
  | creation _ _ _ _ _ anonymous =>
      cases anonymous with
      | none => exact ⟨rfl, rfl⟩
      | some => cases notType
  | _ => exact ⟨rfl, rfl⟩

theorem IsCodeAmong.mono {node : Node} {nodes others : List Node} (code : node.IsCodeAmong nodes)
    (more : nodes ⊆ others) : node.IsCodeAmong others := by
  cases code with
  | here member => exact .here (more member)
  | inside member notType inside => exact .inside (more member) notType inside

theorem outerChildren_subset (node : Node) : node.outerChildren ⊆ node.children := by
  cases node with
  | creation _ _ _ _ _ anonymous =>
      cases anonymous with
      | none => exact List.Subset.refl _
      | some => exact List.subset_append_left _ _
  | _ => exact List.Subset.refl _

theorem IsCodeAmong.mem_nodes {node : Node} {nodes : List Node} (code : node.IsCodeAmong nodes) :
    node ∈ nodes.flatMap Node.nodes := by
  induction code with
  | here member =>
      refine List.mem_flatMap.mpr ⟨_, member, ?_⟩
      rw [nodes_eq]
      exact List.mem_cons_self
  | @inside nodes other member _ _ ih =>
      obtain ⟨root, listed, inside⟩ := List.mem_flatMap.mp ih
      refine List.mem_flatMap.mpr ⟨other, member, ?_⟩
      rw [nodes_eq]
      exact List.mem_cons_of_mem _
        (List.mem_flatMap.mpr ⟨root, outerChildren_subset other listed, inside⟩)

/-- Types in code without type parameters are kept apart by their numbers. -/
theorem KeepsApart.of_plain {body : List Node}
    (members : ∀ ⦃first⦄, first ∈ body → ∀ ⦃second⦄, second ∈ body → ∀ ⦃header other⦄,
      first.header? = some header → second.header? = some other → header.name = other.name →
        first = second)
    (plain : ∀ node ∈ body.flatMap Node.nodes, ∀ header, node.header? = some header →
      header.typeParameters = []) : KeepsApart body := by
  have parameters {node : Node} (code : node.IsCodeOf body) {header : TypeHeader}
      (known : node.header? = some header) : header.typeParameters = [] := by
    obtain ⟨member, listed, -, inside⟩ := code
    obtain ⟨root, among, within⟩ := List.mem_flatMap.mp inside.mem_nodes
    refine plain node (List.mem_flatMap.mpr ⟨member, listed, ?_⟩) header known
    rw [nodes_eq]
    exact List.mem_cons_of_mem _ (List.mem_flatMap.mpr ⟨root, among, within⟩)
  exact ⟨members, fun _ _ first second _ _ known knownToo _ =>
    (parameters first known).trans (parameters second knownToo).symm⟩

/-- Whether a type has a simple name and keeps the types inside of it apart. -/
structure HasTypesApart (node : Node) : Prop where
  simple : ∀ header, node.header? = some header → IsSimple header.name
  body : ∀ body, node.typeBody? = some body → KeepsApart body

theorem HasTypesApart.of_none {node : Node} (header : node.header? = none)
    (body : node.typeBody? = none) : node.HasTypesApart where
  simple _ known := by cases header.symm.trans known
  body _ known := by cases body.symm.trans known

end Node

/-- Whether the types of a unit are told apart by what stands in the source, and stand at different
places. -/
structure CompilationUnit.HasTypesApart (unit : CompilationUnit) : Prop where
  package : ∀ package, unit.package = some package → '<' ∉ package.toList
  top : Node.KeepsApart unit.types
  nodes : ∀ node ∈ unit.types.flatMap Node.nodes, node.HasTypesApart
  places : (((unit.types.flatMap Node.nodes).filter (·.makesType)).map (·.typeSpan)).Nodup

/-- What the names of the types directly inside of a type, or outside of all types, start with. -/
def Naming.frontOf (package around : Option String) : String :=
  match around with
  | some type => withoutTypeParameters type ++ "$"
  | none =>
      match package with
      | some package => if package.isEmpty then "" else package ++ "."
      | none => ""

namespace Enclosure

/-- A type that is entered under the name, by its binding. -/
structure Entered (binding : Option TypeBinding) (name : String) : Prop where
  unmarked : '<' ∉ (withoutTypeParameters name).toList
  bears : ∀ own, binding = some own → own.name = withoutTypeParameters name

/-- Whether a walk that meets a node where it stands is in types of these names. A type is numbered
where both names are one. -/
def Fits (around host : Option String) : Enclosure → Prop
  | outside => around = none ∧ host = none
  | body self => ∃ type, around = some type ∧ Entered self type ∧
      ∀ outer, host = some outer → nameSize outer < nameSize type
  | code self => ∃ type, around = some type ∧ host = some type ∧ Entered self type

/-- Whether the nodes are among the members of the given body, or in the code of these. -/
def Within (body nodes : List Node) : Enclosure → Prop
  | outside | .body _ => nodes ⊆ body
  | code _ => ∀ node : Node, node.IsCodeAmong nodes → node.IsCodeOf body

variable {table : TypeTable} {package around host : Option String} {enclosure : Enclosure}

theorem Fits.unmarked (fits : enclosure.Fits around host)
    (plain : ∀ name, package = some name → '<' ∉ name.toList) :
    '<' ∉ (Naming.frontOf package around).toList := by
  cases enclosure with
  | outside =>
      obtain ⟨rfl, -⟩ := fits
      unfold Naming.frontOf
      cases package with
      | none => decide
      | some name =>
          dsimp only
          split
          · decide
          · exact Text.not_mem_append.mpr ⟨plain name rfl, by decide⟩
  | body self =>
      obtain ⟨type, rfl, entered, -⟩ := fits
      exact Text.not_mem_append.mpr ⟨entered.unmarked, by decide⟩
  | code self =>
      obtain ⟨type, rfl, -, entered⟩ := fits
      exact Text.not_mem_append.mpr ⟨entered.unmarked, by decide⟩

/-- The name of a type up to its parameters. -/
theorem Fits.withoutTypeParameters (fits : enclosure.Fits around host)
    (plain : ∀ name, package = some name → '<' ∉ name.toList) {segment : Segment}
    (spelled : segment.IsSpelled) (parameters : List String) :
    Naming.withoutTypeParameters
      (Naming.frontOf package around ++ segment.text ++ typeParameterList parameters) =
      Naming.frontOf package around ++ segment.text :=
  Naming.withoutTypeParameters_append
    (fun empty => segment.text_ne_empty spelled (String.append_eq_empty_iff.mp empty).2)
    (Text.not_mem_append.mpr ⟨fits.unmarked plain, segment.unbracketed spelled⟩) parameters

/-- The names inside of a type that is entered are longer. -/
theorem Fits.enter (fits : enclosure.Fits around host)
    (plain : ∀ name, package = some name → '<' ∉ name.toList) {segment : Segment}
    (spelled : segment.IsSpelled) {name : String} {parameters : List String}
    (named : name = Naming.frontOf package around ++ segment.text ++ typeParameterList parameters)
    {self : Option TypeBinding}
    (bears : ∀ own, self = some own → own.name = Naming.frontOf package around ++ segment.text) :
    (body self).Fits (some name) host := by
  have stripped := fits.withoutTypeParameters plain spelled parameters
  rw [← named] at stripped
  refine ⟨name, rfl, ⟨?_, fun own known => (bears own known).trans stripped.symm⟩, fun outer hosted => ?_⟩
  · rw [stripped]
    exact Text.not_mem_append.mpr ⟨fits.unmarked plain, segment.unbracketed spelled⟩
  · have longer {type : String} (inside : around = some type) : nameSize type < nameSize name := by
      rw [nameSize, nameSize, stripped, inside, Naming.frontOf, String.length_append,
        String.length_append]
      have one : "$".length = 1 := rfl
      omega
    cases enclosure with
    | outside => cases fits.2.symm.trans hosted
    | body self =>
        obtain ⟨type, inside, -, smaller⟩ := fits
        exact (smaller outer hosted).trans (longer inside)
    | code self =>
        obtain ⟨type, inside, here, -⟩ := fits
        obtain rfl := Option.some.inj (here.symm.trans hosted)
        exact longer inside

end Enclosure

theorem TypeTable.qualify_eq (table : TypeTable) (name : String) :
    table.qualify name = Naming.frontOf table.package none ++ name := by
  unfold qualify Naming.frontOf
  cases table.package with
  | none => rfl
  | some package =>
      dsimp only
      split <;> rfl

namespace TypeHeader

variable {table : TypeTable} {header : TypeHeader} {around host : Option String}

/-- Outside of code a type is named by its simple name, whether its binding tells the name or not. -/
theorem naming_given {enclosure : Enclosure} (indexed : table.IsIndexed) (fits : enclosure.Fits around host)
    (notCode : ∀ self, enclosure ≠ .code self) (nonempty : header.name ≠ "")
    (bound : header.binding = enclosure.declared? table header.name) :
    let stem := Naming.frontOf table.package around ++ header.name
    (∃ parameters, header.naming table.package around host =
      .given (stem ++ typeParameterList parameters)) ∧
      ∀ own, header.binding = some own → own.name = stem := by
  intro stem
  have filled : stem.isEmpty = false :=
    Bool.eq_false_iff.mpr fun empty =>
      nonempty (String.append_eq_empty_iff.mp (String.isEmpty_iff.mp empty)).2
  have known {own : TypeBinding} (found : table.binding? stem = some own)
      (same : header.binding = some own) :
      (∃ parameters, header.naming table.package around host =
        .given (stem ++ typeParameterList parameters)) ∧
      ∀ own, header.binding = some own → own.name = stem := by
    obtain ⟨named, shape⟩ := indexed stem own found
    refine ⟨⟨own.typeParameters, ?_⟩, fun other binding => ?_⟩
    · rw [naming, same, Option.bind_some, TypeBinding.bindingName?_of_shape shape, named, filled]
      rfl
    · rw [same] at binding
      exact Option.some.inj binding ▸ named
  cases enclosure with
  | outside =>
      obtain ⟨rfl, rfl⟩ := fits
      rw [Enclosure.declared?, TypeTable.qualify_eq] at bound
      cases found : table.binding? stem with
      | some own => exact known found (bound.trans found)
      | none =>
          have unbound : header.binding = none := bound.trans found
          refine ⟨⟨header.typeParameters, ?_⟩, fun own same => by rw [unbound] at same; cases same⟩
          simp only [naming, unbound, Option.bind_none, stem, Naming.frontOf]
          cases table.package with
          | none => simp only [String.empty_append]
          | some package =>
              dsimp only
              split <;> simp only [String.empty_append, String.append_assoc]
  | body self =>
      obtain ⟨type, rfl, entered, smaller⟩ := fits
      have elsewhere : host ≠ some type := fun same => Nat.lt_irrefl _ (smaller type same)
      cases found : header.binding with
      | some own =>
          rw [← found]
          obtain ⟨outer, named, declared⟩ := Option.bind_eq_some_iff.mp (bound.symm.trans found)
          rw [entered.bears outer named] at declared
          exact known declared found
      | none =>
          refine ⟨⟨header.typeParameters, ?_⟩, fun own same => by cases same⟩
          simp only [naming, found, Option.bind_none, elsewhere, ↓reduceIte, stem, Naming.frontOf,
            String.append_assoc]
  | code self => exact absurd rfl (notCode self)

/-- How a type in the code of the type `outer` is named. -/
def localNaming (header : TypeHeader) (outer : String) : TypeNaming :=
  .numbered (withoutTypeParameters outer) (header.name ++ typeParameterList header.typeParameters)

theorem naming_numbered {self : Option TypeBinding} (fits : (Enclosure.code self).Fits around host)
    (unbound : header.binding = none) (package : Option String) : ∃ type, around = some type ∧
      header.naming package around host = header.localNaming type := by
  obtain ⟨type, rfl, rfl, -⟩ := fits
  refine ⟨type, rfl, ?_⟩
  simp only [naming, unbound, Option.bind_none, ↓reduceIte]
  rfl

end TypeHeader

theorem Naming.anonymousName_eq {package around : Option String} {type : String} (inside : around = some type)
    (ordinal : Nat) : anonymousName type ordinal =
      frontOf package around ++ (Segment.anonymous ordinal).text ++ typeParameterList [] := by
  rw [inside, anonymousName, frontOf, Segment.text, Segment.number, Segment.word, typeParameterList,
    String.append_empty]
  simp only [String.append_assoc]

/-- Whether numbers tell types apart: in code, no two places have one number for one name, and neither
have two anonymous classes of one type. -/
structure NumbersApart (declared : TypeNaming → String → Span → Prop) (labels : List Label) : Prop where
  code : ∀ ⦃outer simple name span other⦄, declared (.numbered outer simple) name span →
    declared (.numbered outer simple) name other → span = other
  created : ∀ ⦃type first second⦄, first ∈ labels → second ∈ labels → first.isCreatedIn type →
    second.isCreatedIn type → first.name = second.name → first.node.typeSpan = second.node.typeSpan

namespace Label

/-- The labels of the types directly inside of a type with the given body, and the segments that their
names have. -/
inductive Direct (package around : Option String) (declared : TypeNaming → String → Span → Prop)
    (body : List Node) : Label → Segment → Prop where
  | member {node : Node} {header : TypeHeader} {parameters : List String} :
      node ∈ body → node.header? = some header →
      Direct package around declared body
        ⟨node, around, Naming.frontOf package around ++ header.name ++ typeParameterList parameters⟩
        (.member header.name)
  | numbered {node : Node} {header : TypeHeader} {type name : String} {ordinal : Nat} :
      around = some type → node.IsCodeOf body → node.header? = some header →
      name = TypeNaming.numberedName (withoutTypeParameters type)
        (header.name ++ typeParameterList header.typeParameters) ordinal →
      declared (header.localNaming type) name node.typeSpan →
      Direct package around declared body ⟨node, around, name⟩ (.numbered ordinal header.name)
  | anonymous {node : Node} {type : String} {ordinal : Nat} :
      around = some type → node.isAnonymousCreation →
      Direct package around declared body ⟨node, around, Naming.anonymousName type ordinal⟩
        (.anonymous ordinal)

/-- Whether the name of a label goes on from that of a label directly inside of the type. -/
def Under (package around : Option String) (declared : TypeNaming → String → Span → Prop)
    (body : List Node) (head label : Label) : Prop :=
  ∃ segment : Segment, segment.IsSpelled ∧ Direct package around declared body head segment ∧
    GoesOn (Naming.frontOf package around ++ segment.text) (withoutTypeParameters label.name)

variable {package around host : Option String} {declared : TypeNaming → String → Span → Prop}
  {body : List Node} {labels : List Label} {first second label other head : Label}
  {segment segment' : Segment}

theorem Direct.name_eq (direct : Direct package around declared body label segment) : ∃ parameters,
    label.name = Naming.frontOf package around ++ segment.text ++ typeParameterList parameters := by
  cases direct with
  | @member _ header parameters =>
      exact ⟨parameters, by rw [Segment.text, Segment.number, Segment.word, String.empty_append]⟩
  | @numbered _ header _ _ _ inside _ _ named =>
      refine ⟨header.typeParameters, named.trans ?_⟩
      rw [inside, TypeNaming.numberedName, Naming.frontOf, Segment.text, Segment.number, Segment.word]
      simp only [String.append_assoc]
  | anonymous inside => exact ⟨[], Naming.anonymousName_eq inside _⟩

/-- Direct labels with one segment are at one place. -/
theorem Direct.typeSpan_eq (inFirst : Direct package around declared body first segment)
    (inSecond : Direct package around declared body second segment') (same : segment = segment')
    (keeps : Node.KeepsApart body) (numbers : NumbersApart declared labels) (firstListed : first ∈ labels)
    (secondListed : second ∈ labels) : first.node.typeSpan = second.node.typeSpan := by
  cases inFirst with
  | member listed header =>
      cases inSecond with
      | member listed' header' =>
          exact congrArg Node.typeSpan (keeps.members listed listed' header header' (Segment.member.inj same))
      | _ => cases same
  | numbered outer code header named here =>
      cases inSecond with
      | numbered outer' code' header' named' here' =>
          obtain ⟨ordinal, simple⟩ := Segment.numbered.inj same
          have parameters := keeps.code code code' header header' simple
          obtain rfl := Option.some.inj (outer.symm.trans outer')
          rw [TypeHeader.localNaming, simple, parameters] at here
          rw [ordinal, simple, parameters, ← named'] at named
          exact numbers.code (named ▸ here) here'
      | _ => cases same
  | @anonymous _ type ordinal outer creates =>
      cases inSecond with
      | anonymous outer' creates' =>
          obtain rfl := Segment.anonymous.inj same
          obtain rfl := Option.some.inj (outer.symm.trans outer')
          have created {node : Node} (creates : node.isAnonymousCreation) : isCreatedIn type
              ⟨node, around, Naming.anonymousName type ordinal⟩ := by
            rw [isCreatedIn, creates, outer, beq_self_eq_true, Bool.and_self]
          exact numbers.created firstListed secondListed (created creates) (created creates') rfl
      | _ => cases same

theorem Direct.under (direct : Direct package around declared body head segment)
    (spelled : segment.IsSpelled) {enclosure : Enclosure} (fits : enclosure.Fits around host)
    (plain : ∀ name, package = some name → '<' ∉ name.toList)
    (goesOn : GoesOn (withoutTypeParameters head.name) (withoutTypeParameters label.name)) :
    Under package around declared body head label := by
  obtain ⟨parameters, named⟩ := direct.name_eq
  rw [named, fits.withoutTypeParameters plain spelled] at goesOn
  exact ⟨segment, spelled, direct, goesOn⟩

/-- The names inside of a type go on from its name, and are longer. -/
theorem Under.goesOn {type : String} (under : Under package (some type) declared body head label) :
    GoesOn (withoutTypeParameters type) (withoutTypeParameters label.name) ∧
      withoutTypeParameters type ≠ withoutTypeParameters label.name := by
  obtain ⟨segment, -, -, goesOn⟩ := under
  refine ⟨GoesOn.trans (.inr ⟨segment.text, rfl⟩) goesOn, fun same => ?_⟩
  have longer := goesOn.length_le
  rw [Naming.frontOf, same, String.length_append, String.length_append] at longer
  have one : "$".length = 1 := rfl
  omega

/-- One name does not go on from names of labels at different places. -/
theorem Under.typeSpan_eq (inFirst : Under package around declared body first label)
    (inSecond : Under package around declared body second other)
    (same : withoutTypeParameters label.name = withoutTypeParameters other.name)
    (keeps : Node.KeepsApart body) (numbers : NumbersApart declared labels) (firstListed : first ∈ labels)
    (secondListed : second ∈ labels) : first.node.typeSpan = second.node.typeSpan := by
  obtain ⟨segment, spelled, direct, goesOn⟩ := inFirst
  obtain ⟨segment', spelled', direct', goesOn'⟩ := inSecond
  rw [same] at goesOn
  have texts := goesOn.segment_unique goesOn' (segment.unmarked spelled) (segment'.unmarked spelled')
  exact direct.typeSpan_eq direct' (Segment.text_injective spelled spelled' texts) keeps numbers
    firstListed secondListed

end Label

theorem Node.Shaped.of_isMember {table : TypeTable} {spelled : String → Prop} {around : Enclosure}
    {node : Node} (shaped : node.Shaped table spelled around) (isMember : node.isMember) :
    ∃ self, around = .body self ∧ ∀ child ∈ node.children, child.Shaped table spelled (.code self) := by
  cases node with
  | method => exact ⟨_, shaped.of_method⟩
  | fields => exact ⟨_, shaped.of_fields⟩
  | initializer =>
      obtain ⟨here, inside⟩ := shaped.of_initializer
      exact ⟨_, here, List.forall_mem_singleton.mpr inside⟩
  | _ => cases isMember

/-- The nodes stand among the members of the given body, or in the code of these, in types of the
given names. -/
structure Spot (table : TypeTable) (body : List Node) (enclosure : Enclosure)
    (around host : Option String) (nodes : List Node) : Prop where
  indexed : table.IsIndexed
  plain : ∀ name, table.package = some name → '<' ∉ name.toList
  fits : enclosure.Fits around host
  keeps : Node.KeepsApart body
  shaped : ∀ node ∈ nodes, node.Shaped table (fun _ => True) enclosure
  within : enclosure.Within body nodes
  apart : ∀ node ∈ nodes.flatMap Node.nodes, node.HasTypesApart

section

variable {table : TypeTable} {declared : TypeNaming → String → Span → Prop} {body nodes fewer : List Node}
  {enclosure : Enclosure} {around host : Option String} {node : Node} {name : String}
  {labels all : List Label}

namespace Spot

theorem part (spot : Spot table body enclosure around host nodes) (among : fewer ⊆ nodes) :
    Spot table body enclosure around host fewer where
  indexed := spot.indexed
  plain := spot.plain
  fits := spot.fits
  keeps := spot.keeps
  shaped node member := spot.shaped node (among member)
  within := by
    have within := spot.within
    cases enclosure with
    | code self => exact fun node code => within node (code.mono among)
    | _ => exact List.Subset.trans among within
  apart node member := by
    obtain ⟨root, listed, inside⟩ := List.mem_flatMap.mp member
    exact spot.apart node (List.mem_flatMap.mpr ⟨root, among listed, inside⟩)

theorem apart_here (spot : Spot table body enclosure around host [node]) : node.HasTypesApart :=
  spot.apart node (by rw [List.flatMap_singleton, Node.nodes_eq]; exact List.mem_cons_self)

theorem apart_inside (spot : Spot table body enclosure around host [node]) (among : fewer ⊆ node.children) :
    ∀ inner ∈ fewer.flatMap Node.nodes, inner.HasTypesApart := by
  intro inner member
  obtain ⟨root, listed, inside⟩ := List.mem_flatMap.mp member
  refine spot.apart inner ?_
  rw [List.flatMap_singleton, Node.nodes_eq]
  exact List.mem_cons_of_mem _ (List.mem_flatMap.mpr ⟨root, among listed, inside⟩)

section Declared

variable {span : Span} {header : TypeHeader} {inner : List Node}

/-- The segment that the name of a type has. -/
theorem exists_direct (spot : Spot table body enclosure around host [.type span header inner])
    (gives : (header.naming table.package around host).Gives name)
    (here : declared (header.naming table.package around host) name span) :
    ∃ segment : Segment, segment.IsSpelled ∧ Label.Direct table.package around declared body
      ⟨.type span header inner, around, name⟩ segment ∧
      ∀ own, header.binding = some own →
        own.name = Naming.frontOf table.package around ++ segment.text := by
  have simple := spot.apart_here.simple header rfl
  obtain ⟨bound, -⟩ := (spot.shaped _ List.mem_cons_self).of_type
  have member (notCode : ∀ self, enclosure ≠ .code self)
      (listed : .type span header inner ∈ body) : ∃ segment : Segment, segment.IsSpelled ∧
      Label.Direct table.package around declared body ⟨.type span header inner, around, name⟩ segment ∧
      ∀ own, header.binding = some own →
        own.name = Naming.frontOf table.package around ++ segment.text := by
    obtain ⟨⟨parameters, naming⟩, bears⟩ :=
      header.naming_given spot.indexed spot.fits notCode simple.identifier.nonempty bound
    rw [naming] at gives
    obtain rfl : name = _ := gives
    refine ⟨.member header.name, simple, .member listed rfl, ?_⟩
    rwa [Segment.text, Segment.number, Segment.word, String.empty_append]
  cases enclosure with
  | outside => exact member (fun self same => by cases same) (spot.within List.mem_cons_self)
  | body self => exact member (fun self same => by cases same) (spot.within List.mem_cons_self)
  | code self =>
      obtain ⟨type, outer, naming⟩ := TypeHeader.naming_numbered spot.fits bound table.package
      rw [naming] at gives here
      obtain ⟨ordinal, named⟩ := gives
      refine ⟨.numbered ordinal header.name, simple,
        .numbered outer (spot.within _ (.here List.mem_cons_self)) rfl named here, fun own known => ?_⟩
      cases bound.symm.trans known

theorem type_under (spot : Spot table body enclosure around host [.type span header inner])
    (gives : (header.naming table.package around host).Gives name)
    (here : declared (header.naming table.package around host) name span) {label : Label}
    (goesOn : GoesOn (withoutTypeParameters name) (withoutTypeParameters label.name)) :
    Label.Under table.package around declared body ⟨.type span header inner, around, name⟩ label := by
  obtain ⟨segment, spelled, direct, -⟩ := spot.exists_direct gives here
  exact direct.under spelled spot.fits spot.plain goesOn

/-- The members of a type stand in it. -/
theorem type (spot : Spot table body enclosure around host [.type span header inner])
    (gives : (header.naming table.package around host).Gives name)
    (here : declared (header.naming table.package around host) name span) :
    Spot table inner (.body header.binding) (some name) host inner := by
  obtain ⟨segment, spelled, direct, bears⟩ := spot.exists_direct gives here
  obtain ⟨parameters, named⟩ := direct.name_eq
  exact {
    indexed := spot.indexed
    plain := spot.plain
    fits := spot.fits.enter spot.plain spelled named bears
    keeps := spot.apart_here.body inner rfl
    shaped := (spot.shaped _ List.mem_cons_self).of_type.2
    within := List.Subset.refl inner
    apart := spot.apart_inside (List.Subset.refl inner) }

end Declared

section Anonymous

variable {span bodySpan : Span} {created : TypeUse} {binding : Option MethodBinding}
  {bodyBinding : Option TypeBinding} {receiver : Option Node} {arguments inner : List Node}
  (spot : Spot table body enclosure around host
    [.creation span created binding receiver arguments (some (.mk bodySpan bodyBinding inner))])
  (numbered : bodyBinding.bind Naming.bindingName? = none →
    ∃ type ordinal, around = some type ∧ name = Naming.anonymousName type ordinal)
include spot

theorem anonymous_unbound : bodyBinding = none := by
  cases spot.shaped _ List.mem_cons_self with
  | code isCode => cases isCode
  | anonymous => rfl

include numbered

theorem anonymous_under {label : Label}
    (goesOn : GoesOn (withoutTypeParameters name) (withoutTypeParameters label.name)) :
    Label.Under table.package around declared body ⟨.creation span created binding receiver arguments
      (some (.mk bodySpan bodyBinding inner)), around, name⟩ label := by
  obtain rfl := spot.anonymous_unbound
  obtain ⟨type, ordinal, outer, rfl⟩ := numbered rfl
  exact Label.Direct.under (.anonymous outer rfl) trivial spot.fits spot.plain goesOn

/-- The members of an anonymous class stand in it, and the receiver and the arguments of its creation
where the creation does. -/
theorem anonymous : Spot table body enclosure around host (receiver.toList ++ arguments) ∧
    Spot table inner (.body none) (some name) host inner := by
  obtain rfl := spot.anonymous_unbound
  obtain ⟨type, ordinal, outer, rfl⟩ := numbered rfl
  obtain ⟨here, inParts, inBody⟩ := (spot.shaped _ List.mem_cons_self).of_anonymous
  have within := spot.within
  have fits := spot.fits
  have spelled : (Segment.anonymous ordinal).IsSpelled := trivial
  have children : (receiver.toList ++ arguments) ++ inner = (Node.creation span created binding receiver
    arguments (some (.mk bodySpan none inner))).children := rfl
  generalize enclosure.self = self at here inParts
  subst here
  constructor
  · exact {
      indexed := spot.indexed
      plain := spot.plain
      fits := fits
      keeps := spot.keeps
      shaped := inParts
      within := fun node code => within node (.inside List.mem_cons_self rfl code)
      apart := spot.apart_inside (children ▸ List.subset_append_left _ _) }
  · exact {
      indexed := spot.indexed
      plain := spot.plain
      fits := fits.enter spot.plain spelled (Naming.anonymousName_eq outer ordinal) nofun
      keeps := spot.apart_here.body inner rfl
      shaped := inBody
      within := List.Subset.refl inner
      apart := spot.apart_inside (children ▸ List.subset_append_right _ _) }

end Anonymous

/-- The code of a member stands in the type that the member belongs to. -/
theorem member (spot : Spot table body enclosure around host [node]) (isMember : node.isMember) :
    ∃ self, Spot table body (.code self) around around node.children := by
  obtain ⟨self, rfl, inside⟩ := (spot.shaped _ List.mem_cons_self).of_isMember isMember
  obtain ⟨type, outer, entered, -⟩ := spot.fits
  refine ⟨self, {
    indexed := spot.indexed
    plain := spot.plain
    fits := ⟨type, outer, outer, entered⟩
    keeps := spot.keeps
    shaped := inside
    within := fun inner code => ⟨node, spot.within List.mem_cons_self, ?_, code⟩
    apart := spot.apart_inside (List.Subset.refl _) }⟩
  cases node <;> first | rfl | cases isMember

theorem code (spot : Spot table body enclosure around host [node]) (notMember : node.isMember = false)
    (notType : node.makesType = false) : Spot table body enclosure around host node.children := by
  have isCode : node.isCode := by
    cases node with
    | type => cases notType
    | method | fields | initializer => cases notMember
    | creation _ _ _ _ _ anonymous =>
        cases anonymous with
        | none => rfl
        | some => cases notType
    | _ => rfl
  obtain ⟨here, inside⟩ := (spot.shaped _ List.mem_cons_self).of_isCode isCode
  obtain ⟨plain, same⟩ := Node.outerChildren_eq notType
  have within := spot.within
  have fits := spot.fits
  generalize enclosure.self = self at here inside
  subst here
  exact {
    indexed := spot.indexed
    plain := spot.plain
    fits := fits
    keeps := spot.keeps
    shaped := inside
    within := fun inner code => within inner (.inside List.mem_cons_self plain (same ▸ code))
    apart := spot.apart_inside (List.Subset.refl _) }

end Spot

namespace Named

theorem bodyBinding?_eq_none (named : Named table.package declared around host nodes labels)
    (spot : Spot table body enclosure around host nodes) :
    ∀ label ∈ labels, label.node.bodyBinding? = none := by
  induction named generalizing body enclosure with
  | nil => exact nofun
  | append _ _ first rest =>
      exact List.forall_mem_append.mpr ⟨first (spot.part (List.subset_append_left _ _)),
        rest (spot.part (List.subset_append_right _ _))⟩
  | type gives here _ ih => exact List.forall_mem_cons.mpr ⟨rfl, ih (spot.type gives here)⟩
  | anonymous numbered _ _ _ parts ih =>
      obtain ⟨around, inner⟩ := spot.anonymous numbered
      exact List.forall_mem_cons.mpr ⟨spot.anonymous_unbound,
        List.forall_mem_append.mpr ⟨parts around, ih inner⟩⟩
  | member isMember _ ih =>
      obtain ⟨self, inner⟩ := spot.member isMember
      exact ih inner
  | code notMember notType _ ih => exact ih (spot.code notMember notType)

/-- Every name goes on from that of a type directly inside of the one around. -/
theorem exists_under (named : Named table.package declared around host nodes labels)
    (spot : Spot table body enclosure around host nodes) :
    ∀ label ∈ labels, ∃ head ∈ labels, Label.Under table.package around declared body head label := by
  induction named generalizing body enclosure with
  | nil => exact nofun
  | append _ _ first rest =>
      intro label member
      rcases List.mem_append.mp member with member | member
      · obtain ⟨head, listed, under⟩ := first (spot.part (List.subset_append_left _ _)) label member
        exact ⟨head, List.mem_append_left _ listed, under⟩
      · obtain ⟨head, listed, under⟩ := rest (spot.part (List.subset_append_right _ _)) label member
        exact ⟨head, List.mem_append_right _ listed, under⟩
  | type gives here _ ih =>
      refine List.forall_mem_cons.mpr ⟨⟨_, List.mem_cons_self, spot.type_under gives here (.refl _)⟩, ?_⟩
      intro label member
      obtain ⟨head, -, under⟩ := ih (spot.type gives here) label member
      exact ⟨_, List.mem_cons_self, spot.type_under gives here under.goesOn.1⟩
  | anonymous numbered _ _ _ parts ih =>
      obtain ⟨around, inner⟩ := spot.anonymous numbered
      refine List.forall_mem_cons.mpr
        ⟨⟨_, List.mem_cons_self, spot.anonymous_under numbered (.refl _)⟩, ?_⟩
      intro label member
      rcases List.mem_append.mp member with member | member
      · obtain ⟨head, listed, under⟩ := parts around label member
        exact ⟨head, List.mem_cons_of_mem _ (List.mem_append_left _ listed), under⟩
      · obtain ⟨head, -, under⟩ := ih inner label member
        exact ⟨_, List.mem_cons_self, spot.anonymous_under numbered under.goesOn.1⟩
  | member isMember _ ih =>
      obtain ⟨self, inner⟩ := spot.member isMember
      exact ih inner
  | code notMember notType _ ih => exact ih (spot.code notMember notType)

/-- What goes on from a type at another place is named in another way. -/
theorem ne_of_under (named : Named table.package declared around host nodes labels)
    (spot : Spot table body enclosure around host nodes) (numbers : NumbersApart declared all)
    (within : labels ⊆ all) {head other : Label}
    (under : Label.Under table.package around declared body head other) (listed : head ∈ all)
    (elsewhere : ∀ label ∈ labels, head.node.typeSpan ≠ label.node.typeSpan) :
    ∀ label ∈ labels, withoutTypeParameters other.name ≠ withoutTypeParameters label.name := by
  intro label member same
  obtain ⟨head', listed', under'⟩ := named.exists_under spot label member
  exact elsewhere head' listed'
    (under.typeSpan_eq under' same spot.keeps numbers listed (within listed'))

/-- Types at different places have different names, up to their parameters. -/
theorem names_apart (named : Named table.package declared around host nodes labels)
    (spot : Spot table body enclosure around host nodes) (numbers : NumbersApart declared all)
    (within : labels ⊆ all)
    (places : labels.Pairwise fun first second => first.node.typeSpan ≠ second.node.typeSpan) :
    labels.Pairwise fun first second =>
      withoutTypeParameters first.name ≠ withoutTypeParameters second.name := by
  induction named generalizing body enclosure with
  | nil => exact .nil
  | append first rest inFirst inRest =>
      obtain ⟨firstPlaces, restPlaces, across⟩ := List.pairwise_append.mp places
      obtain ⟨firstWithin, restWithin⟩ := List.append_subset.mp within
      have firstSpot := spot.part (List.subset_append_left _ _)
      have restSpot := spot.part (List.subset_append_right _ _)
      refine List.pairwise_append.mpr ⟨inFirst firstSpot firstWithin firstPlaces,
        inRest restSpot restWithin restPlaces, fun label member => ?_⟩
      obtain ⟨head, listed, under⟩ := first.exists_under firstSpot label member
      exact rest.ne_of_under restSpot numbers restWithin under (firstWithin listed) (across head listed)
  | type gives here inside ih =>
      have inner := spot.type gives here
      obtain ⟨-, innerPlaces⟩ := List.pairwise_cons.mp places
      obtain ⟨-, innerWithin⟩ := List.cons_subset.mp within
      refine List.pairwise_cons.mpr ⟨fun label member => ?_, ih inner innerWithin innerPlaces⟩
      obtain ⟨head, -, under⟩ := inside.exists_under inner label member
      exact under.goesOn.2
  | anonymous numbered here parts inside inParts ih =>
      obtain ⟨partsSpot, inner⟩ := spot.anonymous numbered
      obtain ⟨elsewhere, places⟩ := List.pairwise_cons.mp places
      obtain ⟨notInParts, -⟩ := List.forall_mem_append.mp elsewhere
      obtain ⟨partsPlaces, innerPlaces, -⟩ := List.pairwise_append.mp places
      obtain ⟨listed, within⟩ := List.cons_subset.mp within
      obtain ⟨partsWithin, innerWithin⟩ := List.append_subset.mp within
      refine List.pairwise_cons.mpr ⟨List.forall_mem_append.mpr ⟨?_, fun label member => ?_⟩,
        List.pairwise_append.mpr ⟨inParts partsSpot partsWithin partsPlaces,
          ih inner innerWithin innerPlaces, fun label member other otherMember same => ?_⟩⟩
      · exact parts.ne_of_under partsSpot numbers partsWithin (spot.anonymous_under numbered (.refl _))
          listed notInParts
      · obtain ⟨head, -, under⟩ := inside.exists_under inner label member
        exact under.goesOn.2
      · obtain ⟨head, -, under⟩ := inside.exists_under inner other otherMember
        exact parts.ne_of_under partsSpot numbers partsWithin
          (spot.anonymous_under numbered under.goesOn.1) listed notInParts label member same.symm
  | member isMember _ ih =>
      obtain ⟨self, inner⟩ := spot.member isMember
      exact ih inner within places
  | code notMember notType _ ih => exact ih (spot.code notMember notType) within places

end Named

end

end JavaFacts
