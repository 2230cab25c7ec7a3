import JavaFacts.Proofs.Lowering.DeclaredTypes
import JavaFacts.Proofs.Lowering.Tree
import JavaFacts.Proofs.Outline.Parts

/-!
The parts of a lowered tree. Types have the bindings that the table of the file has for them, nothing
is known about the targets of calls, and methods and types are named by identifiers.
-/

namespace JavaFacts

open Naming (IsIdentifier)

namespace Around

/-- What `this` is where a type is around a place. -/
def Has (self : Option TypeBinding) : Around → Prop
  | outside | anonymous => self = none
  | named header => header.binding = self

/-- Whether a type declared there under a simple name has the binary name. -/
def Declares (table : TypeTable) (simple name : String) : Around → Prop
  | outside => name = table.qualify simple
  | named header => ∃ own, header.binding = some own ∧ own.IsDeclared ∧
      name = TypeTable.memberName own.name simple
  | anonymous => False

/-- What is around a part where a node stands. -/
def Suits (around : Around) : Enclosure → Prop
  | .outside => around = .outside
  | .body self | .code self => around.Has self ∧ ∀ own, self = some own → own.IsDeclared

end Around

/-- Whether lowering a tree of the grammar may lead to the part. -/
def Part.IsLowered (table : TypeTable) : Part → Prop
  | type around header => IsIdentifier header.name ∧
      (∀ parameter ∈ header.typeParameters, IsIdentifier parameter) ∧
      ∀ binding, header.binding = some binding →
        binding.IsDeclared ∧ around.Declares table header.name binding.name
  | anonymousClass binding => binding = none
  | method header => header.isConstructor = false → IsIdentifier header.name
  | call binding => binding = none
  | field _ | localVariable _ => True

/-- In trees of the grammar the names of types and methods are identifiers. -/
theorem Spelling.grammatical (source : SourceText) :
    Spelling source IsIdentifier (Concrete.Grammatical source) where
  child grammatical _ member := grammatical.child member
  name grammatical kind :=
    SourceText.isIdentifier_childText (fun _ => grammatical.child) (grammatical.fits.named kind)
  typeParameters grammatical :=
    TypeTable.isIdentifier_typeParameterNames fun _ => grammatical.child

namespace Node

variable {around : Around} {part : Part}

theorem mem_partsAll {nodes : List Node} (member : part ∈ partsAll around nodes) :
    ∃ node ∈ nodes, part ∈ parts around node := by
  induction nodes with
  | nil => cases member
  | cons node nodes ih =>
      rw [partsAll, List.mem_append] at member
      rcases member with here | there
      · exact ⟨node, List.mem_cons_self, here⟩
      · obtain ⟨other, listed, inside⟩ := ih there
        exact ⟨other, List.mem_cons_of_mem _ listed, inside⟩

theorem mem_partsOption {node : Option Node} (member : part ∈ partsOption around node) :
    ∃ found ∈ node, part ∈ parts around found := by
  cases node with
  | none => cases member
  | some node => exact ⟨node, rfl, member⟩

theorem mem_partsVariables {named : String → Part} {declared : List DeclaredVariable}
    (member : part ∈ partsVariables around named declared) :
    (∃ name, part = named name) ∨
      ∃ node ∈ declared.filterMap (·.initializer?), part ∈ parts around node := by
  induction declared with
  | nil => cases member
  | cons first declared ih =>
      obtain ⟨declarator, initializer⟩ := first
      have values : (DeclaredVariable.mk declarator initializer :: declared).filterMap
          (·.initializer?) = initializer.toList ++ declared.filterMap (·.initializer?) := by
        cases initializer <;> rfl
      rw [partsVariables] at member
      rw [values]
      rcases List.mem_cons.mp member with rfl | member
      · exact .inl ⟨_, rfl⟩
      · rcases List.mem_append.mp member with here | there
        · obtain ⟨node, found, inside⟩ := mem_partsOption here
          exact .inr ⟨node, List.mem_append_left _ (Option.mem_toList.mpr found), inside⟩
        · exact (ih there).imp_right fun ⟨node, listed, inside⟩ =>
            ⟨node, List.mem_append_right _ listed, inside⟩

/-- A statement or expression tells the target of a call or names variables; its other parts are
those inside it. -/
theorem mem_parts_of_isCode {node : Node} (code : node.isCode) (member : part ∈ node.parts around) :
    part = .call node.target? ∨ (∃ name, part = .localVariable name) ∨
      ∃ child ∈ node.children, part ∈ child.parts around := by
  have inside {receiver : Option Node} {arguments : List Node}
      (member : part ∈ partsOption around receiver ++ partsAll around arguments) :
      ∃ child ∈ receiver.toList ++ arguments, part ∈ child.parts around := by
    rcases List.mem_append.mp member with here | there
    · obtain ⟨child, found, inside⟩ := mem_partsOption here
      exact ⟨child, List.mem_append_left _ (Option.mem_toList.mpr found), inside⟩
    · obtain ⟨child, listed, inside⟩ := mem_partsAll there
      exact ⟨child, List.mem_append_right _ listed, inside⟩
  cases node with
  | type | method | fields | initializer => cases code
  | block => exact .inr (.inr (mem_partsAll member))
  | locals => exact .inr (mem_partsVariables member)
  | call | superConstructor => exact (List.mem_cons.mp member).imp_right fun rest => .inr (inside rest)
  | superCall | ownConstructor =>
      exact (List.mem_cons.mp member).imp_right fun rest => .inr (mem_partsAll rest)
  | creation _ _ _ receiver arguments anonymous =>
      cases anonymous with
      | some anonymous => cases code
      | none =>
          refine (List.mem_cons.mp member).imp_right fun rest => .inr ?_
          obtain ⟨child, listed, within⟩ := inside rest
          exact ⟨child, List.mem_append_left _ listed, within⟩
  | field | qualified | cast | instanceCheck =>
      exact .inr (.inr ⟨_, List.mem_singleton_self _, member⟩)
  | superField | simple | this => cases member
  | expression _ _ declares children =>
      rcases List.mem_append.mp member with here | there
      · obtain ⟨declared, -, rfl⟩ := Option.map_eq_some_iff.mp (Option.mem_toList.mp here)
        exact .inr (.inl ⟨_, rfl⟩)
      · exact .inr (.inr (mem_partsAll there))

variable {table : TypeTable}

/-- A type has the binding that the table has for its name, and that is one of the file. -/
theorem isDeclared_of_declared? (named : table.IsNamed) {enclosure : Enclosure} {name : String}
    {binding : TypeBinding} (found : enclosure.declared? table name = some binding) :
    binding.IsDeclared := by
  cases enclosure with
  | outside => exact (named _ _ found).2
  | body self =>
      obtain ⟨own, -, found⟩ := Option.bind_eq_some_iff.mp found
      exact (named _ _ found).2
  | code self => cases found

theorem declares_of_declared? (named : table.IsNamed) {enclosure : Enclosure}
    (suits : around.Suits enclosure) {name : String} {binding : TypeBinding}
    (found : enclosure.declared? table name = some binding) :
    around.Declares table name binding.name := by
  cases enclosure with
  | outside =>
      obtain rfl : around = .outside := suits
      exact (named _ _ found).1
  | body self =>
      obtain ⟨own, rfl, found⟩ := Option.bind_eq_some_iff.mp found
      obtain ⟨has, declared⟩ := suits
      cases around with
      | outside | anonymous => cases has
      | named header => exact ⟨own, has, declared own rfl, (named _ _ found).1⟩
  | code self => cases found

theorem Shaped.isLowered (named : table.IsNamed) {enclosure : Enclosure} {node : Node}
    (shaped : node.Shaped table IsIdentifier enclosure) (suits : around.Suits enclosure) :
    ∀ part ∈ node.parts around, part.IsLowered table := by
  induction shaped generalizing around with
  | type name typeParameters bound _ ih =>
      refine List.forall_mem_cons.mpr ⟨⟨name, typeParameters, fun binding known => ?_⟩, ?_⟩
      · have found := bound.symm.trans known
        exact ⟨isDeclared_of_declared? named found, declares_of_declared? named suits found⟩
      · intro part member
        obtain ⟨node, listed, inside⟩ := mem_partsAll member
        have within : (Around.named _).Suits (.body _) :=
          ⟨rfl, fun own known => isDeclared_of_declared? named (bound.symm.trans known)⟩
        exact ih node listed within part inside
  | method name _ ih =>
      refine List.forall_mem_cons.mpr ⟨name, fun part member => ?_⟩
      obtain ⟨node, found, inside⟩ := mem_partsOption member
      exact ih node found suits part inside
  | fields _ ih =>
      intro part member
      rcases mem_partsVariables member with ⟨name, rfl⟩ | ⟨node, listed, inside⟩
      · trivial
      · exact ih node listed suits part inside
  | initializer _ ih => exact ih suits
  | anonymous _ _ _ first given members =>
      refine List.forall_mem_cons.mpr ⟨rfl, fun part member => ?_⟩
      rcases List.mem_append.mp member with outer | inner
      · rcases List.mem_append.mp outer with here | there
        · obtain ⟨node, found, inside⟩ := mem_partsOption here
          exact first node found suits part inside
        · obtain ⟨node, listed, inside⟩ := mem_partsAll there
          exact given node listed suits part inside
      · obtain ⟨node, listed, inside⟩ := mem_partsAll inner
        have within : Around.anonymous.Suits (.body none) := ⟨rfl, nofun⟩
        exact members node listed within part inside
  | code isCode unbound _ ih =>
      intro part member
      rcases mem_parts_of_isCode isCode member with rfl | ⟨name, rfl⟩ | ⟨child, listed, inside⟩
      · exact unbound
      · trivial
      · exact ih child listed suits part inside

end Node

end JavaFacts
