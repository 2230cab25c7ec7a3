import JavaFacts.Lowering.TypeTable
import JavaFacts.Tree.Node

/-!
The shape of lowered trees. Types stand outside of all others, among the members of a type or in
code; members stand directly in the body of a type, and all other statements and expressions in code
inside a member. What a type is bound to depends on where it stands.
-/

namespace JavaFacts

/-- What is directly around a node: nothing, the body of a type, or code in one. `self` is the
binding of that type, if the file can name it. -/
inductive Enclosure where
  | outside
  | body (self : Option TypeBinding)
  | code (self : Option TypeBinding)

namespace Enclosure

/-- What `this` is there. -/
def self : Enclosure → Option TypeBinding
  | outside => none
  | body self | code self => self

/-- Binding of a type that is declared there. Types in code have none. -/
def declared? (table : TypeTable) (name : String) : Enclosure → Option TypeBinding
  | outside => table.binding? (table.qualify name)
  | body self => do table.binding? (TypeTable.memberName (← self).name name)
  | code _ => none

end Enclosure

namespace Node

/-- Whether a node has its place in code; types are not counted. -/
def isCode : Node → Bool
  | type .. | method .. | fields .. | initializer .. | creation _ _ _ _ _ (some _) => false
  | _ => true

/-- What is known about the target of a call. -/
def target? : Node → Option MethodBinding
  | call _ header .. | superCall _ header .. => header.binding
  | ownConstructor _ binding _ | superConstructor _ binding .. | creation _ _ binding .. => binding
  | _ => none

/-- What lowering makes of a tree. All names that declarations give are `spelled` in that way. -/
inductive Shaped (table : TypeTable) (spelled : String → Prop) : Enclosure → Node → Prop where
  | type {around : Enclosure} {span : Span} {header : TypeHeader} {body : List Node} :
      spelled header.name → (∀ parameter ∈ header.typeParameters, spelled parameter) →
      header.binding = around.declared? table header.name →
      (∀ node ∈ body, Shaped table spelled (.body header.binding) node) →
      Shaped table spelled around (.type span header body)
  | method {self : Option TypeBinding} {span : Span} {header : MethodHeader} {body : Option Node} :
      (header.isConstructor = false → spelled header.name) →
      (∀ node ∈ body, Shaped table spelled (.code self) node) →
      Shaped table spelled (.body self) (.method span header body)
  | fields {self : Option TypeBinding} {span : Span} {header : VariablesHeader}
      {declared : List DeclaredVariable} :
      (∀ node ∈ declared.filterMap (·.initializer?), Shaped table spelled (.code self) node) →
      Shaped table spelled (.body self) (.fields span header declared)
  | initializer {self : Option TypeBinding} {span : Span} {isStatic : Bool} {body : Node} :
      Shaped table spelled (.code self) body →
      Shaped table spelled (.body self) (.initializer span isStatic body)
  /-- An anonymous class has no binding, so its members cannot name it. -/
  | anonymous {self : Option TypeBinding} {span place : Span} {created : TypeUse}
      {receiver : Option Node} {arguments body : List Node} :
      (∀ node ∈ receiver, Shaped table spelled (.code self) node) →
      (∀ node ∈ arguments, Shaped table spelled (.code self) node) →
      (∀ node ∈ body, Shaped table spelled (.body none) node) →
      Shaped table spelled (.code self)
        (.creation span created none receiver arguments (some (.mk place none body)))
  | code {self : Option TypeBinding} {node : Node} :
      node.isCode → node.target? = none →
      (∀ child ∈ node.children, Shaped table spelled (.code self) child) →
      Shaped table spelled (.code self) node

namespace Shaped

variable {table : TypeTable} {spelled : String → Prop} {around : Enclosure} {span : Span}

theorem of_isCode {node : Node} (shaped : node.Shaped table spelled around) (isCode : node.isCode) :
    around = .code around.self ∧
      ∀ child ∈ node.children, child.Shaped table spelled (.code around.self) := by
  cases shaped with
  | code _ _ inside => exact ⟨rfl, inside⟩
  | _ => cases isCode

theorem of_type {header : TypeHeader} {body : List Node}
    (shaped : (Node.type span header body).Shaped table spelled around) :
    header.binding = around.declared? table header.name ∧
      ∀ node ∈ body, node.Shaped table spelled (.body header.binding) := by
  cases shaped with
  | type _ _ bound inside => exact ⟨bound, inside⟩
  | code isCode => cases isCode

theorem of_method {header : MethodHeader} {body : Option Node}
    (shaped : (Node.method span header body).Shaped table spelled around) :
    around = .body around.self ∧
      ∀ node ∈ body.toList, node.Shaped table spelled (.code around.self) := by
  cases shaped with
  | method _ inside => exact ⟨rfl, fun node member => inside node (Option.mem_toList.mp member)⟩
  | code isCode => cases isCode

theorem of_fields {header : VariablesHeader} {declared : List DeclaredVariable}
    (shaped : (Node.fields span header declared).Shaped table spelled around) :
    around = .body around.self ∧ ∀ node ∈ declared.filterMap (·.initializer?),
      node.Shaped table spelled (.code around.self) := by
  cases shaped with
  | fields inside => exact ⟨rfl, inside⟩
  | code isCode => cases isCode

theorem of_initializer {isStatic : Bool} {body : Node}
    (shaped : (Node.initializer span isStatic body).Shaped table spelled around) :
    around = .body around.self ∧ body.Shaped table spelled (.code around.self) := by
  cases shaped with
  | initializer inside => exact ⟨rfl, inside⟩
  | code isCode => cases isCode

theorem of_anonymous {place : Span} {created : TypeUse} {target : Option MethodBinding}
    {binding : Option TypeBinding} {receiver : Option Node} {arguments body : List Node}
    (shaped : (creation span created target receiver arguments
      (some (.mk place binding body))).Shaped table spelled around) :
    around = .code around.self ∧
      (∀ node ∈ receiver.toList ++ arguments, node.Shaped table spelled (.code around.self)) ∧
      ∀ node ∈ body, node.Shaped table spelled (.body none) := by
  cases shaped with
  | anonymous first given inside =>
      refine ⟨rfl, List.forall_mem_append.mpr ⟨fun node member => ?_, given⟩, inside⟩
      exact first node (Option.mem_toList.mp member)
  | code isCode => cases isCode

end Shaped

end Node

end JavaFacts
