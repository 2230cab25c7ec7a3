import JavaFacts.Proofs.Extraction.Attribution
import JavaFacts.Proofs.Outline.Trace
import Mathlib.Logic.Function.Basic

/-!
The types of a tree under the names that a walk gives them. A class without a name of its own gets a
number, and one table holds the next number for each type. Here the table is followed along the types
in the order of the source; that the walk meets them in this order is shown elsewhere.
-/

namespace JavaFacts

namespace Node

/-- Whether a node gives rise to a type. -/
def makesType (node : Node) : Bool :=
  node.isType || node.isAnonymousCreation

/-- What is known about the anonymous class that a node creates. -/
def bodyBinding? : Node → Option TypeBinding
  | creation _ _ _ _ _ (some anonymous) => anonymous.binding
  | _ => none

/-- Where the type of a node is declared. -/
def typeSpan : Node → Span
  | creation _ _ _ _ _ (some anonymous) => anonymous.span
  | node => node.span

end Node

/-- A node that gives rise to a type, the name of the innermost type around it and that of its type. -/
structure Label where
  node : Node
  around : Option String
  name : String

/-- Whether the label is that of an anonymous class that is created directly in a type. -/
def Label.isCreatedIn (type : String) (label : Label) : Bool :=
  label.node.isAnonymousCreation && label.around == some type

/-- Which labels the types of a tree bear, in the order of the source. A type is declared where its
node stands, an anonymous class where its body does. Receiver and arguments of a creation are not part
of the class that it creates. -/
inductive Labelled (declared : String → Span → Prop) :
    (around : Option String) → List Node → List Label → Prop where
  | nil {around : Option String} : Labelled declared around [] []
  | append {around : Option String} {nodes nodes' : List Node} {labels labels' : List Label} :
      Labelled declared around nodes labels → Labelled declared around nodes' labels' →
      Labelled declared around (nodes ++ nodes') (labels ++ labels')
  | type {around : Option String} {span : Span} {header : TypeHeader} {body : List Node}
      {name : String} {labels : List Label} :
      declared name span → Labelled declared (some name) body labels →
      Labelled declared around [.type span header body] (⟨.type span header body, around, name⟩ :: labels)
  | anonymous {around : Option String} {span bodySpan : Span} {created : TypeUse}
      {binding : Option MethodBinding} {bodyBinding : Option TypeBinding} {receiver : Option Node}
      {arguments body : List Node} {name : String} {labels labels' : List Label} :
      declared name bodySpan → Labelled declared around (receiver.toList ++ arguments) labels →
      Labelled declared (some name) body labels' →
      Labelled declared around
        [.creation span created binding receiver arguments (some (.mk bodySpan bodyBinding body))]
        (⟨.creation span created binding receiver arguments (some (.mk bodySpan bodyBinding body)),
          around, name⟩ :: (labels ++ labels'))
  | other {around : Option String} {node : Node} {labels : List Label} :
      node.makesType = false → Labelled declared around node.children labels →
      Labelled declared around [node] labels

/-- How a type gets its name, given the names of the innermost type around it and of the type whose
method, or initializer, is innermost. It is numbered if the two are one type. -/
def TypeHeader.naming (header : TypeHeader) (package around host : Option String) : TypeNaming :=
  match header.binding.bind Naming.bindingName? with
  | some name => .given name
  | none =>
      let simple := header.name ++ Naming.typeParameterList header.typeParameters
      match around with
      | none =>
          match package with
          | some package => .given (if package.isEmpty then simple else package ++ "." ++ simple)
          | none => .given simple
      | some type =>
          let outer := Naming.withoutTypeParameters type
          if host = some type then .numbered outer simple else .given (outer ++ "$" ++ simple)

/-- How the labels of a tree come about, given the names of the innermost type around it and of the
type whose method is innermost. Members bring code into the type that they are declared in. -/
inductive Named (package : Option String) (declared : TypeNaming → String → Span → Prop) :
    (around host : Option String) → List Node → List Label → Prop where
  | nil {around host : Option String} : Named package declared around host [] []
  | append {around host : Option String} {nodes nodes' : List Node} {labels labels' : List Label} :
      Named package declared around host nodes labels →
      Named package declared around host nodes' labels' →
      Named package declared around host (nodes ++ nodes') (labels ++ labels')
  | type {around host : Option String} {span : Span} {header : TypeHeader} {body : List Node}
      {name : String} {labels : List Label} :
      (header.naming package around host).Gives name →
      declared (header.naming package around host) name span →
      Named package declared (some name) host body labels →
      Named package declared around host [.type span header body]
        (⟨.type span header body, around, name⟩ :: labels)
  | anonymous {around host : Option String} {span bodySpan : Span} {created : TypeUse}
      {binding : Option MethodBinding} {bodyBinding : Option TypeBinding} {receiver : Option Node}
      {arguments body : List Node} {name : String} {labels labels' : List Label} :
      (bodyBinding.bind Naming.bindingName? = none →
        ∃ type ordinal, around = some type ∧ name = Naming.anonymousName type ordinal) →
      declared (.given name) name bodySpan →
      Named package declared around host (receiver.toList ++ arguments) labels →
      Named package declared (some name) host body labels' →
      Named package declared around host
        [.creation span created binding receiver arguments (some (.mk bodySpan bodyBinding body))]
        (⟨.creation span created binding receiver arguments (some (.mk bodySpan bodyBinding body)),
          around, name⟩ :: (labels ++ labels'))
  | member {around host : Option String} {node : Node} {labels : List Label} :
      node.isMember → Named package declared around around node.children labels →
      Named package declared around host [node] labels
  | code {around host : Option String} {node : Node} {labels : List Label} :
      node.isMember = false → node.makesType = false →
      Named package declared around host node.children labels →
      Named package declared around host [node] labels

theorem Node.makesType_of_isMember {node : Node} (isMember : node.isMember) : node.makesType = false := by
  cases node <;> first | rfl | cases isMember

namespace Named

variable {package around host : Option String} {declared declared' : TypeNaming → String → Span → Prop}
  {nodes : List Node} {labels : List Label}

theorem imp (named : Named package declared around host nodes labels)
    (still : ∀ naming name span, declared naming name span → declared' naming name span) :
    Named package declared' around host nodes labels := by
  induction named with
  | nil => exact .nil
  | append _ _ first rest => exact .append first rest
  | type gives here _ ih => exact .type gives (still _ _ _ here) ih
  | anonymous numbered here _ _ parts body => exact .anonymous numbered (still _ _ _ here) parts body
  | member isMember _ ih => exact .member isMember ih
  | code notMember notType _ ih => exact .code notMember notType ih

theorem labelled {known : String → Span → Prop} (named : Named package declared around host nodes labels)
    (knows : ∀ naming name span, declared naming name span → known name span) :
    Labelled known around nodes labels := by
  induction named with
  | nil => exact .nil
  | append _ _ first rest => exact .append first rest
  | type _ here _ ih => exact .type (knows _ _ _ here) ih
  | anonymous _ here _ _ parts body => exact .anonymous (knows _ _ _ here) parts body
  | member isMember _ ih => exact .other (Node.makesType_of_isMember isMember) ih
  | code _ notType _ ih => exact .other notType ih

end Named

namespace Labelled

variable {declared : String → Span → Prop} {around : Option String} {nodes : List Node}
  {labels : List Label}

/-- Each node that gives rise to a type bears one label, in the order of the source. -/
theorem map_node (labelled : Labelled declared around nodes labels) :
    labels.map (·.node) = (nodes.flatMap Node.nodes).filter (·.makesType) := by
  have single (node : Node) : ([node].flatMap Node.nodes).filter (·.makesType) =
      (if node.makesType then [node] else []) ++
        (node.children.flatMap Node.nodes).filter (·.makesType) := by
    rw [List.flatMap_singleton, Node.nodes_eq, List.filter_cons]
    split <;> rfl
  induction labelled with
  | nil => rfl
  | append _ _ first rest =>
      rw [List.map_append, first, rest, List.flatMap_append, List.filter_append]
  | type _ _ ih => rw [single, List.map_cons, ih]; rfl
  | anonymous _ _ _ parts body =>
      rw [single, List.map_cons, List.map_append, parts, body, ← List.filter_append,
        ← List.flatMap_append]
      rfl
  | other notType _ ih => rw [single, notType, if_neg Bool.false_ne_true, ih, List.nil_append]

end Labelled

theorem Named.map_node {package around host : Option String}
    {declared : TypeNaming → String → Span → Prop} {nodes : List Node} {labels : List Label}
    (named : Named package declared around host nodes labels) :
    labels.map (·.node) = (nodes.flatMap Node.nodes).filter (·.makesType) :=
  have labelled : Labelled (fun _ _ => True) around nodes labels := named.labelled fun _ _ _ _ => trivial
  labelled.map_node

/-- How the table of the next numbers changes along labels. The number for a type is taken by the next
class that is created directly in it, whether the class needs it or has a name of its own. -/
inductive Counting : (counts : String → Nat) → List Label → (after : String → Nat) → Prop where
  | nil {counts : String → Nat} : Counting counts [] counts
  | declared {counts after : String → Nat} {label : Label} {labels : List Label} :
      label.node.isAnonymousCreation = false → Counting counts labels after →
      Counting counts (label :: labels) after
  | created {counts after : String → Nat} {label : Label} {labels : List Label} {type : String} :
      label.node.isAnonymousCreation → label.around = some type →
      label.name = (label.node.bodyBinding?.bind Naming.bindingName?).getD
        (Naming.anonymousName type (counts type)) →
      Counting (Function.update counts type (counts type + 1)) labels after →
      Counting counts (label :: labels) after

namespace Counting

variable {counts between after : String → Nat} {labels others : List Label}

theorem append (first : Counting counts labels between) (rest : Counting between others after) :
    Counting counts (labels ++ others) after := by
  induction first with
  | nil => exact rest
  | declared named _ ih => exact .declared named (ih rest)
  | created creates around named _ ih => exact .created creates around named (ih rest)

/-- The classes without names of their own that are created directly in a type get the numbers from the
one in the table on, in order and without a gap. -/
theorem map_name (counting : Counting counts labels after)
    (unbound : ∀ label ∈ labels, label.node.bodyBinding? = none) (type : String) :
    let created := labels.filter (·.isCreatedIn type)
    created.map (·.name) =
      (List.range' (counts type) created.length).map (Naming.anonymousName type) := by
  induction counting with
  | nil => rfl
  | @declared _ _ label _ named _ ih =>
      have skipped : label.isCreatedIn type = false := by simp [Label.isCreatedIn, named]
      simpa [skipped] using ih (List.forall_mem_cons.mp unbound).2
  | @created counts _ label labels outer creates around named _ ih =>
      obtain ⟨free, others⟩ := List.forall_mem_cons.mp unbound
      have name : label.name = Naming.anonymousName outer (counts outer) := by
        rw [named, free]
        rfl
      have rest := ih others
      by_cases same : outer = type
      · subst same
        have here : label.isCreatedIn outer := by simp [Label.isCreatedIn, creates, around]
        rw [Function.update_self] at rest
        simp [here, List.range'_succ, name, rest]
      · have elsewhere : label.isCreatedIn type = false := by
          simp [Label.isCreatedIn, around, same]
        rw [Function.update_of_ne (Ne.symm same)] at rest
        simp [elsewhere, rest]

end Counting

end JavaFacts
