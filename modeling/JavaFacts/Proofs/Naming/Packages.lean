import JavaFacts.Naming
import JavaFacts.Proofs.Text.Cut

/-!
Names that tell the package of a type and the class of a method. The names of types that are
declared inside other types are longer than the names of these and tell the same package.
-/

namespace JavaFacts.Naming

def isIdentifierPart (c : Char) : Bool :=
  c.isAlphanum || c == '_' || c == '$' || 128 ≤ c.toNat

/-- Whether a text is an identifier, as far as names depend on it: it has no other characters than
letters, digits, `_`, `$` and those outside of ASCII, and is no keyword for a primitive type. -/
structure IsIdentifier (text : String) : Prop where
  nonempty : text ≠ ""
  parts : ∀ c ∈ text.toList, isIdentifierPart c
  notPrimitive : isPrimitive text = false

/-- Whether a text consists of identifiers and dots. -/
structure IsDotted (text : String) : Prop where
  nonempty : text ≠ ""
  parts : ∀ c ∈ text.toList, isIdentifierPart c ∨ c = '.'

theorem IsIdentifier.free {text : String} (identifier : IsIdentifier text) {c : Char}
    (other : isIdentifierPart c = false) : c ∉ text.toList := fun member => by
  rw [identifier.parts c member] at other
  cases other

theorem IsIdentifier.isDotted {text : String} (identifier : IsIdentifier text) : IsDotted text :=
  ⟨identifier.nonempty, fun c member => .inl (identifier.parts c member)⟩

theorem IsDotted.free {text : String} (dotted : IsDotted text) {c : Char}
    (other : isIdentifierPart c = false) (undotted : c ≠ '.') : c ∉ text.toList := fun member => by
  rcases dotted.parts c member with part | rfl
  · rw [part] at other
    cases other
  · exact undotted rfl

theorem isDotted_joined {segments : List String} (some : segments ≠ [])
    (dotted : ∀ segment ∈ segments, IsDotted segment) : IsDotted (Text.joined "." segments) := by
  induction segments with
  | nil => exact absurd rfl some
  | cons segment segments ih =>
      have first := dotted segment List.mem_cons_self
      cases segments with
      | nil => exact first
      | cons second segments =>
          have rest := ih nofun fun other member => dotted other (List.mem_cons_of_mem _ member)
          rw [Text.joined]
          · constructor
            · exact Text.ne_empty_of_mem (c := '.') (by simp)
            · intro c member
              rw [String.toList_append, String.toList_append, List.mem_append, List.mem_append] at member
              rcases member with (member | member) | member
              · exact first.parts c member
              · exact .inr (List.mem_singleton.mp member)
              · exact rest.parts c member
          · exact nofun

section Cuts

variable {name rest outer simple package : String}

theorem withoutTypeParameters_eq (unmarked : name.toList.head? ≠ some '<') :
    withoutTypeParameters name = Text.upTo (· == '<') name := by
  unfold withoutTypeParameters
  split
  · next same => exact absurd (congrArg List.head? same) unmarked
  · rfl

theorem typeParameterList_eq (parameters : List String) :
    typeParameterList parameters = "" ∨ ∃ inside, typeParameterList parameters = "<" ++ inside := by
  cases parameters with
  | nil => exact .inl rfl
  | cons => exact .inr ⟨_, String.append_assoc⟩

theorem upTo_typeParameterList (parameters : List String) :
    Text.upTo (· == '<') (typeParameterList parameters) = "" := by
  rcases typeParameterList_eq parameters with same | ⟨inside, same⟩ <;> rw [same]
  · rfl
  · exact Text.upTo_mark rfl

theorem not_mem_typeParameterList {c : Char} (other : c ∉ ['<', ',', '>']) {parameters : List String}
    (free : ∀ parameter ∈ parameters, c ∉ parameter.toList) :
    c ∉ (typeParameterList parameters).toList := by
  simp only [List.mem_cons, List.not_mem_nil, or_false, not_or] at other
  obtain ⟨opening, comma, closing⟩ := other
  cases parameters with
  | nil => exact List.not_mem_nil
  | cons =>
      rw [typeParameterList, Text.not_mem_append, Text.not_mem_append]
      · exact ⟨⟨List.not_mem_cons_of_ne_of_not_mem opening List.not_mem_nil,
          Text.not_mem_joined (List.not_mem_cons_of_ne_of_not_mem comma List.not_mem_nil) free⟩,
          List.not_mem_cons_of_ne_of_not_mem closing List.not_mem_nil⟩
      · exact nofun

/-- Whether a type that is declared in the package may have the name. -/
structure DeclaredIn (package name : String) : Prop where
  unmarked : name.toList.head? ≠ some '<'
  plain : '(' ∉ name.toList
  notPrimitive : isPrimitive name = false
  home : (Text.beforeLast? (· == '.') (withoutTypeParameters name)).getD defaultPackage = package

/-- How much of the name of a type counts for where the type may be declared. -/
def nameSize (name : String) : Nat :=
  (withoutTypeParameters name).length

theorem packageOf_eq (unmarked : name.toList.head? ≠ some '<') (notPrimitive : isPrimitive name = false) :
    packageOf name = (Text.beforeLast? (· == '.') (withoutTypeParameters name)).getD defaultPackage := by
  have other {mark : String} (marked : mark.toList.head? = some '<') : (name == mark) = false :=
    beq_eq_false_iff_ne.mpr fun same => unmarked (same ▸ marked)
  rw [packageOf, notPrimitive, other rfl, other rfl]
  rfl

theorem DeclaredIn.packageOf_eq (declared : DeclaredIn package name) : packageOf name = package :=
  (Naming.packageOf_eq declared.unmarked declared.notPrimitive).trans declared.home

theorem DeclaredIn.free_withoutTypeParameters (declared : DeclaredIn package name) :
    '<' ∉ (withoutTypeParameters name).toList := by
  rw [withoutTypeParameters_eq declared.unmarked]
  exact Text.not_mem_upTo

theorem isPrimitive_eq_false {c : Char} (member : c ∈ name.toList)
    (other : ∀ keyword ∈ primitives, c ∉ keyword.toList) : isPrimitive name = false := by
  rw [isPrimitive, ← Bool.not_eq_true, List.contains_iff_mem]
  exact fun primitive => other name primitive member

theorem unmarked_append (rest : String) (nonempty : name ≠ "") (free : '<' ∉ name.toList) :
    (name ++ rest).toList.head? ≠ some '<' := by
  rw [String.toList_append]
  cases characters : name.toList with
  | nil => exact absurd (String.toList_eq_nil_iff.mp characters) nonempty
  | cons first =>
      intro marked
      obtain rfl := Option.some.inj marked
      exact free (characters ▸ List.mem_cons_self)

/-- The parameters of a type are cut off from the name that bears them. -/
theorem withoutTypeParameters_append (nonempty : name ≠ "") (free : '<' ∉ name.toList)
    (parameters : List String) : withoutTypeParameters (name ++ typeParameterList parameters) = name := by
  rw [withoutTypeParameters_eq (unmarked_append _ nonempty free), Text.upTo_append free,
    upTo_typeParameterList, String.append_empty]

theorem IsDotted.withoutTypeParameters (dotted : IsDotted name) (parameters : List String) :
    Naming.withoutTypeParameters (name ++ typeParameterList parameters) = name :=
  withoutTypeParameters_append dotted.nonempty (dotted.free rfl (by decide)) parameters

/-- The name of a type outside of all types. -/
theorem DeclaredIn.outermost (dotted : IsDotted name) (identifier : IsIdentifier simple)
    (parameters : List String) (free : ∀ parameter ∈ parameters, '(' ∉ parameter.toList)
    (qualified : name = simple ∧ package = defaultPackage ∨ name = package ++ "." ++ simple) :
    DeclaredIn package (name ++ typeParameterList parameters) := by
  have unmarked := unmarked_append (typeParameterList parameters) dotted.nonempty
    (dotted.free rfl (by decide))
  refine ⟨unmarked, ?_, ?_, ?_⟩
  · rw [Text.not_mem_append]
    exact ⟨dotted.free rfl (by decide), not_mem_typeParameterList (by decide) free⟩
  · rcases typeParameterList_eq parameters with same | ⟨inside, same⟩
    · rw [same, String.append_empty]
      rcases qualified with ⟨rfl, -⟩ | rfl
      · exact identifier.notPrimitive
      · exact isPrimitive_eq_false (c := '.') (by simp) (by decide)
    · exact isPrimitive_eq_false (c := '<') (by simp [same]) (by decide)
  · rw [withoutTypeParameters_eq unmarked, Text.upTo_append (dotted.free rfl (by decide)),
      upTo_typeParameterList, String.append_empty]
    rcases qualified with ⟨rfl, rfl⟩ | rfl
    · rw [Text.beforeLast?_eq_none (identifier.free rfl)]
      rfl
    · rw [Text.beforeLast?_mark rfl (identifier.free rfl)]
      rfl

/-- The part of a name inside that of another type. -/
structure IsInner (rest : String) : Prop where
  plain : '(' ∉ rest.toList
  undotted : '.' ∉ (Text.upTo (· == '<') rest).toList

theorem withoutTypeParameters_inner (declared : DeclaredIn package outer) (rest : String) :
    (withoutTypeParameters outer ++ "$" ++ rest).toList.head? ≠ some '<' ∧
    withoutTypeParameters (withoutTypeParameters outer ++ "$" ++ rest) =
      withoutTypeParameters outer ++ "$" ++ Text.upTo (· == '<') rest := by
  have free : '<' ∉ (withoutTypeParameters outer ++ "$").toList :=
    Text.not_mem_append.mpr ⟨declared.free_withoutTypeParameters, by decide⟩
  have nonempty : withoutTypeParameters outer ++ "$" ≠ "" :=
    Text.ne_empty_of_mem (c := '$') (by simp)
  have unmarked := unmarked_append rest nonempty free
  exact ⟨unmarked, by rw [withoutTypeParameters_eq unmarked, Text.upTo_append free]⟩

/-- A name that goes on behind the name of a type around it. -/
theorem DeclaredIn.inner (declared : DeclaredIn package outer) (inner : IsInner rest) :
    DeclaredIn package (withoutTypeParameters outer ++ "$" ++ rest) ∧
      nameSize outer < nameSize (withoutTypeParameters outer ++ "$" ++ rest) := by
  obtain ⟨unmarked, stripped⟩ := withoutTypeParameters_inner declared rest
  refine ⟨⟨unmarked, ?_, ?_, ?_⟩, ?_⟩
  · rw [Text.not_mem_append, Text.not_mem_append, withoutTypeParameters_eq declared.unmarked]
    exact ⟨⟨fun member => declared.plain (Text.mem_of_mem_upTo member), by decide⟩, inner.plain⟩
  · exact isPrimitive_eq_false (c := '$') (by simp) (by decide)
  · rw [stripped, Text.beforeLast?_append inner.undotted, Text.beforeLast?_append (by decide)]
    exact declared.home
  · rw [nameSize, nameSize, stripped, String.length_append, String.length_append]
    have one : "$".length = 1 := rfl
    omega

theorem isInner_of_free (plain : '(' ∉ rest.toList) (undotted : '.' ∉ rest.toList) : IsInner rest :=
  ⟨plain, fun member => undotted (Text.mem_of_mem_upTo member)⟩

/-- A simple name with type parameters, maybe behind a number. -/
theorem IsInner.of_parts {front : String} (plain : '(' ∉ front.toList) (undotted : '.' ∉ front.toList)
    (unmarked : '<' ∉ front.toList) (identifier : IsIdentifier simple) {parameters : List String}
    (free : ∀ parameter ∈ parameters, '(' ∉ parameter.toList) :
    IsInner (front ++ (simple ++ typeParameterList parameters)) := by
  constructor
  · rw [Text.not_mem_append, Text.not_mem_append]
    exact ⟨plain, identifier.free rfl, not_mem_typeParameterList (by decide) free⟩
  · rw [Text.upTo_append unmarked, Text.upTo_append (identifier.free rfl), upTo_typeParameterList,
      String.append_empty, Text.not_mem_append]
    exact ⟨undotted, identifier.free rfl⟩

theorem not_mem_toString {c : Char} (other : c.isDigit = false) (number : Nat) :
    c ∉ (toString number).toList := fun member => by
  rw [Text.isDigit_of_mem_toString member] at other
  cases other

/-- Class of a method of that name. -/
def classOf (methodName : String) : String :=
  (Text.beforeLast? (· == '.') (Text.upTo (· == '(') methodName)).getD ""

theorem classOf_eq {type inside : String} (plain : '(' ∉ type.toList) (plainSimple : '(' ∉ simple.toList)
    (undotted : '.' ∉ simple.toList) : classOf (type ++ "." ++ simple ++ "(" ++ inside) = type := by
  have free : '(' ∉ (type ++ "." ++ simple).toList := by
    rw [Text.not_mem_append, Text.not_mem_append]
    exact ⟨⟨plain, by decide⟩, plainSimple⟩
  rw [classOf, String.append_assoc, Text.upTo_append free, Text.upTo_mark rfl, String.append_empty,
    Text.beforeLast?_mark rfl undotted]
  rfl

theorem classOf_methodName {type : String} (plain : '(' ∉ type.toList) {isConstructor : Bool}
    (identifier : isConstructor = false → IsIdentifier name) (parameterTypes : List String) :
    classOf (methodName type name isConstructor parameterTypes) = type := by
  have free : '(' ∉ (if isConstructor then constructorMarker else name).toList ∧
      '.' ∉ (if isConstructor then constructorMarker else name).toList := by
    cases isConstructor with
    | true => rw [if_pos rfl]; decide
    | false => exact ⟨(identifier rfl).free rfl, (identifier rfl).free rfl⟩
  rw [methodName, String.append_assoc]
  exact classOf_eq plain free.1 free.2

theorem classOf_initializerName {type marker : String} (plain : '(' ∉ type.toList)
    (marked : marker ∈ [instanceInitializer, staticInitializer]) :
    classOf (initializerName type marker) = type := by
  have free : '(' ∉ marker.toList ∧ '.' ∉ marker.toList := by
    revert marker
    decide
  have opened : initializerName type marker = type ++ "." ++ marker ++ "(" ++ ")" := by
    rw [String.append_assoc]
    rfl
  rw [opened]
  exact classOf_eq plain free.1 free.2

end Cuts

end JavaFacts.Naming
