import JavaFacts.Proofs.Naming.Packages
import JavaFacts.Proofs.Text.Lists

/-!
Names of methods tell the methods apart. A name puts together the class, the simple name and the
parameter types, and whatever names the types have, all three can be read off again.
-/

namespace JavaFacts

open Naming (IsIdentifier IsDotted)

/-- A written type is spelled with identifiers. Type arguments do not show in its name. -/
def WrittenType.IsSpelled : WrittenType → Prop
  | .primitive name | .simple name | .qualified name => IsDotted name
  | .array element _ => element.IsSpelled
  | .parameterized base _ => base.IsSpelled
  | .wildcard => True
termination_by structural type => type

/-- A binding, as far as it bears names, is spelled with identifiers. -/
inductive TypeBinding.IsSpelled : TypeBinding → Prop where
  | spelled {binding : TypeBinding} :
      (binding.name = "" ∨ IsDotted binding.name) →
      (∀ parameter ∈ binding.typeParameters, IsIdentifier parameter) →
      (∀ element, binding.element = some element → element.IsSpelled) →
      (∀ bound, binding.bound = some bound → bound.IsSpelled) → binding.IsSpelled

namespace Naming

/-- A name that can stand in front of a list in parentheses and in such a list. -/
structure IsName (name : String) : Prop extends Text.IsItem name where
  plain : '(' ∉ name.toList

namespace IsName

variable {name : String}

theorem append {rest : String} (front : IsName name) (closed : Text.nesting rest.toList 0 = some 0)
    (plain : '(' ∉ rest.toList) : IsName (name ++ rest) :=
  ⟨front.toIsItem.append closed, Text.not_mem_append.mpr ⟨front.plain, plain⟩⟩

theorem ofDotted (dotted : IsDotted name) : IsName name where
  nonempty := dotted.nonempty
  closed := Text.nesting_of_free (dotted.free rfl (by decide)) (dotted.free rfl (by decide))
    fun _ => dotted.free rfl (by decide)
  plain := dotted.free rfl (by decide)

theorem undefined : IsName undefined := ⟨⟨by decide, rfl⟩, by decide⟩

theorem arrayMarker : IsName arrayMarker := ⟨⟨by decide, rfl⟩, by decide⟩

theorem objectName : IsName objectName := ⟨⟨by decide, rfl⟩, by decide⟩

theorem appendBracketed (front : IsName name) {items : List String}
    (identifiers : ∀ item ∈ items, ∀ c ∈ item.toList, c ∉ ['<', '>', '(']) :
    IsName (name ++ ("<" ++ Text.joined "," items ++ ">")) := by
  have free (c : Char) (listed : c ∈ ['<', '>', '(']) : ∀ item ∈ items, c ∉ item.toList :=
    fun item member inside => identifiers item member c inside listed
  refine front.append (Text.nesting_bracketed (free '<' (by decide)) (free '>' (by decide))) ?_
  rw [Text.not_mem_append, Text.not_mem_append]
  exact ⟨⟨by decide, Text.not_mem_joined (by decide) (free '(' (by decide))⟩, by decide⟩

theorem appendTypeParameters (front : IsName name) {parameters : List String}
    (identifiers : ∀ parameter ∈ parameters, IsIdentifier parameter) :
    IsName (name ++ typeParameterList parameters) := by
  unfold typeParameterList
  split
  · rwa [String.append_empty]
  · refine front.appendBracketed fun item member c inside listed => ?_
    have other : isIdentifierPart c = false := by
      simp only [List.mem_cons, List.not_mem_nil, or_false] at listed
      rcases listed with rfl | rfl | rfl <;> rfl
    exact (identifiers item member).free other inside

theorem array (element : IsName name) (dimensions : Nat) : IsName (arrayName name dimensions) := by
  refine element.append (Text.nesting_of_free ?_ ?_ fun _ => ?_) ?_ <;>
    exact Text.not_mem_repeated (by decide) dimensions

end IsName

theorem isName_bindingName {binding : TypeBinding} (spelled : binding.IsSpelled) {name : String}
    (named : bindingName? binding = some name) : IsName name := by
  induction spelled generalizing name with
  | @spelled binding dotted parameters _ _ _ bounds =>
      rcases binding with ⟨kind, own, typeParameters, isAnonymous, element, dimensions, bound⟩
      have filled (given : own.isEmpty = false) : IsName own :=
        .ofDotted (dotted.resolve_left fun empty => by rw [show own = "" from empty] at given; cases given)
      cases kind with
      | array =>
          cases named
          exact .arrayMarker
      | typeVariable =>
          cases bound with
          | none =>
              cases named
              exact .objectName
          | some bound =>
              rw [bindingName?] at named
              cases named
              cases found : bindingName? bound with
              | none => exact .objectName
              | some name => exact bounds bound rfl found
      | primitive | null =>
          rw [bindingName?] at named
          split at named
          · cases named
          · rename_i given
            cases named
            exact filled (Bool.not_eq_true _ ▸ given)
      | ofClass | interface | enumeration =>
          rw [bindingName?] at named
          · split at named
            · cases named
            · rename_i given
              cases named
              rw [Bool.not_eq_true, Bool.or_eq_false_iff] at given
              exact (filled given.1).appendTypeParameters parameters
          all_goals exact nofun

theorem isName_writtenName : ∀ {written : WrittenType}, written.IsSpelled → IsName (writtenName written)
  | .primitive _, spelled | .qualified _, spelled => .ofDotted spelled
  | .array _ _, _ => .arrayMarker
  | .simple name, spelled => by
      rw [writtenName]
      exact IsName.append ⟨⟨by decide, rfl⟩, by decide⟩ (IsName.ofDotted spelled).closed
        (IsName.ofDotted spelled).plain
  | .parameterized base arguments, spelled => by
      have together : writtenName (.parameterized base arguments) = writtenName base ++
          ("<" ++ Text.joined "," (arguments.map fun _ => "?") ++ ">") := by
        rw [writtenName]
        simp only [String.append_assoc]
      have front : base.IsSpelled := spelled
      rw [together]
      refine (isName_writtenName front).appendBracketed fun item member c inside => ?_
      obtain ⟨_, -, rfl⟩ := List.mem_map.mp member
      rw [List.mem_singleton.mp inside]
      decide
  | .wildcard, _ => .undefined

theorem isName_writtenSignature {written : Option WrittenType}
    (spelled : ∀ type, written = some type → type.IsSpelled) : IsName (writtenSignature written) := by
  unfold writtenSignature
  split
  · rename_i element dimensions
    have inside : element.IsSpelled := spelled (.array element dimensions) rfl
    exact (isName_writtenName inside).array dimensions
  · rename_i type _
    exact isName_writtenName (spelled type rfl)
  · exact .undefined

theorem isName_signatureName {binding : Option TypeBinding} {written : Option WrittenType}
    (spelled : ∀ type, binding = some type → type.IsSpelled)
    (writtenSpelled : ∀ type, written = some type → type.IsSpelled) :
    IsName (signatureName binding written) := by
  have signature := isName_writtenSignature writtenSpelled
  cases binding with
  | none => exact signature
  | some type =>
      obtain ⟨-, -, elements, -⟩ := spelled type rfl
      simp only [signatureName]
      split
      · refine IsName.array ?_ type.dimensions
        cases found : type.element.bind bindingName? with
        | some name =>
            obtain ⟨inside, given, named⟩ := Option.bind_eq_some_iff.mp found
            exact isName_bindingName (elements inside given) named
        | none =>
            rw [Option.getD_none]
            split
            · rename_i element dimensions
              have inside : element.IsSpelled := writtenSpelled (.array element dimensions) rfl
              exact isName_writtenName inside
            · exact .undefined
      · cases found : bindingName? type with
        | none => exact signature
        | some name => exact isName_bindingName (spelled type rfl) found

/-- The names that types get, on their own or in the signature of a method. -/
inductive IsTypeName : String → Prop where
  | ofBinding {binding : TypeBinding} {name : String} :
      binding.IsSpelled → bindingName? binding = some name → IsTypeName name
  | ofWritten {written : WrittenType} : written.IsSpelled → IsTypeName (writtenName written)
  | ofUse {binding : Option TypeBinding} {written : Option WrittenType} :
      (∀ type, binding = some type → type.IsSpelled) →
      (∀ type, written = some type → type.IsSpelled) → IsTypeName (signatureName binding written)

theorem IsTypeName.isName {name : String} (typed : IsTypeName name) : IsName name := by
  cases typed with
  | ofBinding spelled found => exact isName_bindingName spelled found
  | ofWritten spelled => exact isName_writtenName spelled
  | ofUse spelled writtenSpelled => exact isName_signatureName spelled writtenSpelled

structure MethodParts where
  type : String
  name : String
  isConstructor : Bool
  parameterTypes : List String

namespace MethodParts

def uniqueName (parts : MethodParts) : String :=
  methodName parts.type parts.name parts.isConstructor parts.parameterTypes

/-- The name that stands for the method in its unique name. -/
def simple (parts : MethodParts) : String :=
  if parts.isConstructor then constructorMarker else parts.name

structure IsSpelled (parts : MethodParts) : Prop where
  type : IsTypeName parts.type
  name : parts.isConstructor = false → IsIdentifier parts.name
  parameterTypes : ∀ parameter ∈ parts.parameterTypes, IsTypeName parameter

variable {parts other : MethodParts}

theorem IsSpelled.free (spelled : parts.IsSpelled) {c : Char} (mark : c = '(' ∨ c = '.') :
    c ∉ parts.simple.toList := by
  unfold simple
  cases kind : parts.isConstructor with
  | true =>
      rw [if_pos rfl]
      rcases mark with rfl | rfl <;> decide
  | false =>
      rw [if_neg Bool.false_ne_true]
      rcases mark with rfl | rfl <;> exact (spelled.name kind).free rfl

/-- A class, a simple name and what follows in parentheses can be told apart. -/
theorem eq_of_cut {type simple inside otherType otherSimple otherInside : String}
    (free : '(' ∉ type.toList ∧ '(' ∉ simple.toList ∧ '.' ∉ simple.toList)
    (otherFree : '(' ∉ otherType.toList ∧ '(' ∉ otherSimple.toList ∧ '.' ∉ otherSimple.toList)
    (same : type ++ "." ++ simple ++ "(" ++ inside =
      otherType ++ "." ++ otherSimple ++ "(" ++ otherInside) :
    type = otherType ∧ simple = otherSimple ∧ inside = otherInside := by
  have types : type = otherType := by
    rw [← classOf_eq free.1 free.2.1 free.2.2, same, classOf_eq otherFree.1 otherFree.2.1 otherFree.2.2]
  subst types
  simp only [String.append_assoc, String.append_right_inj] at same
  have simples : simple = otherSimple := by
    have cut := congrArg (Text.upTo (· == '(')) same
    rwa [Text.upTo_append free.2.1, Text.upTo_append otherFree.2.1, Text.upTo_mark rfl,
      Text.upTo_mark rfl, String.append_empty, String.append_empty] at cut
  subst simples
  rw [String.append_right_inj, String.append_right_inj] at same
  exact ⟨rfl, rfl, same⟩

theorem simple_injective (spelled : parts.IsSpelled) (otherSpelled : other.IsSpelled)
    (same : parts.simple = other.simple) : parts.isConstructor = other.isConstructor ∧
      (parts.isConstructor = false → parts.name = other.name) := by
  have marked {name : String} (identifier : IsIdentifier name) : constructorMarker ≠ name :=
    fun equal => identifier.free (c := '<') rfl (equal ▸ by decide)
  unfold simple at same
  cases kind : parts.isConstructor <;> cases otherKind : other.isConstructor <;>
    rw [kind, otherKind] at same
  · exact ⟨rfl, fun _ => same⟩
  · exact absurd same.symm (marked (spelled.name kind))
  · exact absurd same (marked (otherSpelled.name otherKind))
  · exact ⟨rfl, nofun⟩

end MethodParts

/-- The unique name of a method or constructor tells its class, whether it is a constructor, its
simple name and its parameter types, and no host of initializers bears the name. -/
theorem MethodParts.uniqueName_is_faithful {parts : MethodParts} (spelled : parts.IsSpelled) :
    (∀ other : MethodParts, other.IsSpelled → parts.uniqueName = other.uniqueName →
      parts.type = other.type ∧ parts.isConstructor = other.isConstructor ∧
        (parts.isConstructor = false → parts.name = other.name) ∧
        parts.parameterTypes = other.parameterTypes) ∧
      ∀ type marker, IsTypeName type → marker ∈ [instanceInitializer, staticInitializer] →
        parts.uniqueName ≠ initializerName type marker := by
  have free {parts : MethodParts} (spelled : parts.IsSpelled) : '(' ∉ parts.type.toList ∧
      '(' ∉ parts.simple.toList ∧ '.' ∉ parts.simple.toList :=
    ⟨spelled.type.isName.plain, spelled.free (.inl rfl), spelled.free (.inr rfl)⟩
  have cut (parts : MethodParts) : parts.uniqueName = parts.type ++ "." ++ parts.simple ++ "(" ++
      (Text.joined "," parts.parameterTypes ++ ")") := by
    simp only [uniqueName, methodName, simple, String.append_assoc]
  constructor
  · intro other otherSpelled same
    rw [cut, cut] at same
    obtain ⟨types, simples, inside⟩ := eq_of_cut (free spelled) (free otherSpelled) same
    obtain ⟨kinds, names⟩ := simple_injective spelled otherSpelled simples
    refine ⟨types, kinds, names, Text.joined_injective ?_ ?_ (String.append_left_inj _ |>.mp inside)⟩
    · exact fun parameter member => (spelled.parameterTypes parameter member).isName.toIsItem
    · exact fun parameter member => (otherSpelled.parameterTypes parameter member).isName.toIsItem
  · intro type marker typed marked same
    have host : initializerName type marker = type ++ "." ++ marker ++ "(" ++ ")" := by
      rw [String.append_assoc]
      rfl
    have markerFree : ∀ marker ∈ [instanceInitializer, staticInitializer],
        '(' ∉ marker.toList ∧ '.' ∉ marker.toList ∧ '<' ∈ marker.toList ∧
          marker ≠ constructorMarker := by decide
    obtain ⟨plain, undotted, bracket, other⟩ := markerFree marker marked
    rw [cut, host] at same
    obtain ⟨-, simples, -⟩ := eq_of_cut (free spelled) ⟨typed.isName.plain, plain, undotted⟩ same
    unfold simple at simples
    cases kind : parts.isConstructor with
    | true =>
        rw [kind, if_pos rfl] at simples
        exact other simples.symm
    | false =>
        rw [kind, if_neg Bool.false_ne_true] at simples
        exact (spelled.name kind).free (c := '<') rfl (simples ▸ bracket)

/-- Two overloads with a generic parameter and an array each. -/
theorem MethodParts.uniqueName_is_faithful_of_overloads :
    let map : TypeBinding := { TypeBinding.named .interface "Map" with typeParameters := ["K"] }
    let ints (dimensions : Nat) : TypeBinding := .array (.primitive "int") dimensions
    let put (dimensions : Nat) : MethodParts :=
      ⟨"B", "put", false, [signatureName (some map) none, signatureName (some (ints dimensions)) none]⟩
    (put 1).IsSpelled ∧ (put 2).IsSpelled ∧ (put 1).uniqueName ≠ (put 2).uniqueName := by
  intro map ints put
  have identifier {name : String} (listed : name ∈ ["K", "put", "Map", "B"]) : IsIdentifier name := by
    revert name
    simp only [List.mem_cons, List.not_mem_nil, or_false, forall_eq_or_imp, forall_eq]
    exact ⟨⟨by decide, List.all_eq_true.mp rfl, rfl⟩, ⟨by decide, List.all_eq_true.mp rfl, rfl⟩,
      ⟨by decide, List.all_eq_true.mp rfl, rfl⟩, by decide, List.all_eq_true.mp rfl, rfl⟩
  have mapSpelled : map.IsSpelled :=
    .spelled (.inr (identifier (by decide)).isDotted)
      (List.forall_mem_singleton.mpr (identifier (by decide))) nofun nofun
  have intSpelled : (TypeBinding.primitive "int").IsSpelled :=
    .spelled (.inr ⟨by decide, fun c member => .inl (List.all_eq_true.mp rfl c member)⟩)
      (fun _ => (nomatch ·)) nofun nofun
  have intsSpelled (dimensions : Nat) : (ints dimensions).IsSpelled :=
    .spelled (.inl rfl) (fun _ => (nomatch ·))
      (fun element given => Option.some.inj given ▸ intSpelled) nofun
  have spelled (dimensions : Nat) : (put dimensions).IsSpelled := by
    have own : (WrittenType.qualified "B").IsSpelled := (identifier (by decide)).isDotted
    have simple : IsIdentifier "put" := identifier (by decide)
    refine ⟨.ofWritten own, fun _ => simple, ?_⟩
    refine List.forall_mem_cons.mpr ⟨?_, List.forall_mem_singleton.mpr ?_⟩
    · exact .ofUse (fun type given => Option.some.inj given ▸ mapSpelled) nofun
    · exact .ofUse (fun type given => Option.some.inj given ▸ intsSpelled dimensions) nofun
  refine ⟨spelled 1, spelled 2, fun same => ?_⟩
  obtain ⟨-, -, -, parameters⟩ := (uniqueName_is_faithful (spelled 1)).1 _ (spelled 2) same
  revert parameters
  decide

end Naming

end JavaFacts
