import JavaFacts.Facts.Entity
import JavaFacts.Proofs.Naming.Methods

/-!
The last segment of a name. That of a method, a field or a variable is the simple name that its name
was built from, whatever the parameter types of a method are. That of a type is the last segment of
its name without type parameters, unless a bracket comes first.
-/

namespace JavaFacts

open Naming (constructorMarker instanceInitializer staticInitializer)

namespace Naming

/-- A name that can be a segment of the names of methods and variables. -/
structure IsSegment (name : String) : Prop where
  undotted : '.' ∉ name.toList
  plain : '(' ∉ name.toList
  unnumbered : '#' ∉ name.toList

theorem isSegment_marker {marker : String}
    (marked : marker ∈ [constructorMarker, instanceInitializer, staticInitializer]) :
    IsSegment marker := by
  simp only [List.mem_cons, List.not_mem_nil, or_false] at marked
  rcases marked with rfl | rfl | rfl <;> exact ⟨by decide, by decide, by decide⟩

end Naming

open Naming (IsSegment)

variable {around name : String}

theorem afterLast_dot (undotted : '.' ∉ name.toList) :
    Text.afterLast (· == '.') (around ++ "." ++ name) = name :=
  Text.afterLast_mark rfl rfl fun _ member =>
    beq_eq_false_iff_ne.mpr (ne_of_mem_of_not_mem member undotted)

/-- Whatever the list of parameter types holds comes off with the bracket that opens it. -/
theorem simpleName_of_signature (plain : '(' ∉ around.toList) (segment : IsSegment name)
    (inside : String) : simpleName .method (around ++ "." ++ name ++ "(" ++ inside) = name := by
  have front : '(' ∉ (around ++ "." ++ name).toList := by
    rw [Text.not_mem_append, Text.not_mem_append]
    exact ⟨⟨plain, by decide⟩, segment.plain⟩
  rw [simpleName, String.append_assoc, Text.upTo_append front, Text.upTo_mark rfl, String.append_empty,
    afterLast_dot segment.undotted]

theorem simpleName_methodName (plain : '(' ∉ around.toList) (segment : IsSegment name)
    (isConstructor : Bool) (parameterTypes : List String) :
    simpleName .method (Naming.methodName around name isConstructor parameterTypes) =
      if isConstructor then constructorMarker else name := by
  have chosen : IsSegment (if isConstructor then constructorMarker else name) := by
    split
    · exact Naming.isSegment_marker (by decide)
    · exact segment
  rw [Naming.methodName, String.append_assoc]
  exact simpleName_of_signature plain chosen _

theorem simpleName_initializerName (plain : '(' ∉ around.toList) {marker : String}
    (segment : IsSegment marker) : simpleName .method (Naming.initializerName around marker) = marker := by
  have signature : Naming.initializerName around marker = around ++ "." ++ marker ++ "(" ++ ")" := by
    rw [String.append_assoc]
    rfl
  rw [signature, simpleName_of_signature plain segment]

theorem simpleName_fieldName (segment : IsSegment name) :
    simpleName .field (Naming.fieldName around name) = name :=
  afterLast_dot segment.undotted

theorem simpleName_parameter (segment : IsSegment name) :
    simpleName .parameter (around ++ "." ++ name) = name :=
  afterLast_dot segment.undotted

namespace Naming

/-- Whether a name starts with the bracket of a marker. -/
def IsMarked (name : String) : Prop :=
  name.toList.head? = some '<'

/-- The part of the name of a type behind the types and packages around it. -/
def lastSegment (typeName : String) : String :=
  Text.afterLast (fun c => c == '.' || c == '$') (withoutTypeParameters typeName)

end Naming

open Naming (IsMarked lastSegment)

theorem simpleName_of_unmarked (unmarked : ¬IsMarked name) : simpleName .type name = lastSegment name := by
  rw [simpleName, lastSegment, Naming.withoutTypeParameters_eq unmarked]

theorem simpleName_of_marked (marked : IsMarked name) : simpleName .type name = "" := by
  obtain ⟨rest, text⟩ := List.head?_eq_some_iff.mp marked
  have nothing : Text.upTo (· == '<') name = "" := by
    apply String.ext
    rw [Text.toList_upTo, text]
    rfl
  rw [simpleName, nothing]
  rfl

/-- Whether the name of a written type starts with a bracket: the package of a simple name is unknown,
and arrays and wildcards are named by a marker. -/
def WrittenType.isMarked : WrittenType → Bool
  | .primitive _ | .qualified _ => false
  | .array _ _ | .simple _ | .wildcard => true
  | .parameterized base _ => base.isMarked
termination_by structural type => type

theorem isMarked_append (nonempty : name ≠ "") (rest : String) :
    IsMarked (name ++ rest) ↔ IsMarked name := by
  rw [IsMarked, IsMarked, String.toList_append]
  cases characters : name.toList with
  | nil => exact absurd (String.toList_eq_nil_iff.mp characters) nonempty
  | cons first others => rfl

theorem not_isMarked_of_isDotted (dotted : Naming.IsDotted name) : ¬IsMarked name := fun marked =>
  (dotted.free rfl (by decide) : '<' ∉ name.toList) (List.mem_of_mem_head? marked)

theorem isMarked_writtenName : ∀ {written : WrittenType}, written.IsSpelled →
    (IsMarked (Naming.writtenName written) ↔ written.isMarked)
  | .primitive _, spelled | .qualified _, spelled => by
      simp [Naming.writtenName, WrittenType.isMarked, not_isMarked_of_isDotted spelled]
  | .array _ _, _ => iff_of_true (rfl : IsMarked Naming.arrayMarker) rfl
  | .wildcard, _ => iff_of_true (rfl : IsMarked Naming.undefined) rfl
  | .simple name, _ =>
      iff_of_true ((isMarked_append (by decide) name).mpr (rfl : IsMarked Naming.undefinedQualifier)) rfl
  | .parameterized base arguments, spelled => by
      have front : base.IsSpelled := spelled
      rw [Naming.writtenName, String.append_assoc, String.append_assoc,
        isMarked_append (Naming.isName_writtenName front).nonempty]
      exact isMarked_writtenName front

/-- Of the names that bindings give, only that of arrays starts with a bracket. -/
theorem isMarked_bindingName {binding : TypeBinding} (spelled : binding.IsSpelled)
    (named : Naming.bindingName? binding = some name) :
    IsMarked name ↔ name = Naming.arrayMarker := by
  refine ⟨fun marked => ?_, fun same => same ▸ rfl⟩
  induction spelled generalizing name with
  | @spelled binding dotted _ _ _ _ bounds =>
      rcases binding with ⟨kind, own, typeParameters, isAnonymous, element, dimensions, bound⟩
      have unmarked (given : own.isEmpty = false) : own ≠ "" ∧ ¬IsMarked own := by
        have filled : own ≠ "" := by rintro rfl; cases given
        exact ⟨filled, not_isMarked_of_isDotted (dotted.resolve_left filled)⟩
      cases kind with
      | array => exact (Option.some.inj named).symm
      | typeVariable =>
          cases bound with
          | none =>
              cases named
              cases marked
          | some bound =>
              rw [Naming.bindingName?] at named
              cases named
              cases found : Naming.bindingName? bound with
              | none =>
                  rw [found] at marked
                  cases marked
              | some name =>
                  rw [found] at marked
                  exact bounds bound rfl found marked
      | primitive | null =>
          rw [Naming.bindingName?] at named
          split at named
          · cases named
          · rename_i given
            cases named
            exact absurd marked (unmarked (Bool.not_eq_true _ ▸ given)).2
      | ofClass | interface | enumeration =>
          rw [Naming.bindingName?] at named
          · split at named
            · cases named
            · rename_i given
              cases named
              rw [Bool.not_eq_true, Bool.or_eq_false_iff] at given
              obtain ⟨filled, plain⟩ := unmarked given.1
              exact absurd ((isMarked_append filled _).mp marked) plain
          all_goals
            intros
            contradiction

/-- A type whose package is unknown still has a last segment: the name that is written. -/
theorem lastSegment_of_simple (undotted : '.' ∉ name.toList) (outermost : '$' ∉ name.toList) :
    lastSegment (Naming.writtenName (.simple name)) = name := by
  have apart : Naming.writtenName (.simple name) = "<undef>" ++ "." ++ name := rfl
  have whole : Naming.withoutTypeParameters ("<undef>" ++ "." ++ name) = "<undef>" ++ "." ++ name := by
    rw [Naming.withoutTypeParameters, String.toList_append, String.toList_append]
    rfl
  rw [apart, lastSegment, whole]
  refine Text.afterLast_mark rfl rfl fun other member => ?_
  rw [Bool.or_eq_false_iff, beq_eq_false_iff_ne, beq_eq_false_iff_ne]
  exact ⟨ne_of_mem_of_not_mem member undotted, ne_of_mem_of_not_mem member outermost⟩

/-- The last segment of the name of a type comes out empty for the names that start with a bracket:
those of arrays and of types of which no more than a simple name or nothing is written. For every other
name it is the segment behind the last separator of the name without its type parameters, which is
empty if nothing stands behind that separator. -/
theorem simpleName_of_type :
    (∀ name, IsMarked name → simpleName .type name = "") ∧
    (∀ name, ¬IsMarked name → simpleName .type name = lastSegment name) ∧
    (∀ name, lastSegment name = "" ↔ Naming.withoutTypeParameters name = "" ∨
      Text.endsIn (fun c => c == '.' || c == '$') (Naming.withoutTypeParameters name)) ∧
    (∀ binding : TypeBinding, binding.IsSpelled → ∀ name, Naming.bindingName? binding = some name →
      (IsMarked name ↔ name = Naming.arrayMarker)) ∧
    ∀ written : WrittenType, written.IsSpelled →
      (IsMarked (Naming.writtenName written) ↔ written.isMarked) :=
  ⟨fun _ => simpleName_of_marked, fun _ => simpleName_of_unmarked, fun _ => Text.afterLast_eq_empty_iff,
    fun _ spelled _ => isMarked_bindingName spelled, fun _ => isMarked_writtenName⟩

end JavaFacts
