import JavaFacts.Naming
import JavaFacts.Proofs.Text.Cut
import Mathlib.Algebra.GroupWithZero.Nat

/-!
Names of array types. However the levels of an array come about, in its binding or in its written form,
they add up; outside of signatures all arrays have one name, and in a signature an array is told by the
name of its element and by the number of its levels.
-/

namespace JavaFacts

namespace TypeBinding

variable {element : TypeBinding}

theorem isArray_array (element : TypeBinding) (dimensions : Nat) :
    (element.array dimensions).isArray := by
  unfold array
  split <;> rfl

theorem array_of_plain (plain : element.isArray = false) (dimensions : Nat) :
    element.array dimensions = { named .array "" with element := some element, dimensions } := by
  unfold array
  split
  · rename_i same
    rw [isArray, same] at plain
    cases plain
  · rfl

theorem array_array (element : TypeBinding) (first second : Nat) :
    (element.array first).array second = element.array (first + second) := by
  cases plain : element.isArray with
  | false =>
      rw [array_of_plain plain, array_of_plain plain]
      simp only [array, named, Option.getD_some, Nat.add_comm]
  | true =>
      have kind : element.kind = .array := eq_of_beq plain
      simp only [array, kind, named, Option.getD_some, Nat.add_comm, Nat.add_left_comm]

/-- The binding of an array that is built in several steps. -/
def arrays (element : TypeBinding) (steps : List Nat) : TypeBinding :=
  steps.foldl array element

theorem arrays_eq (element : TypeBinding) {steps : List Nat} (some : steps ≠ []) :
    element.arrays steps = element.array steps.sum := by
  cases steps with
  | nil => contradiction
  | cons first steps =>
      clear some
      rw [arrays, List.foldl_cons]
      induction steps generalizing first with
      | nil => rfl
      | cons second steps ih =>
          rw [List.foldl_cons, array_array, ih, List.sum_cons, List.sum_cons, List.sum_cons, Nat.add_assoc]

end TypeBinding

namespace WrittenType

/-- Whether the type is written as an array. -/
def isArray : WrittenType → Bool
  | .array _ _ => true
  | _ => false

theorem withDimensions_zero (type : WrittenType) : type.withDimensions 0 = type := by
  unfold withDimensions
  rfl

theorem withDimensions_of_plain {element : WrittenType} (plain : element.isArray = false)
    {dimensions : Nat} (positive : 0 < dimensions) :
    element.withDimensions dimensions = .array element dimensions := by
  cases dimensions with
  | zero => cases positive
  | succ dimensions => cases element <;> first | rfl | cases plain

theorem withDimensions_withDimensions (type : WrittenType) (first second : Nat) :
    (type.withDimensions first).withDimensions second = type.withDimensions (first + second) := by
  cases first with
  | zero => rw [withDimensions_zero, Nat.zero_add]
  | succ first =>
      cases second with
      | zero => rw [withDimensions_zero, Nat.add_zero]
      | succ second =>
          rw [← Nat.add_assoc]
          cases type <;> simp only [withDimensions, WrittenType.array.injEq, true_and] <;> omega

/-- The written form of a type with levels that are added in several steps. -/
def arrays (element : WrittenType) (steps : List Nat) : WrittenType :=
  steps.foldl (fun type step => type.withDimensions step) element

theorem arrays_eq (element : WrittenType) (steps : List Nat) :
    element.arrays steps = element.withDimensions steps.sum := by
  rw [arrays]
  induction steps generalizing element with
  | nil => exact (withDimensions_zero element).symm
  | cons step steps ih => rw [List.foldl_cons, ih, withDimensions_withDimensions, List.sum_cons]

end WrittenType

namespace TypeUse

theorem written_withDimensions (use : TypeUse) (dimensions : Nat) :
    (use.withDimensions dimensions).written = use.written.withDimensions dimensions := by
  cases dimensions with
  | zero => exact (WrittenType.withDimensions_zero use.written).symm
  | succ dimensions => rfl

theorem binding_withDimensions (use : TypeUse) {dimensions : Nat} (positive : 0 < dimensions) :
    (use.withDimensions dimensions).binding = use.binding.map (TypeBinding.array · dimensions) := by
  cases dimensions with
  | zero => cases positive
  | succ dimensions => rfl

theorem withDimensions_withDimensions (use : TypeUse) (first second : Nat) :
    (use.withDimensions first).withDimensions second = use.withDimensions (first + second) := by
  cases first with
  | zero =>
      rw [Nat.zero_add]
      rfl
  | succ first =>
      cases second with
      | zero => rfl
      | succ second =>
          have written := use.written.withDimensions_withDimensions (first + 1) (second + 1)
          have binding (type : TypeBinding) := type.array_array (first + 1) (second + 1)
          rw [← Nat.add_assoc] at written binding ⊢
          simp only [withDimensions, written, Option.map_map, Function.comp_def, binding]

/-- The use of a type with levels that are added in several steps. -/
def arrays (element : TypeUse) (steps : List Nat) : TypeUse :=
  steps.foldl (fun use step => use.withDimensions step) element

theorem arrays_eq (element : TypeUse) (steps : List Nat) :
    element.arrays steps = element.withDimensions steps.sum := by
  rw [arrays]
  induction steps generalizing element with
  | nil => rfl
  | cons step steps ih => rw [List.foldl_cons, ih, withDimensions_withDimensions, List.sum_cons]

end TypeUse

/-- Steps in which the levels of an array are added, at least one level each time. -/
structure AreLevels (steps : List Nat) : Prop where
  nonempty : steps ≠ []
  positive : ∀ step ∈ steps, 0 < step

theorem AreLevels.sum_pos {steps : List Nat} (levels : AreLevels steps) : 0 < steps.sum := by
  obtain ⟨first, rest, rfl⟩ := List.exists_cons_of_ne_nil levels.nonempty
  rw [List.sum_cons]
  exact Nat.add_pos_left (levels.positive first List.mem_cons_self) _

theorem WrittenType.arrays_of_plain {element : WrittenType} (plain : element.isArray = false)
    {steps : List Nat} (levels : AreLevels steps) : element.arrays steps = .array element steps.sum := by
  rw [arrays_eq, withDimensions_of_plain plain levels.sum_pos]

theorem TypeBinding.arrays_of_plain {element : TypeBinding} (plain : element.isArray = false)
    {steps : List Nat} (levels : AreLevels steps) :
    element.arrays steps = { named .array "" with element := some element, dimensions := steps.sum } := by
  rw [arrays_eq element levels.nonempty, array_of_plain plain]

namespace Text

theorem length_repeated (piece : String) (count : Nat) :
    (repeated piece count).length = count * piece.length := by
  induction count with
  | zero => rw [repeated, Nat.zero_mul, String.length_empty]
  | succ count ih => rw [repeated, String.length_append, ih, Nat.succ_mul, Nat.add_comm]

theorem upTo_repeated_brackets (count : Nat) : upTo (· == '[') (repeated "[]" count) = "" := by
  cases count with
  | zero => rfl
  | succ count =>
      have split : repeated "[]" (count + 1) = "[" ++ ("]" ++ repeated "[]" count) := by
        rw [repeated, ← String.append_assoc]
        rfl
      rw [split, upTo_mark rfl]

end Text

namespace Naming

/-- The element and the number of levels can be read off the name of an array. -/
theorem arrayName_injective {element other : String} {dimensions otherDimensions : Nat}
    (free : '[' ∉ element.toList) (otherFree : '[' ∉ other.toList)
    (same : arrayName element dimensions = arrayName other otherDimensions) :
    element = other ∧ dimensions = otherDimensions := by
  rw [arrayName, arrayName] at same
  have elements := congrArg (Text.upTo (· == '[')) same
  rw [Text.upTo_append free, Text.upTo_append otherFree, Text.upTo_repeated_brackets,
    Text.upTo_repeated_brackets, String.append_empty, String.append_empty] at elements
  subst elements
  have lengths := congrArg String.length ((String.append_right_inj element).mp same)
  rw [Text.length_repeated, Text.length_repeated] at lengths
  exact ⟨rfl, Nat.eq_of_mul_eq_mul_right (by decide) lengths⟩

theorem mem_arrayName (element : String) {dimensions : Nat} (positive : 0 < dimensions) :
    '[' ∈ (arrayName element dimensions).toList := by
  obtain ⟨more, rfl⟩ := Nat.exists_eq_add_one.mpr positive
  rw [arrayName, Text.repeated, String.toList_append, String.toList_append]
  exact List.mem_append_right _ (List.mem_append_left _ (by decide))

/-- The binding and the written form of an array, with the name of its element and the number of its
levels. A binding of an array settles the levels, and it names the element, or else the written
form does if it is that of an array. Without a usable binding the written form settles both. -/
inductive IsArrayType : Option TypeBinding → Option WrittenType → String → Nat → Prop where
  | bound {element : TypeBinding} {steps : List Nat} {name : String} (written : Option WrittenType) :
      element.isArray = false → AreLevels steps → bindingName? element = some name →
      IsArrayType (some (element.arrays steps)) written name steps.sum
  | unnamed {element : TypeBinding} {steps : List Nat} {written : WrittenType} {others : List Nat} :
      element.isArray = false → AreLevels steps → bindingName? element = none →
      written.isArray = false → AreLevels others →
      IsArrayType (some (element.arrays steps)) (some (written.arrays others)) (writtenName written)
        steps.sum
  | unknown {element : TypeBinding} {steps : List Nat} {written : Option WrittenType} :
      element.isArray = false → AreLevels steps → bindingName? element = none →
      (∀ type, written = some type → type.isArray = false) →
      IsArrayType (some (element.arrays steps)) written undefined steps.sum
  | written {binding : Option TypeBinding} {element : WrittenType} {steps : List Nat} :
      binding.bind bindingName? = none → element.isArray = false → AreLevels steps →
      IsArrayType binding (some (element.arrays steps)) (writtenName element) steps.sum

/-- A binding that names no type is not that of an array. -/
theorem isArray_of_bindingName?_eq_none {binding : TypeBinding} (unusable : bindingName? binding = none) :
    binding.isArray = false := by
  rcases binding with ⟨kind, name, parameters, isAnonymous, element, dimensions, bound⟩
  cases kind with
  | array => cases unusable
  | _ => rfl

theorem signatureName_arrays {element : TypeBinding} (plain : element.isArray = false) {steps : List Nat}
    (levels : AreLevels steps) (written : Option WrittenType) :
    signatureName (some (element.arrays steps)) written =
      arrayName ((bindingName? element).getD (match written with
        | some (.array element _) => writtenName element
        | _ => undefined)) steps.sum := by
  rw [TypeBinding.arrays_of_plain plain levels]
  rfl

namespace IsArrayType

variable {binding : Option TypeBinding} {written : Option WrittenType} {name : String} {dimensions : Nat}

theorem positive (array : IsArrayType binding written name dimensions) : 0 < dimensions := by
  cases array with
  | bound _ _ levels _ => exact levels.sum_pos
  | unnamed _ levels _ _ _ => exact levels.sum_pos
  | unknown _ levels _ _ => exact levels.sum_pos
  | written _ _ levels => exact levels.sum_pos

theorem typeName (array : IsArrayType binding written name dimensions) :
    Naming.typeName binding written = arrayMarker := by
  have marked {element : TypeBinding} {steps : List Nat} (plain : element.isArray = false)
      (levels : AreLevels steps) (written : Option WrittenType) :
      Naming.typeName (some (element.arrays steps)) written = arrayMarker := by
    rw [TypeBinding.arrays_of_plain plain levels]
    rfl
  cases array with
  | bound _ plain levels _ => exact marked plain levels _
  | unnamed plain levels _ _ _ => exact marked plain levels _
  | unknown plain levels _ _ => exact marked plain levels _
  | written unusable plain levels =>
      rw [Naming.typeName, unusable, WrittenType.arrays_of_plain plain levels]
      rfl

theorem signatureName (array : IsArrayType binding written name dimensions) :
    Naming.signatureName binding written = arrayName name dimensions := by
  cases array with
  | bound written plain levels named => rw [signatureName_arrays plain levels, named, Option.getD_some]
  | unnamed plain levels unusable writtenPlain others =>
      rw [signatureName_arrays plain levels, unusable, WrittenType.arrays_of_plain writtenPlain others]
      rfl
  | unknown plain levels unusable flat =>
      rw [signatureName_arrays plain levels, unusable, Option.getD_none]
      split
      · rename_i element own
        cases flat (.array element own) rfl
      · rfl
  | @written binding element steps unusable plain levels =>
      have signature : writtenSignature (some (element.arrays steps)) =
          arrayName (writtenName element) steps.sum := by
        rw [WrittenType.arrays_of_plain plain levels]
        rfl
      cases binding with
      | none => exact signature
      | some type =>
          rw [Option.bind_some] at unusable
          simp only [Naming.signatureName, isArray_of_bindingName?_eq_none unusable, Bool.false_eq_true,
            ↓reduceIte, unusable, Option.getD_none]
          exact signature

end IsArrayType

/-- A type that is an array neither by its binding nor by its written form has one name. -/
theorem signatureName_of_plain {binding : Option TypeBinding} {written : Option WrittenType}
    (plain : ∀ type, binding = some type → type.isArray = false)
    (writtenPlain : ∀ type, written = some type → type.isArray = false) :
    signatureName binding written = typeName binding written := by
  have signature : writtenSignature written = (written.map writtenName).getD undefined := by
    cases written with
    | none => rfl
    | some type =>
        have flat := writtenPlain type rfl
        cases type with
        | array => cases flat
        | _ => rfl
  cases binding with
  | none => exact signature
  | some type =>
      simp only [signatureName, typeName, plain type rfl, Bool.false_eq_true, ↓reduceIte, Option.bind_some]
      cases bindingName? type with
      | some name => rfl
      | none => exact signature

/-- Arrays are told apart in signatures only. Outside of them every array has the one name of arrays. In
a signature an array has the name of its element with a pair of brackets for each level, which is
never that one name, and two arrays get the same signature exactly when their elements have the
same name and their levels are as many. A type that is no array is named alike in both places. -/
theorem arrays_are_told_by_element_and_levels {binding other : Option TypeBinding}
    {written otherWritten : Option WrittenType} {name otherName : String}
    {dimensions otherDimensions : Nat} (array : IsArrayType binding written name dimensions)
    (second : IsArrayType other otherWritten otherName otherDimensions) :
    typeName binding written = arrayMarker ∧
      signatureName binding written = name ++ Text.repeated "[]" dimensions ∧
      signatureName binding written ≠ arrayMarker ∧
      ('[' ∉ name.toList → '[' ∉ otherName.toList →
        (signatureName binding written = signatureName other otherWritten ↔
          name = otherName ∧ dimensions = otherDimensions)) ∧
      ∀ {plain : Option TypeBinding} {plainWritten : Option WrittenType},
        (∀ type, plain = some type → type.isArray = false) →
        (∀ type, plainWritten = some type → type.isArray = false) →
        signatureName plain plainWritten = typeName plain plainWritten := by
  refine ⟨array.typeName, array.signatureName, fun marked => ?_, fun free otherFree => ⟨fun same => ?_, ?_⟩,
    signatureName_of_plain⟩
  · have brackets := mem_arrayName name array.positive
    rw [← array.signatureName, marked] at brackets
    exact absurd brackets (by decide)
  · rw [array.signatureName, second.signatureName] at same
    exact arrayName_injective free otherFree same
  · rintro ⟨rfl, rfl⟩
    rw [array.signatureName, second.signatureName]

/-- An array of arrays by its binding and an array of two levels by its written form. -/
theorem arrays_are_told_by_element_and_levels_of_steps :
    let bound := (TypeBinding.primitive "int").arrays [1, 1]
    let written := (WrittenType.primitive "int").arrays [2]
    typeName (some bound) none = arrayMarker ∧ signatureName (some bound) none = "int[][]" ∧
      signatureName (some bound) none = signatureName none (some written) := by
  intro bound written
  have array : IsArrayType (some bound) none "int" 2 :=
    .bound none rfl ⟨List.cons_ne_nil _ _, by decide⟩ (by decide)
  have second : IsArrayType none (some written) "int" 2 :=
    .written rfl rfl ⟨List.cons_ne_nil _ _, by decide⟩
  obtain ⟨marked, signature, -, same, -⟩ := arrays_are_told_by_element_and_levels array second
  exact ⟨marked, signature, (same (by decide) (by decide)).mpr ⟨rfl, rfl⟩⟩

end Naming

end JavaFacts
