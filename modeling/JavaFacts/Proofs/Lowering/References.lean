import JavaFacts.Proofs.Lowering.TypeLookup
import JavaFacts.Proofs.Naming.Arrays

/-!
What the types that a file names are bound to. A class, interface or enum that bears the name of a type
of the file is that type, however the name was found: among the members of the types around, in the
package, by an import or in `java.lang`.
-/

namespace JavaFacts

open Naming (IsIdentifier IsDotted)

/-- Whether a declaration can declare types of that kind. -/
def TypeKind.isDeclared : TypeKind → Bool
  | .ofClass | .interface | .enumeration => true
  | .primitive | .array | .typeVariable | .null => false

namespace TypeTable

variable {table : TypeTable} {scope : TypeScope} {name : String} {binding own : TypeBinding}

/-- What some name is found to be at some place of a file. -/
inductive Finds (table : TypeTable) (binding : TypeBinding) : Prop where
  | simple {scope : TypeScope} {name : String} : table.simple? scope name = some binding →
      Finds table binding
  | qualified {scope : TypeScope} {name : String} : table.qualified? scope name = some binding →
      Finds table binding

/-- What a file refers to by a name or by a type that is written out. -/
inductive Refers (table : TypeTable) (binding : TypeBinding) : Prop where
  | name : table.Finds binding → Refers table binding
  | type {scope : TypeScope} {tree : Concrete} : (table.typeUse scope tree).binding = some binding →
      Refers table binding

mutual

/-- A written type that is no array is bound to what a name in it is found to be. -/
theorem finds_of_written (tree : Concrete) (found : (table.written scope tree).2 = some binding)
    (declared : binding.kind.isDeclared) : table.Finds binding := by
  match tree with
  | .node head children =>
      rw [written] at found
      split at found
      case h_1 =>
        cases found
        cases declared
      case h_2 | h_3 => exact .simple found
      case h_4 => exact .qualified found
      case h_5 =>
        split at found
        · next base bound first =>
            obtain rfl : bound = some binding := found
            exact finds_of_firstWritten children _ first declared
        · cases found
      case h_6 =>
        split at found
        · next element bound first =>
            cases dimensions : Forest.extraDimensions children with
            | zero =>
                rw [dimensions] at found
                obtain rfl : bound = some binding := found
                exact finds_of_firstWritten children _ first declared
            | succ more =>
                rw [dimensions] at found
                obtain ⟨inner, -, rfl⟩ := Option.map_eq_some_iff.mp found
                have array := inner.isArray_array (more + 1)
                rw [TypeBinding.isArray, beq_iff_eq] at array
                rw [array] at declared
                cases declared
        · cases found
      case h_7 =>
        cases first : table.firstWritten scope (·.isNamedOf (·.isType)) children with
        | none =>
            rw [first] at found
            cases found
        | some type =>
            rw [first] at found
            obtain ⟨element, bound⟩ := type
            obtain rfl : bound = some binding := found
            exact finds_of_firstWritten children _ first declared
      case h_8 => cases found
termination_by structural tree

theorem finds_of_firstWritten (forest : List Concrete) (accepts : ConcreteHead → Bool)
    {type : WrittenType} (found : table.firstWritten scope accepts forest = some (type, some binding))
    (declared : binding.kind.isDeclared) : table.Finds binding := by
  match forest with
  | [] => cases found
  | tree :: forest =>
      rw [firstWritten] at found
      split at found
      · exact finds_of_written tree (congrArg Prod.snd (Option.some.inj found)) declared
      · exact finds_of_firstWritten forest accepts found declared
termination_by structural forest

end

/-- The names of a table are those of top-level types and of members of other types. -/
def HasPlainNames (table : TypeTable) : Prop :=
  ∀ key binding, table.binding? key = some binding → ∃ simple, IsIdentifier simple ∧
    (key = table.qualify simple ∨ ∃ outer, key = memberName outer simple)

theorem javaLang?_eq_some (found : javaLang? name = some binding) :
    binding.name = "java.lang." ++ name ∧ '.' ∉ name.toList ∧ '$' ∉ name.toList := by
  have listed : name ∈ javaLangInterfaces ++ javaLangClasses ++ javaLangGenerics.map (·.1) := by
    unfold javaLang? at found
    simp only at found
    split at found
    · next interface => simp [List.contains_iff_mem.mp interface]
    · split at found
      · next known =>
          rcases Bool.or_eq_true_iff.mp known with known | generic
          · simp [List.contains_iff_mem.mp known]
          · have some : (javaLangGenerics.lookup name).isSome := by
              cases looked : javaLangGenerics.lookup name with
              | none =>
                  rw [looked] at generic
                  cases generic
              | some parameter => rfl
            obtain ⟨entry, member, same⟩ := List.lookup_isSome_iff.mp some
            rw [beq_iff_eq.mp same]
            exact List.mem_append_right _ (List.mem_map_of_mem member)
      · cases found
  have plain : ∀ known ∈ javaLangInterfaces ++ javaLangClasses ++ javaLangGenerics.map (·.1),
      '.' ∉ known.toList ∧ '$' ∉ known.toList := by decide
  refine ⟨?_, plain name listed⟩
  unfold javaLang? at found
  simp only at found
  split at found
  · cases found
    rfl
  · split at found
    · cases found
      rfl
    · cases found

/-- A type of `java.lang` that the file declares itself is found in its package. -/
theorem binding?_qualify_of_javaLang (plain : table.HasPlainNames)
    (found : javaLang? name = some binding) (known : table.binding? binding.name = some own) :
    table.binding? (table.qualify name) = some own := by
  obtain ⟨named, undotted, unnested⟩ := javaLang?_eq_some found
  rw [named] at known
  obtain ⟨simple, identifier, top | ⟨outer, member⟩⟩ := plain _ own known
  · have free : '.' ∉ simple.toList := identifier.free (by decide)
    have split : "java.lang." ++ name = "java.lang" ++ "." ++ name := rfl
    -- the package and the simple name are what stands around the last dot
    unfold qualify at top
    split at top
    · next package given =>
        split at top
        · rw [← top, Text.not_mem_append] at free
          exact absurd (by decide) free.1
        · have cut := congrArg (Text.beforeLast? (· == '.')) top
          rw [split, Text.beforeLast?_mark rfl undotted, Text.beforeLast?_mark rfl free] at cut
          obtain rfl := Option.some.inj cut
          rw [split] at top
          obtain rfl := (String.append_right_inj _).mp top
          rw [qualify, given]
          exact known
    · rw [← top, Text.not_mem_append] at free
      exact absurd (by decide) free.1
  · have nested : '$' ∉ ("java.lang." ++ name).toList := Text.not_mem_append.mpr ⟨by decide, unnested⟩
    rw [member, memberName] at nested
    simp at nested

theorem exists_of_enclosingMember? {enclosing : List String}
    (found : table.enclosingMember? name enclosing = some binding) :
    ∃ key, table.binding? key = some binding := by
  induction enclosing with
  | nil => cases found
  | cons outer enclosing ih =>
      rw [enclosingMember?] at found
      split at found
      · next member => exact ⟨_, member.trans found⟩
      · exact ih found

/-- A name that is found to be a type with the name of a type of the file is found to be that one. -/
theorem Finds.eq_of_name (indexed : table.IsIndexed) (plain : table.HasPlainNames)
    (finds : table.Finds binding) (declared : binding.kind.isDeclared)
    (known : table.binding? binding.name = some own) : binding = own := by
  have here {key : String} (found : table.binding? key = some binding) : binding = own := by
    rw [(indexed key binding found).1, found] at known
    exact Option.some.inj known
  have looked {scope : TypeScope} {name : String} (found : table.simple? scope name = some binding) :
      binding = own := by
    rw [simple?] at found
    split at found
    · cases found
      cases declared
    · cases member : table.enclosingMember? name scope.enclosing with
      | some inner =>
          rw [member] at found
          obtain rfl : inner = binding := Option.some.inj found
          obtain ⟨key, found⟩ := exists_of_enclosingMember? member
          exact here found
      | none =>
          cases top : table.binding? (table.qualify name) with
          | some other =>
              rw [member, top] at found
              obtain rfl : other = binding := Option.some.inj found
              exact here top
          | none =>
              cases imported : table.imported? name with
              | some other =>
                  rw [member, top, imported] at found
                  obtain rfl : other = binding := Option.some.inj found
                  obtain ⟨qualified, -, given⟩ := Option.bind_eq_some_iff.mp imported
                  have given := Option.some.inj given
                  cases listed : table.binding? qualified with
                  | some inner =>
                      rw [listed, Option.getD_some] at given
                      exact here (given ▸ listed)
                  | none =>
                      rw [listed, Option.getD_none] at given
                      rw [← given] at known
                      exact absurd (listed.symm.trans known) (Option.some_ne_none own).symm
              | none =>
                  rw [member, top, imported] at found
                  have same := binding?_qualify_of_javaLang plain found known
                  exact absurd (top.symm.trans same) (Option.some_ne_none own).symm
  cases finds with
  | simple found => exact looked found
  | qualified found =>
      unfold qualified? at found
      split at found
      · next whole => exact here (whole.trans found)
      · split at found
        · obtain ⟨outer, -, member⟩ := Option.bind_eq_some_iff.mp found
          exact here member
        · cases found

/-- A reference to a type that bears the name of a type of the file is one to that type. -/
theorem Refers.eq_of_name (indexed : table.IsIndexed) (plain : table.HasPlainNames)
    (refers : table.Refers binding) (declared : binding.kind.isDeclared)
    (known : table.binding? binding.name = some own) : binding = own := by
  cases refers with
  | name finds => exact finds.eq_of_name indexed plain declared known
  | @type scope tree found =>
      exact (finds_of_written tree found declared).eq_of_name indexed plain declared known

end TypeTable

end JavaFacts
