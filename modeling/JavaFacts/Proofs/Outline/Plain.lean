import JavaFacts.Proofs.Facts.Writes
import JavaFacts.Proofs.Naming.Methods
import JavaFacts.Proofs.Outline.Settled
import JavaFacts.Proofs.Outline.Ownership

/-!
Units whose names are free of the characters that unique names are put together with. There the name
of a method tells its class and that of a parameter its method.
-/

namespace JavaFacts

/-- Whether the names of a method and of its parameters are free of dots, parentheses and brackets, as
far as it matters. A constructor is not named by its own name. -/
structure MethodHeader.IsPlain (header : MethodHeader) : Prop where
  name : header.isConstructor = false → ∀ c ∈ ['.', '(', '<'], c ∉ header.name.toList
  parameters : ∀ parameter ∈ header.parameters, '.' ∉ parameter.name.toList

/-- Whether the names that a part of a tree gives hold no character that they are put together
with. -/
def Part.IsPlain : Part → Prop
  | type _ header => '(' ∉ header.name.toList ∧
      (∀ parameter ∈ header.typeParameters, '(' ∉ parameter.toList) ∧
      ∀ name, header.binding.bind Naming.bindingName? = some name → '(' ∉ name.toList
  | anonymousClass binding => ∀ name, binding.bind Naming.bindingName? = some name → '(' ∉ name.toList
  | method header => header.IsPlain
  | field _ | localVariable _ | call _ => True

structure CompilationUnit.IsPlain (unit : CompilationUnit) : Prop where
  package : ∀ package, unit.package = some package → '(' ∉ package.toList
  parts : ∀ part ∈ unit.parts, part.IsPlain

/-- What the law asks of names in plain units. -/
structure Setting.IsPlain (setting : Setting) : Prop where
  type : ∀ {outer name}, setting.nests outer name → '(' ∉ name.toList
  method : ∀ {header}, .method header ∈ setting.parts → header.IsPlain

namespace Naming

theorem mem_of_mem_withoutTypeParameters {c : Char} {name : String}
    (member : c ∈ (withoutTypeParameters name).toList) : c ∈ name.toList := by
  unfold withoutTypeParameters at member
  split at member
  · exact member
  · exact Text.mem_of_mem_upTo member

theorem holderOf_parameter {method simple : String} (undotted : '.' ∉ simple.toList) :
    holderOf (method ++ "." ++ simple) = method := by
  rw [holderOf, Text.beforeLast?_mark rfl undotted]
  rfl

end Naming

namespace CompilationUnit.IsPlain

variable {unit : CompilationUnit}

/-- The names of types in a plain unit. -/
abbrev nests : Option String → String → Prop :=
  fun _ name => '(' ∉ name.toList

theorem isPlain (plain : unit.IsPlain) (config : Config) : (unit.setting config nests).IsPlain :=
  ⟨fun free => free, fun part => plain.parts _ part⟩

theorem sound (plain : unit.IsPlain) (config : Config) : (unit.setting config nests).Sound where
  trans _ inner := inner
  type {around header} part standing place nested name gives := by
    obtain ⟨simple, parameters, bound⟩ := plain.parts _ part
    have free : '(' ∉ (header.name ++ Naming.typeParameterList header.typeParameters).toList :=
      Text.not_mem_append.mpr ⟨simple, Naming.not_mem_typeParameterList (by decide) parameters⟩
    unfold Standing.naming at gives
    cases known : header.binding.bind Naming.bindingName? with
    | some given =>
        rw [known] at gives
        exact gives ▸ bound given known
    | none =>
        rw [known] at gives
        dsimp only at gives
        rcases types : standing.types with - | ⟨outer, others⟩ <;> rw [types] at gives
        · dsimp only at gives
          cases package : unit.package with
          | none =>
              have none : (unit.setting config nests).origin.package = none := package
              rw [none] at gives
              exact gives ▸ free
          | some package' =>
              have some : (unit.setting config nests).origin.package = some package' := package
              rw [some] at gives
              have gives : name = if package'.isEmpty then _ else _ := gives
              rw [gives]
              split
              · exact free
              · exact Text.not_mem_append.mpr ⟨Text.not_mem_append.mpr
                  ⟨plain.package package' package, by decide⟩, free⟩
        · obtain ⟨_, outerFree⟩ := nested outer (types ▸ List.mem_cons_self)
          have stem : '(' ∉ (Naming.withoutTypeParameters outer ++ "$").toList :=
            Text.not_mem_append.mpr
              ⟨fun member => outerFree (Naming.mem_of_mem_withoutTypeParameters member), by decide⟩
          dsimp only at gives
          split at gives
          · obtain ⟨ordinal, rfl⟩ := gives
            exact Text.not_mem_append.mpr ⟨Text.not_mem_append.mpr
              ⟨stem, Naming.not_mem_toString rfl ordinal⟩, free⟩
          · obtain rfl := gives
            exact Text.not_mem_append.mpr ⟨stem, free⟩
  anonymousClass {binding} part enclosing ordinal nested := by
    obtain ⟨_, free⟩ := nested
    cases known : binding.bind Naming.bindingName? with
    | some name => exact plain.parts _ part name known
    | none =>
        exact Text.not_mem_append.mpr ⟨Text.not_mem_append.mpr ⟨Text.not_mem_append.mpr
          ⟨fun member => free (Naming.mem_of_mem_withoutTypeParameters member), by decide⟩,
          Naming.not_mem_toString rfl ordinal⟩, by decide⟩

end CompilationUnit.IsPlain

/-- The law holds at every step of a history. -/
def Setting.Permits (setting : Setting) (history : List Step) : Prop :=
  ∀ before step after, history = before ++ step :: after →
    step.request.Obeys setting before ∧ step.request.Gives step.answer

namespace Setting

variable {setting : Setting} {history : List Step} {step : Step} {type name : String}

theorem Permits.nil : setting.Permits [] :=
  fun before _ _ split => by cases before <;> cases split

theorem Permits.of_prefix {later : List Step} (permits : setting.Permits later)
    (grown : history <+: later) : setting.Permits history := by
  obtain ⟨rest, rfl⟩ := grown
  intro before step after split
  exact permits before step (after ++ rest) (by rw [split, List.append_assoc, List.cons_append])

theorem Permits.last (permits : setting.Permits (history ++ [step])) :
    step.request.Obeys setting history ∧ step.request.Gives step.answer :=
  permits history step [] rfl

theorem Permits.plain_type (permits : setting.Permits history) (plain : setting.IsPlain)
    (placed : (.type, type) ∈ placedBy history) : '(' ∉ type.toList := by
  obtain ⟨step, member, declares⟩ := List.mem_flatMap.mp placed
  obtain ⟨before, after, rfl⟩ := List.append_of_mem member
  obtain ⟨obeys, gives⟩ := permits before step after rfl
  obtain ⟨request, answer⟩ := step
  cases request with
  | declareType naming anchor owner flags =>
      obtain rfl : type = answer := (Prod.mk.inj (List.mem_singleton.mp declares)).2
      rcases obeys type gives with ⟨-, nests⟩ | ⟨_, -, nests, -⟩ <;> exact plain.type nests
  | record event => exact absurd declares event.mem_placed_type
  | _ => cases declares

theorem Permits.method_named (permits : setting.Permits history)
    (placed : (.method, name) ∈ placedBy history) :
    ∃ type header, (.type, type) ∈ placedBy history ∧ .method header ∈ setting.parts ∧
      name = Naming.methodName type header.name header.isConstructor (Walk.parameterTypes header) := by
  obtain ⟨step, member, declares⟩ := List.mem_flatMap.mp placed
  obtain ⟨before, after, rfl⟩ := List.append_of_mem member
  obtain ⟨obeys, -⟩ := permits before step after rfl
  obtain ⟨request, answer⟩ := step
  cases request with
  | declareType naming anchor owner flags =>
      cases List.mem_singleton.mp declares
  | record event =>
      cases event with
      | method other anchor type returned modifiers parameterTypes =>
          obtain ⟨known, header, part, rfl, rfl, rfl⟩ := obeys
          obtain rfl : name = _ := (Prod.mk.inj (List.mem_singleton.mp declares)).2
          exact ⟨type, header, placedBy_subset (List.prefix_append _ _)
            (mem_placedBy_of_dropLast known), part, rfl⟩
      | parameters owner listed =>
          obtain ⟨parameter, -, same⟩ := List.mem_map.mp declares
          cases same
      | field => cases List.mem_singleton.mp declares
      | localVariable => cases List.mem_singleton.mp declares
      | _ => cases declares
  | _ => cases declares

end Setting

namespace Naming

theorem free_simple {header : MethodHeader} (plain : header.IsPlain) :
    '(' ∉ (if header.isConstructor then constructorMarker else header.name).toList ∧
      '.' ∉ (if header.isConstructor then constructorMarker else header.name).toList := by
  split
  · decide
  · rename_i named
    have free := plain.name (Bool.eq_false_iff.mpr named)
    exact ⟨free '(' (by decide), free '.' (by decide)⟩

theorem classOf_methodName_plain {type : String} (free : '(' ∉ type.toList) {header : MethodHeader}
    (plain : header.IsPlain) (parameterTypes : List String) :
    classOf (methodName type header.name header.isConstructor parameterTypes) = type := by
  rw [methodName, String.append_assoc]
  exact classOf_eq free (free_simple plain).1 (free_simple plain).2

/-- No method is taken for one that hosts initializers. -/
theorem methodName_ne_initializerName {type host marker : String} (free : '(' ∉ type.toList)
    (hostFree : '(' ∉ host.toList) {header : MethodHeader} (plain : header.IsPlain)
    (marked : marker ∈ [instanceInitializer, staticInitializer]) (parameterTypes : List String) :
    methodName type header.name header.isConstructor parameterTypes ≠ initializerName host marker := by
  intro same
  have opened : initializerName host marker = host ++ "." ++ marker ++ "(" ++ ")" := by
    rw [String.append_assoc]
    rfl
  rw [methodName, opened, String.append_assoc] at same
  have markerFree : '(' ∉ marker.toList ∧ '.' ∉ marker.toList ∧ '<' ∈ marker.toList ∧
      marker ≠ constructorMarker := by
    rcases List.mem_pair.mp marked with rfl | rfl <;> decide
  obtain ⟨-, simple, -⟩ := MethodParts.eq_of_cut ⟨free, free_simple plain⟩
    ⟨hostFree, markerFree.1, markerFree.2.1⟩ same
  split at simple
  · exact markerFree.2.2.2 simple.symm
  · rename_i named
    exact plain.name (Bool.eq_false_iff.mpr named) '<' (by decide) (simple ▸ markerFree.2.2.1)

end Naming

end JavaFacts
