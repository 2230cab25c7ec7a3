import JavaFacts.Extraction.Types
import JavaFacts.Proofs.Lowering.DeclaredTypes
import JavaFacts.Proofs.Lowering.Shape

/-!
Where a walk over a lowered tree stands, and under which names it enters types. A type never gets the
name of the type around it: a name from a binding continues the binary name of that type, and any
other name continues its name up to the type parameters.
-/

namespace JavaFacts

namespace Naming

/-- What continues the name of a type up to its parameters is not that name. -/
theorem withoutTypeParameters_append_ne (name rest : String) :
    withoutTypeParameters name ++ "$" ++ rest ≠ name := by
  intro same
  have longer {front : String} (equal : front ++ "$" ++ rest = front) : False := by
    have lengths := congrArg String.length equal
    simp only [String.length_append] at lengths
    have one : "$".length = 1 := rfl
    omega
  unfold withoutTypeParameters at same
  split at same
  · exact longer same
  · -- the mark of nested types stands in front of all type parameters
    have cut := congrArg (Text.upTo (· == '<')) same
    rw [String.append_assoc, Text.upTo_append Text.not_mem_upTo] at cut
    have kept : Text.upTo (· == '<') ("$" ++ rest) = "$" ++ Text.upTo (· == '<') rest :=
      Text.upTo_append (by decide)
    rw [kept, ← String.append_assoc] at cut
    have lengths := congrArg String.length cut
    simp only [String.length_append] at lengths
    have one : "$".length = 1 := rfl
    omega

/-- The name of a member type continues that of the type around it in another way than type
parameters do. -/
theorem memberName_append_ne (outer simple rest : String) (parameters : List String) :
    TypeTable.memberName outer simple ++ rest ≠ outer ++ typeParameterList parameters := by
  rw [TypeTable.memberName, String.append_assoc, String.append_assoc]
  intro same
  have behind := congrArg String.toList same
  simp only [String.toList_append] at behind
  have behind := List.append_cancel_left behind
  rcases typeParameterList_eq parameters with empty | ⟨inside, marked⟩
  · rw [empty] at behind
    cases behind
  · rw [marked, String.toList_append] at behind
    exact absurd (List.cons.inj behind).1 (by decide)

end Naming

theorem TypeTable.qualify_append (table : TypeTable) (name rest : String) :
    table.qualify (name ++ rest) = table.qualify name ++ rest := by
  unfold qualify
  split
  · split
    · rfl
    · rw [String.append_assoc, String.append_assoc, String.append_assoc]
  · rfl

theorem TypeTable.isEmpty_memberName (outer simple : String) :
    (memberName outer simple).isEmpty = false :=
  Bool.eq_false_iff.mpr fun empty =>
    Text.ne_empty_of_mem (c := '$') (by simp [memberName]) (String.isEmpty_iff.mp empty)

/-- A type is entered under the binary name of its binding, with type parameters behind it. -/
def TypeFrame.Bears (frame : TypeFrame) (self : Option TypeBinding) : Prop :=
  ∀ own, self = some own → ∃ parameters,
    frame.name = own.name ++ Naming.typeParameterList parameters

namespace Scopes

/-- Whether a walk stands where a node of a lowered tree does. -/
def Suits (scopes : Scopes) : Enclosure → Prop
  | .outside => scopes.type? = none
  | .body self => ∃ frame, scopes.type? = some frame ∧ frame.Bears self
  | .code self => (∃ frame, scopes.type? = some frame ∧ frame.Bears self) ∧ scopes.method? ≠ none

variable {before after : Scopes} {enclosure : Enclosure}

theorem Suits.same (suits : before.Suits enclosure) (types : after.types = before.types)
    (methods : after.methods = before.methods) : after.Suits enclosure := by
  cases enclosure <;> simpa only [Suits, type?, method?, types, methods] using suits

end Scopes

namespace Walk

variable {table : TypeTable} {store : Store} {scopes : Scopes} {header : TypeHeader} {anchor : Anchor}

theorem exists_freeName (store : Store) (anchor : Anchor) (name : Nat → String) (steps ordinal : Nat) :
    ∃ chosen, freeName store anchor name steps ordinal = name chosen := by
  induction steps generalizing ordinal with
  | zero => exact ⟨ordinal, rfl⟩
  | succ steps ih =>
      rw [freeName]
      split
      · exact ih (ordinal + 1)
      · exact ⟨ordinal, rfl⟩

/-- Without a binding, the name of a type continues that of the type around it. -/
theorem exists_declaredName {package : Option String} {frame : TypeFrame}
    (current : scopes.type? = some frame) (unbound : header.binding.bind Naming.bindingName? = none) :
    ∃ rest, declaredName store scopes package header anchor =
      Naming.withoutTypeParameters frame.name ++ "$" ++ rest := by
  unfold declaredName
  rw [unbound, current]
  dsimp only
  split
  · obtain ⟨chosen, same⟩ := exists_freeName store anchor (fun ordinal =>
      Naming.withoutTypeParameters frame.name ++ "$" ++ toString ordinal ++
        (header.name ++ Naming.typeParameterList header.typeParameters)) store.entities.size 1
    exact ⟨_, same.trans String.append_assoc⟩
  · exact ⟨_, rfl⟩

/-- A type of a binding with a name is declared under it. -/
theorem declaredName_of_binding (indexed : table.IsIndexed) {key : String} {own : TypeBinding}
    {package : Option String} (bound : header.binding = some own)
    (found : table.binding? key = some own) (nonempty : key.isEmpty = false) :
    declaredName store scopes package header anchor =
      key ++ Naming.typeParameterList own.typeParameters := by
  obtain ⟨rfl, shape⟩ := indexed key own found
  unfold declaredName
  rw [bound, Option.bind_some, TypeBinding.bindingName?_of_shape shape, nonempty]
  rfl

section

variable {enclosure : Enclosure} (indexed : table.IsIndexed) (suits : scopes.Suits enclosure)
  (bound : header.binding = enclosure.declared? table header.name)
include indexed suits bound

theorem declaredName_bears (type : EntityId) :
    TypeFrame.Bears ⟨type, declaredName store scopes table.package header anchor⟩ header.binding := by
  intro own known
  rw [known] at bound
  cases enclosure with
  | outside =>
      have found := bound.symm
      obtain ⟨named, shape⟩ := indexed _ own found
      cases empty : (table.qualify header.name).isEmpty with
      | false => exact ⟨_, named ▸ declaredName_of_binding indexed known found empty⟩
      | true =>
          -- the binding gives no name, but the name made up without it is the same
          have outside : scopes.type? = none := suits
          refine ⟨header.typeParameters, ?_⟩
          rw [named, ← TypeTable.qualify_append]
          show declaredName store scopes table.package header anchor = _
          unfold declaredName
          rw [known, Option.bind_some, TypeBinding.bindingName?_of_shape shape, named, empty, outside]
          rfl
  | body self =>
      obtain ⟨outer, -, found⟩ := Option.bind_eq_some_iff.mp bound.symm
      obtain ⟨named, -⟩ := indexed _ own found
      exact ⟨_, named ▸ declaredName_of_binding indexed known found
        (TypeTable.isEmpty_memberName _ _)⟩
  | code self => cases bound

theorem declaredName_ne {frame : TypeFrame} (current : scopes.type? = some frame) :
    frame.name ≠ declaredName store scopes table.package header anchor := by
  have unbound (none : header.binding = .none) :
      frame.name ≠ declaredName store scopes table.package header anchor := by
    have unnamed : header.binding.bind Naming.bindingName? = .none := by rw [none]; rfl
    obtain ⟨rest, same⟩ : ∃ rest, declaredName store scopes table.package header anchor =
      Naming.withoutTypeParameters frame.name ++ "$" ++ rest := exists_declaredName current unnamed
    rw [same]
    exact (Naming.withoutTypeParameters_append_ne _ _).symm
  cases enclosure with
  | outside => exact nomatch suits.symm.trans current
  | code self => exact unbound bound
  | body self =>
      cases known : header.binding with
      | none => exact unbound known
      | some own =>
          rw [known] at bound
          obtain ⟨outer, rfl, found⟩ := Option.bind_eq_some_iff.mp bound.symm
          obtain ⟨around, same, bears⟩ := suits
          obtain rfl := Option.some.inj (same.symm.trans current)
          obtain ⟨parameters, named⟩ := bears outer rfl
          rw [named, declaredName_of_binding indexed known found (TypeTable.isEmpty_memberName _ _)]
          exact (Naming.memberName_append_ne _ _ _ _).symm

end

end Walk

end JavaFacts
