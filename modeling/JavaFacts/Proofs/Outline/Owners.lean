import JavaFacts.Proofs.Outline.Ownership
import JavaFacts.Proofs.Outline.Reached

/-!
In a store that was reached in any way every entity is typed and owned: references lead to entities
of the kinds that fit, and nothing but packages is without an owner.
-/

namespace JavaFacts

/-- Every entity has an owner, whatever the units are, except packages. -/
theorem Facts.Reached.owned {facts : Facts} (reached : facts.Reached) :
    facts.OwnedBy fun _ _ => True := by
  induction reached with
  | empty => exact fun _ known => absurd rfl known
  | plan unit config _ ih =>
      have owning : (unit.setting config fun _ _ => True).Owning fun _ _ => True := by
        constructor <;> intros <;> trivial
      exact unit.plan_owned config (Setting.sound_true _ _) owning ih
  | link _ _ ih => exact ih

namespace Store

/-- Every extracted fact is well typed and owned. -/
theorem Reached.typed_and_owned {store : Store} {calls : List Call} (reached : store.Reached calls) :
    (∀ id entity, store.entity? id = some entity →
      (entity.kind = .package → entity.owner = none) ∧
      (entity.kind ≠ .package → ∃ owner kind, entity.owner = some owner ∧
        store.Holds kind owner ∧ kind ∈ entity.kind.ownerKinds) ∧
      ∀ type, entity.declaredType = some type → store.Holds .type type) ∧
    ∀ id association, store.association? id = some association →
      store.Holds association.kind.sourceKind association.source ∧
      store.Holds association.kind.targetKind association.target := by
  obtain ⟨whole, facts⟩ := reached.facts
  refine ⟨fun id entity found => ⟨fun package => ?_, fun kind => ?_, fun type typed => ?_⟩,
    fun id association found => ?_⟩
  · have sound := whole.entity found
    cases owned : entity.owner with
    | none => rfl
    | some owner =>
        obtain ⟨kind, allowed, -⟩ := sound.owner owned
        rw [package] at allowed
        cases allowed
  · obtain ⟨identity, owned, -⟩ :=
      facts.owned _ (knows_facts whole.toSound found) kind not_false
    rw [owner?_facts whole.toSound found] at owned
    obtain ⟨owner, owns, -⟩ := Option.bind_eq_some_iff.mp owned
    obtain ⟨kind, allowed, held⟩ := (whole.entity found).owner owns
    exact ⟨owner, kind, owns, held, allowed⟩
  · exact (whole.entity found).declaredType typed
  · exact ⟨(whole.association found).source, (whole.association found).target⟩

/-- A unit with a class that has a method, extracted twice, the second time with another path. The
second extraction is refused. -/
theorem Reached.typed_and_owned_of_class :
    let method : Node := .method ⟨10, 12⟩ { (default : MethodHeader) with name := "m" } none
    let type : Node := .type ⟨0, 24⟩ { (default : TypeHeader) with name := "A" } [method]
    let unit : CompilationUnit := { (default : CompilationUnit) with path := "A.java", types := [type] }
    let store := (({ unit with path := "B.java" } : CompilationUnit).extract .standard
      (unit.extract .standard ∅).store).store
    ∀ id entity, store.entity? id = some entity → entity.kind ≠ .package →
      ∃ owner kind, entity.owner = some owner ∧ store.Holds kind owner ∧
        kind ∈ entity.kind.ownerKinds := by
  intro method type unit store id entity found
  exact ((Reached.typed_and_owned (.extract { unit with path := "B.java" } .standard
    (.extract unit .standard .empty))).1 id entity found).2.1

end Store

end JavaFacts
