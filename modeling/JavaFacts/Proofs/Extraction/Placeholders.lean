import JavaFacts.Extraction.Placeholders
import JavaFacts.Proofs.Facts.Requests

/-!
What the look-ups of types, methods and fields that source refers to do to a store: each gives an
entity of the name asked for and adds what is missing, quietly.
-/

namespace JavaFacts.Edit

variable {grounds : Grounds} {before : Store}

theorem ensureType_meets (name : String) :
    Meets Store.Quiet grounds before (ensureType name) fun type after =>
      after.identity? type = some (.type, name) := by
  unfold ensureType
  refine .bind (intern_meets .type name) fun type middle _ named => ?_
  refine .bind (entity_meets ⟨name, named⟩) fun entity _ _ known => ?_
  obtain ⟨rfl, -⟩ := known
  dsimp only
  split
  · refine .bind (intern_meets .package _) fun package owned quiet packageNamed => ?_
    have kept := quiet.identity named
    refine .bind (setOwner_meets ⟨name, kept⟩ ⟨_, packageNamed⟩ (by decide) nofun)
      fun _ moved quiet _ => ?_
    have kept := quiet.identity kept
    split
    · exact .bind (addModifiers_quiet ⟨name, kept⟩ fun _ => by decide)
        fun _ _ quiet _ => .pure (quiet.identity kept)
    · exact .pure kept
  · exact .pure named

theorem typeOf_meets (use : TypeUse) :
    Meets Store.Quiet grounds before (typeOf use) fun type after => after.Holds .type type :=
  .imp (ensureType_meets _) (fun _ quiet => quiet) fun _ _ _ named => ⟨_, named⟩

theorem ensureMethod_meets (typeName name : String) (parameterTypes : List String) :
    Meets Store.Quiet grounds before (ensureMethod typeName name parameterTypes) fun method after =>
      after.identity? method = some (.method, name) := by
  unfold ensureMethod
  refine .bind (intern_meets .method name) fun method middle _ named => ?_
  refine .bind (entity_meets ⟨name, named⟩) fun entity _ _ known => ?_
  obtain ⟨rfl, -⟩ := known
  dsimp only
  split
  · refine .bind (ensureType_meets typeName) fun type typed quiet typeNamed => ?_
    have kept := quiet.identity named
    refine .bind (setOwner_meets ⟨name, kept⟩ ⟨_, typeNamed⟩ (by decide) nofun)
      fun _ moved quiet _ => ?_
    have kept := quiet.identity kept
    exact .bind (update_typed ⟨name, kept⟩ (by decide) (fun _ => ⟨rfl, rfl, rfl, fun place => place⟩)
      (fun _ => rfl) fun _ _ known => .inr known) fun _ _ quiet _ => .pure (quiet.identity kept)
  · exact .pure named

theorem ensureField_meets (typeName name : String) :
    Meets Store.Quiet grounds before (ensureField typeName name) fun field after =>
      after.Holds .field field := by
  unfold ensureField
  refine .bind (intern_meets .field _) fun field middle _ named => ?_
  refine .bind (entity_meets ⟨_, named⟩) fun entity _ _ known => ?_
  obtain ⟨rfl, -⟩ := known
  dsimp only
  split
  · refine .bind (ensureType_meets typeName) fun type typed quiet typeNamed => ?_
    have kept := quiet.identity named
    exact .bind (setOwner_meets ⟨_, kept⟩ ⟨_, typeNamed⟩ (by decide) nofun)
      fun _ _ quiet _ => .pure ⟨_, quiet.identity kept⟩
  · exact .pure ⟨_, named⟩

/-- A method that is made up for a type. -/
theorem madeUpMethod_meets (name : String) {type : EntityId} (typed : before.Holds .type type)
    (flags : Modifiers) :
    Meets Store.Quiet grounds before
      (do
        let method ← intern .method name
        setOwner method type
        addModifiers method flags
        pure method)
      fun method after => after.identity? method = some (.method, name) := by
  refine .bind (intern_meets .method _) fun method middle quiet named => ?_
  refine .bind (setOwner_meets ⟨_, named⟩ (typed.extended quiet.toExtends) (by decide) nofun)
    fun _ owned quiet _ => ?_
  have kept := quiet.identity named
  exact .bind (addModifiers_quiet ⟨_, kept⟩ (nomatch ·))
    fun _ _ quiet _ => .pure (quiet.identity kept)

end JavaFacts.Edit
