import JavaFacts.Proofs.Call.Reached
import JavaFacts.Proofs.Extraction.Members
import JavaFacts.Proofs.Scope.LocalNames

/-!
The simple names of what a class declares. Each is read off the unique name again, and the local
variables of all methods have different unique names.
-/

namespace JavaFacts

open Naming (IsSegment constructorMarker instanceInitializer staticInitializer)

namespace Walk

variable {site : Site} {before after : Progress} {method : EntityId}

theorem declareParameter_simpleName (sound : before.Sound site) (held : before.store.Holds .method method)
    (methodName : String) (position : Nat) {parameter : FormalParameter} (signature : String)
    (segment : IsSegment parameter.name)
    (declared : (declareParameter method methodName position parameter signature).perform site before =
      (.ok (), after)) :
    ∃ id entity, after.store.find? .parameter (methodName ++ "." ++ parameter.name) = some id ∧
      after.store.entity? id = some entity ∧ entity.kind = .parameter ∧
      entity.simpleName = parameter.name := by
  have met : Meets Progress.Quiet ⟨False, False⟩ site before _ _ :=
    declareParameter_meets held methodName position parameter signature
  obtain ⟨afterSound, -, -, -, outcome⟩ := met sound
  rw [declared] at outcome afterSound
  obtain ⟨id, named⟩ := outcome
  obtain ⟨entity, found, identity⟩ := Option.map_eq_some_iff.mp named
  obtain ⟨kind, name⟩ := Prod.mk.inj identity
  refine ⟨id, entity, afterSound.store.find.mpr named, found, kind, ?_⟩
  rw [Entity.simpleName, kind, name]
  exact simpleName_parameter segment

end Walk

/-- Behind a class name without parentheses, the simple name of a method is the name that it was built
from, or a marker, whatever its parameter types are, and that of a field, a parameter or a local variable
is its identifier. The parameter meant is the one that its declaration finds, under the name of the
method and its own. However identifiers of several methods are mixed, no two local variables get the
same unique name. -/
theorem members_are_read_off_their_names :
    (∀ typeName name, '(' ∉ typeName.toList → IsSegment name →
      (∀ isConstructor parameterTypes,
        simpleName .method (Naming.methodName typeName name isConstructor parameterTypes) =
          if isConstructor then constructorMarker else name) ∧
      (∀ marker ∈ [instanceInitializer, staticInitializer],
        simpleName .method (Naming.initializerName typeName marker) = marker) ∧
      simpleName .field (Naming.fieldName typeName name) = name) ∧
    (∀ (site : Site) (before after : Progress) method methodName position (parameter : FormalParameter)
        signature, before.Sound site → before.store.Holds .method method → IsSegment parameter.name →
      (Walk.declareParameter method methodName position parameter signature).perform site before =
        (.ok (), after) →
      ∃ id entity, after.store.find? .parameter (methodName ++ "." ++ parameter.name) = some id ∧
        after.store.entity? id = some entity ∧ entity.kind = .parameter ∧
        entity.simpleName = parameter.name) ∧
    (∀ (scopes : Scopes) method methodName name, IsSegment name →
      simpleName .localVariable (scopes.nextLocalName method methodName name).1 = name) ∧
    ∀ (scopes : Scopes) operations, Scopes.Consistent (Scopes.localRequests operations) →
      (scopes.localNames operations).Nodup := by
  refine ⟨fun typeName name plain segment => ⟨simpleName_methodName plain segment, ?_, ?_⟩, ?_, ?_, ?_⟩
  · exact fun marker marked =>
      simpleName_initializerName plain (Naming.isSegment_marker (List.mem_cons_of_mem _ marked))
  · exact simpleName_fieldName segment
  · exact fun _ _ _ _ methodName position _ signature sound held segment =>
      Walk.declareParameter_simpleName sound held methodName position signature segment
  · intro scopes method methodName name segment
    have named := scopes.nameLocal_eq ⟨method, methodName, name⟩
    rw [Scopes.nameLocal] at named
    rw [named]
    exact Scopes.LocalRequest.simpleName_uniqueName segment
  · exact fun scopes operations => Scopes.nodup_localNames

/-- A method with a parameter, and two methods whose blocks declare the same variables by turns. -/
theorem members_are_read_off_their_names_of_overloads :
    let name := Naming.methodName "p.A$B" "run" false ["p.Map<k.K,v.V>", "int[]"]
    let package := (∅ : Store).added .package "p"
    let store := package.added .method name
    let before : Progress := ⟨store, ∅, #[], #[], #[], 0, #[]⟩
    let site : Site := ⟨"A.java", .ofString "", none, 0, false⟩
    let parameter : FormalParameter := ⟨⟨0, 5⟩, "key", ⟨⟨0, 1⟩, .simple "K", none⟩, ∅, none⟩
    let run : Scopes.LocalRequest := ⟨1, name, "i"⟩
    let other : Scopes.LocalRequest := ⟨2, "p.A$B.stop()", "i"⟩
    simpleName .method name = "run" ∧
      simpleName .method (Naming.initializerName "p.A$B" instanceInitializer) = instanceInitializer ∧
      simpleName .field (Naming.fieldName "p.A$B" "size") = "size" ∧
      (∀ after,
        (Walk.declareParameter 1 name 0 parameter "<undef>.K").perform site before = (.ok (), after) →
        ∃ id entity, after.store.find? .parameter (name ++ "." ++ parameter.name) = some id ∧
          after.store.entity? id = some entity ∧ entity.kind = .parameter ∧
          entity.simpleName = "key") ∧
      simpleName .localVariable ((∅ : Scopes).nextLocalName 1 name "i").1 = "i" ∧
      ((∅ : Scopes).localNames [.nameLocal run, .enterBlock ⟨0, 9⟩, .nameLocal other, .leaveMethod 1,
        .nameLocal run, .nameLocal other]).Nodup := by
  intro name package store before site parameter run other
  obtain ⟨members, parameters, locals, runs⟩ := members_are_read_off_their_names
  have segment {text : String} (undotted : '.' ∉ text.toList) (plain : '(' ∉ text.toList)
      (unnumbered : '#' ∉ text.toList) : IsSegment text := ⟨undotted, plain, unnumbered⟩
  obtain ⟨methods, -, -⟩ :=
    members "p.A$B" "run" (by decide) (segment (by decide) (by decide) (by decide))
  obtain ⟨-, markers, fields⟩ :=
    members "p.A$B" "size" (by decide) (segment (by decide) (by decide) (by decide))
  have sound : before.Sound site := by
    have packaged : package.Sound := Store.Sound.empty.added (Store.find?_empty _ _)
    have missing : package.find? .method name = none := by
      rw [Store.find?_added, if_neg (by simp)]
      exact Store.find?_empty _ _
    exact ⟨packaged.added missing, ⟨"p", rfl⟩, nofun, nofun, nofun, rfl⟩
  refine ⟨methods false _, markers _ (by decide), fields, fun after => ?_, ?_, ?_⟩
  · exact parameters site before after 1 name 0 parameter _ sound ⟨name, rfl⟩
      (segment (by decide) (by decide) (by decide))
  · exact locals ∅ 1 name "i" (segment (by decide) (by decide) (by decide))
  · refine runs ∅ _ ⟨fun asked listed => ?_, ?_⟩
    · have same : asked.name = "i" := by
        revert asked
        decide
      rw [same]
      exact segment (by decide) (by decide) (by decide)
    · decide

end JavaFacts
