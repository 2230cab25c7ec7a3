import JavaFacts.Call.Stages
import JavaFacts.Proofs.Facts.Supertypes

/-!
What the stages of the search for a target keep. The index by simple names, and each stage after it,
give the methods of the store that satisfy a condition, in the order in which they were created.
-/

namespace JavaFacts

namespace Store

open Classical in
/-- The methods of a store that satisfy a condition, in the order of creation. -/
noncomputable def methodsThat (store : Store) (condition : Entity → Prop) : List EntityId :=
  ((store.ofKind .method).filter fun method => decide (condition method)).map (·.id)

variable {store : Store} {condition other : Entity → Prop}

theorem mem_ofKind {kind : EntityKind} {entity : Entity} (sound : store.Sound)
    (member : entity ∈ store.ofKind kind) :
    store.entity? entity.id = some entity ∧ entity.kind = kind := by
  obtain ⟨member, kind⟩ := List.mem_filter.mp member
  obtain ⟨index, found⟩ := List.mem_iff_getElem?.mp member
  rw [Array.getElem?_toList] at found
  refine ⟨?_, eq_of_beq kind⟩
  rw [sound.entityId found]
  exact found

theorem holds_of_mem_methodsThat (sound : store.Sound) {method : EntityId}
    (member : method ∈ store.methodsThat condition) : store.Holds .method method := by
  obtain ⟨entity, kept, rfl⟩ := List.mem_map.mp member
  obtain ⟨found, kind⟩ := mem_ofKind sound (List.mem_of_mem_filter kept)
  exact kind ▸ holds_of_entity found

theorem methodsThat_congr
    (same : ∀ method ∈ store.ofKind .method, condition method ↔ other method) :
    store.methodsThat condition = store.methodsThat other := by
  rw [methodsThat, methodsThat]
  exact congrArg _ (List.filter_congr fun method member => decide_eq_decide.mpr (same method member))

open Classical in
/-- A stricter condition keeps fewer methods. -/
theorem methodsThat_sublist (stricter : ∀ method, condition method → other method) :
    (store.methodsThat condition).Sublist (store.methodsThat other) := by
  refine List.Sublist.map _ ?_
  have narrowed : (store.ofKind .method).filter (fun method => decide (condition method)) =
      ((store.ofKind .method).filter fun method => decide (other method)).filter
        fun method => decide (condition method) := by
    rw [List.filter_filter]
    refine List.filter_congr fun method _ => ?_
    by_cases holds : condition method
    · simp [holds, stricter method holds]
    · simp [holds]
  rw [narrowed]
  exact List.filter_sublist

end Store

namespace MethodIndex

theorem named_insert (index : MethodIndex) (method : Entity) (name : String) :
    (index.insert method).named name =
      index.named name ++ ([method].filter (·.simpleName == name)).map (·.id) := by
  rw [named, insert, Std.HashMap.getD_insert]
  by_cases same : method.simpleName = name
  · subst same
    simp [named]
  · simp [named, same]

theorem named_foldl (methods : List Entity) (index : MethodIndex) (name : String) :
    (methods.foldl insert index).named name =
      index.named name ++ (methods.filter (·.simpleName == name)).map (·.id) := by
  induction methods generalizing index with
  | nil => simp
  | cons method methods ih =>
      have split : (method :: methods).filter (·.simpleName == name) =
          [method].filter (·.simpleName == name) ++ methods.filter (·.simpleName == name) :=
        List.filter_append [method] methods
      rw [List.foldl_cons, ih, named_insert, split, List.map_append, List.append_assoc]

/-- Looking a name up is filtering all methods by their simple names. -/
theorem named_ofStore (store : Store) (name : String) :
    (ofStore store).named name = store.methodsThat fun method => method.simpleName = name := by
  rw [ofStore, named_foldl, Store.methodsThat]
  have nothing : (⟨∅⟩ : MethodIndex).named name = [] := by
    rw [named, Std.HashMap.getD_empty]
  rw [nothing, List.nil_append]
  refine congrArg _ (List.filter_congr fun method _ => ?_)
  by_cases same : method.simpleName = name
  · simp [same]
  · simp [same]

end MethodIndex

namespace Stage

variable {store : Store} {condition : Entity → Prop}

theorem keep_methodsThat (sound : store.Sound) (accepts : Entity → Bool) :
    keep store accepts (store.methodsThat condition) =
      store.methodsThat fun method => condition method ∧ accepts method := by
  rw [keep, Store.methodsThat, List.filter_map, List.filter_filter, Store.methodsThat]
  refine congrArg _ (List.filter_congr fun method member => ?_)
  rw [Function.comp_apply, (Store.mem_ofKind sound member).1, Option.any_some]
  by_cases holds : condition method
  · simp [holds]
  · simp [holds]

theorem allMatch_iff {matches' : String → String → Bool} {parameters arguments : List String} :
    allMatch matches' parameters arguments ↔
      List.Forall₂ (fun parameter argument => matches' parameter argument) parameters arguments := by
  induction parameters generalizing arguments with
  | nil =>
      cases arguments with
      | nil => simp [allMatch]
      | cons argument arguments => simp [allMatch]
  | cons parameter parameters ih =>
      cases arguments with
      | nil => simp [allMatch]
      | cons argument arguments =>
          rw [allMatch, Bool.and_eq_true, ih, List.forall₂_cons]

theorem allMatch_exactMatch {parameters arguments : List String} :
    allMatch exactMatch parameters arguments ↔ parameters = arguments := by
  rw [allMatch_iff, ← List.forall₂_eq_eq_eq]
  simp only [exactMatch, beq_iff_eq]

/-- Whether a method belongs to a type, or to one that a chain of inheritance and subtyping leads to
from it. Constructors are not inherited. -/
def Belongs (store : Store) (isConstructor : Bool) (typeName : String) (method : Entity) : Prop :=
  ∃ type owner, store.identity? type = some (.type, typeName) ∧ method.owner = some owner ∧
    if isConstructor then owner = type else Relation.ReflTransGen store.Upward type owner

theorem byReceiver_accepts (sound : store.Sound) {method : Entity}
    (member : method ∈ store.ofKind .method) (isConstructor : Bool) (typeName : String) :
    (method.owner.any fun owner =>
        (if isConstructor then [typeName] else store.withSupertypes typeName).contains
          (store.nameOf owner)) ↔
      Belongs store isConstructor typeName method := by
  obtain ⟨found, kind⟩ := Store.mem_ofKind sound member
  cases owned : method.owner with
  | none => simp [Belongs, owned]
  | some owner =>
      obtain ⟨ownerKind, allowed, name, named⟩ := (sound.entity found).owner owned
      rw [kind] at allowed
      obtain rfl : ownerKind = .type := List.mem_singleton.mp allowed
      simp only [Option.any_some, List.contains_iff_mem, Store.nameOf_eq named, Belongs, owned,
        Option.some.injEq]
      cases isConstructor with
      | true =>
          simp only [↓reduceIte, List.mem_singleton]
          constructor
          · rintro rfl
            exact ⟨owner, owner, named, rfl, rfl⟩
          · rintro ⟨type, _, known, rfl, rfl⟩
            rw [named] at known
            exact (Prod.mk.inj (Option.some.inj known)).2
      | false =>
          simp only [Bool.false_eq_true, ↓reduceIte, Store.mem_withSupertypes sound named]
          constructor
          · rintro ⟨start, known, reached⟩
            exact ⟨start, owner, known, rfl, reached⟩
          · rintro ⟨start, _, known, rfl, reached⟩
            exact ⟨start, known, reached⟩

end Stage

end JavaFacts
