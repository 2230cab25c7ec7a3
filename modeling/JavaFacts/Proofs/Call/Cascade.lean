import JavaFacts.Call.Resolution
import JavaFacts.Proofs.Call.Stages

/-!
The search for the target of a call in a sound store: which methods each stage leaves over, and
which of them the call is taken to mean. The condition of each stage is stricter than the one before.
-/

namespace JavaFacts

namespace Call

def Named (call : Call) (method : Entity) : Prop :=
  method.simpleName = call.name

def Counted (call : Call) (method : Entity) : Prop :=
  call.Named method ∧ method.parameterTypes.length = call.arguments.length

/-- Any method passes if the type of the receiver is unknown. -/
def Received (store : Store) (call : Call) (method : Entity) : Prop :=
  call.Counted method ∧ ∀ typeName, call.receiverType = some typeName →
    Stage.Belongs store call.kind.isConstructor typeName method

def Exact (store : Store) (call : Call) (method : Entity) : Prop :=
  call.Received store method ∧ method.parameterTypes = call.argumentTypes

/-- Two types match softly if they are equal or both are undefined. -/
def Soft (store : Store) (call : Call) (method : Entity) : Prop :=
  call.Received store method ∧
    List.Forall₂ (fun parameter argument => parameter = argument ∨
      (Naming.isUndefined parameter ∧ Naming.isUndefined argument))
      method.parameterTypes call.argumentTypes

/-- The candidates of a call are the methods that satisfy the conditions of the stages. -/
structure Searched (store : Store) (call : Call) : Prop where
  byName : call.candidates.byName = store.methodsThat call.Named
  byCount : call.candidates.byCount = store.methodsThat call.Counted
  byReceiver : call.candidates.byReceiver = store.methodsThat (call.Received store)
  exact : call.candidates.exact = store.methodsThat (call.Exact store)
  soft : call.candidates.soft = store.methodsThat (call.Soft store)

variable {store : Store}

theorem softMatch_iff {parameter argument : String} :
    Stage.softMatch parameter argument ↔ parameter = argument ∨
      (Naming.isUndefined parameter ∧ Naming.isUndefined argument) := by
  rw [Stage.softMatch, Bool.or_eq_true, Bool.and_eq_true, beq_iff_eq]

theorem byReceiver_eq (sound : store.Sound) (call : Call) :
    (match call.receiverType with
      | none => store.methodsThat call.Counted
      | some type =>
          Stage.byReceiver store
            (if call.kind.isConstructor then [type] else store.withSupertypes type)
            (store.methodsThat call.Counted)) =
      store.methodsThat (call.Received store) := by
  cases receiver : call.receiverType with
  | none =>
      refine Store.methodsThat_congr fun method _ => ⟨fun counted => ⟨counted, ?_⟩, And.left⟩
      rw [receiver]
      exact fun _ => (nomatch ·)
  | some typeName =>
      dsimp only
      rw [Stage.byReceiver, Stage.keep_methodsThat sound]
      refine Store.methodsThat_congr fun method member => and_congr_right fun _ => ?_
      rw [Stage.byReceiver_accepts sound member, receiver]
      simp only [Option.some.injEq, forall_eq']

theorem searched_of_candidatesIn (sound : store.Sound) {call : Call}
    (found : call.candidates = call.candidatesIn store (MethodIndex.ofStore store)) :
    call.Searched store := by
  have byName : call.candidates.byName = store.methodsThat call.Named := by
    rw [found]
    exact MethodIndex.named_ofStore store call.name
  have byCount : call.candidates.byCount = store.methodsThat call.Counted := by
    have stage : call.candidates.byCount =
        Stage.byCount store call.arguments.length call.candidates.byName := by rw [found]; rfl
    rw [stage, byName, Stage.byCount, Stage.keep_methodsThat sound]
    simp only [beq_iff_eq]
    rfl
  have byReceiver : call.candidates.byReceiver = store.methodsThat (call.Received store) := by
    have stage : call.candidates.byReceiver = match call.receiverType with
        | none => call.candidates.byCount
        | some type =>
            Stage.byReceiver store
              (if call.kind.isConstructor then [type] else store.withSupertypes type)
              call.candidates.byCount := by rw [found]; rfl
    rw [stage, byCount]
    exact byReceiver_eq sound call
  refine ⟨byName, byCount, byReceiver, ?_, ?_⟩
  · have stage : call.candidates.exact = Stage.byParameterTypes store Stage.exactMatch
        call.argumentTypes call.candidates.byReceiver := by rw [found]; rfl
    rw [stage, byReceiver, Stage.byParameterTypes, Stage.keep_methodsThat sound]
    simp only [Stage.allMatch_exactMatch]
    rfl
  · have stage : call.candidates.soft = Stage.byParameterTypes store Stage.softMatch
        call.argumentTypes call.candidates.byReceiver := by rw [found]; rfl
    rw [stage, byReceiver, Stage.byParameterTypes, Stage.keep_methodsThat sound]
    simp only [Stage.allMatch_iff, softMatch_iff]
    rfl

theorem searched_resolve (sound : store.Sound) (call : Call) :
    (call.resolve store (MethodIndex.ofStore store)).Searched store :=
  searched_of_candidatesIn sound rfl

namespace Searched

variable {call : Call}

theorem soft_sublist (searched : call.Searched store) :
    call.candidates.soft.Sublist call.candidates.byReceiver := by
  rw [searched.soft, searched.byReceiver]
  exact Store.methodsThat_sublist fun _ soft => soft.1

theorem exact_sublist (searched : call.Searched store) :
    call.candidates.exact.Sublist call.candidates.soft := by
  rw [searched.exact, searched.soft]
  refine Store.methodsThat_sublist fun method ⟨received, same⟩ => ⟨received, ?_⟩
  rw [same]
  exact List.forall₂_same.mpr fun _ _ => .inl rfl

/-- Whatever a search leaves over is a method. -/
theorem holds_of_mem (sound : store.Sound) (searched : call.Searched store) {method : EntityId}
    (member : method ∈ call.candidates.byReceiver) : store.Holds .method method := by
  rw [searched.byReceiver] at member
  exact Store.holds_of_mem_methodsThat sound member

end Searched

end Call

namespace Candidates

variable {candidates : Candidates}

theorem best_eq_unique_iff {method : EntityId} :
    candidates.best = .unique method ↔ candidates.exact = [method] ∨
      (candidates.exact = [] ∧ candidates.soft = [method]) ∨
      (candidates.exact = [] ∧ candidates.soft = [] ∧ candidates.byReceiver = [method]) := by
  rcases candidates with ⟨_, _, byReceiver, exact, soft⟩
  rcases exact with _ | ⟨first, _ | ⟨second, rest⟩⟩
  · rcases soft with _ | ⟨first, _ | ⟨second, rest⟩⟩
    · rcases byReceiver with _ | ⟨first, _ | ⟨second, rest⟩⟩
      · simp [best]
      · simp [best]
      · simp [best]
    · simp [best]
    · simp [best]
  · simp [best]
  · simp [best]

theorem best_eq_ambiguous_iff {methods : List EntityId} :
    candidates.best = .ambiguous methods ↔ 2 ≤ methods.length ∧
      (candidates.exact = methods ∨ (candidates.exact = [] ∧ candidates.soft = methods)) := by
  rcases candidates with ⟨_, _, byReceiver, exact, soft⟩
  constructor
  · intro several
    rcases exact with _ | ⟨first, _ | ⟨second, rest⟩⟩
    · rcases soft with _ | ⟨first, _ | ⟨second, rest⟩⟩
      · rcases byReceiver with _ | ⟨first, _ | ⟨second, rest⟩⟩ <;> cases several
      · cases several
      · cases several
        exact ⟨by simp, .inr ⟨rfl, rfl⟩⟩
    · cases several
    · cases several
      exact ⟨by simp, .inl rfl⟩
  · rintro ⟨several, found⟩
    obtain ⟨first, second, rest, rfl⟩ : ∃ first second rest, methods = first :: second :: rest := by
      rcases methods with _ | ⟨first, _ | ⟨second, rest⟩⟩
      · cases several
      · exact absurd several (by simp)
      · exact ⟨first, second, rest, rfl⟩
    dsimp only at found
    rcases found with rfl | ⟨rfl, rfl⟩
    · rfl
    · rfl

end Candidates

end JavaFacts
