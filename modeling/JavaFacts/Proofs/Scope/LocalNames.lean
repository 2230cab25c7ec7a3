import JavaFacts.Proofs.Naming.SimpleNames
import JavaFacts.Proofs.Scope.Operations

/-!
Names of local variables. All that a walk does to its scopes may lie between two of them. A name can be
taken apart into the method, the simple name and the number, and the numbers that a method gives to one
simple name only go up, so that no two local variables get the same name.
-/

namespace JavaFacts

namespace Scopes

def Operation.request? : Operation → Option LocalRequest
  | .nameLocal asked => some asked
  | _ => none

/-- The names that a run gives to local variables, in order. -/
def localNames : Scopes → List Operation → List String
  | _, [] => []
  | scopes, operation :: operations =>
      (operation.request?.map fun asked => (scopes.nameLocal asked).1).toList ++
        localNames (scopes.after operation) operations

variable {scopes : Scopes} {operation : Operation} {operations : List Operation}

/-- How many local variables of that name the method has so far. -/
def localCount (scopes : Scopes) (asked : LocalRequest) : Nat :=
  scopes.localCounts.getD (asked.method, asked.name) 0

/-- Only naming a local variable counts. -/
theorem localCounts_after (silent : operation.request? = none) :
    (scopes.after operation).localCounts = scopes.localCounts := by
  have step := step_after scopes operation
  generalize scopes.after operation = later at step
  cases step with
  | nameLocal => cases silent
  | _ => rfl

theorem localCount_nameLocal (scopes : Scopes) (asked other : LocalRequest) :
    (scopes.nameLocal asked).2.localCount other =
      if asked.method = other.method ∧ asked.name = other.name then scopes.localCount other + 1
      else scopes.localCount other := by
  rw [localCount, nameLocal, nextLocalName, Std.HashMap.getD_insert]
  simp only [beq_iff_eq, Prod.mk.injEq]
  split
  · rename_i same
    rw [same.1, same.2, localCount]
  · rfl

theorem eq_nameLocal {asked : LocalRequest} (found : operation.request? = some asked) :
    operation = .nameLocal asked := by
  cases operation <;> cases found
  rfl

theorem localCount_le_after (scopes : Scopes) (operation : Operation) (other : LocalRequest) :
    scopes.localCount other ≤ (scopes.after operation).localCount other := by
  cases found : operation.request? with
  | none => rw [localCount, localCount, localCounts_after found]
  | some asked =>
      rw [eq_nameLocal found, after, localCount_nameLocal]
      split
      · exact Nat.le_succ _
      · exact Nat.le_refl _

/-- What stands behind the simple name of a local variable. -/
def numbering : Nat → String
  | 0 => ""
  | ordinal + 1 => "#" ++ toString (ordinal + 1)

/-- The name of a local variable behind `ordinal` others of the same simple name. -/
def LocalRequest.uniqueName (asked : LocalRequest) (ordinal : Nat) : String :=
  asked.methodName ++ "." ++ (asked.name ++ numbering ordinal)

theorem nameLocal_eq (scopes : Scopes) (asked : LocalRequest) :
    (scopes.nameLocal asked).1 = asked.uniqueName (scopes.localCount asked) := by
  rw [LocalRequest.uniqueName, nameLocal, nextLocalName, ← localCount, ← String.append_assoc]
  cases scopes.localCount asked with
  | zero => rw [numbering, String.append_empty]; rfl
  | succ ordinal => rw [numbering, ← String.append_assoc]; rfl

theorem upTo_numbering (ordinal : Nat) : Text.upTo (· == '#') (numbering ordinal) = "" := by
  cases ordinal with
  | zero => rfl
  | succ ordinal => exact Text.upTo_mark rfl

theorem undotted_numbering (ordinal : Nat) : '.' ∉ (numbering ordinal).toList := by
  cases ordinal with
  | zero => exact List.not_mem_nil
  | succ ordinal => exact Text.not_mem_append.mpr ⟨by decide, Naming.not_mem_toString rfl _⟩

theorem numbering_injective : numbering.Injective := by
  intro one other same
  cases one with
  | zero =>
      cases other with
      | zero => rfl
      | succ other => simp [numbering] at same
  | succ one =>
      cases other with
      | zero => simp [numbering] at same
      | succ other =>
          rw [numbering, numbering, String.append_right_inj] at same
          exact Text.toString_inj same

namespace LocalRequest

variable {asked other : LocalRequest} {ordinal number : Nat}

theorem afterLast_uniqueName (segment : Naming.IsSegment asked.name) :
    Text.afterLast (· == '.') (asked.uniqueName ordinal) = asked.name ++ numbering ordinal :=
  afterLast_dot (Text.not_mem_append.mpr ⟨segment.undotted, undotted_numbering ordinal⟩)

theorem beforeLast?_uniqueName (segment : Naming.IsSegment asked.name) :
    Text.beforeLast? (· == '.') (asked.uniqueName ordinal) = some asked.methodName :=
  Text.beforeLast?_mark rfl (Text.not_mem_append.mpr ⟨segment.undotted, undotted_numbering ordinal⟩)

/-- The number comes off with the mark in front of it. -/
theorem simpleName_uniqueName (segment : Naming.IsSegment asked.name) :
    simpleName .localVariable (asked.uniqueName ordinal) = asked.name := by
  rw [simpleName, afterLast_uniqueName segment, Text.upTo_append segment.unnumbered, upTo_numbering,
    String.append_empty]

/-- The method, the simple name and the number can be read off. -/
theorem uniqueName_inj (segment : Naming.IsSegment asked.name) (other_segment : Naming.IsSegment other.name)
    (same : asked.uniqueName ordinal = other.uniqueName number) :
    asked.methodName = other.methodName ∧ asked.name = other.name ∧ ordinal = number := by
  have method : some asked.methodName = some other.methodName := by
    rw [← beforeLast?_uniqueName segment, same, beforeLast?_uniqueName other_segment]
  have name : asked.name = other.name := by
    rw [← simpleName_uniqueName segment, same, simpleName_uniqueName other_segment]
  have last : asked.name ++ numbering ordinal = other.name ++ numbering number := by
    rw [← afterLast_uniqueName segment, same, afterLast_uniqueName other_segment]
  rw [name, String.append_right_inj] at last
  exact ⟨Option.some.inj method, name, numbering_injective last⟩

end LocalRequest

/-- The requests of a run, in order. -/
def localRequests (operations : List Operation) : List LocalRequest :=
  operations.filterMap Operation.request?

theorem localNames_cons (silent : operation.request? = none) :
    scopes.localNames (operation :: operations) = (scopes.after operation).localNames operations := by
  rw [localNames, silent]
  rfl

theorem localNames_cons_nameLocal (asked : LocalRequest) :
    scopes.localNames (.nameLocal asked :: operations) =
      asked.uniqueName (scopes.localCount asked) :: (scopes.nameLocal asked).2.localNames operations :=
  congrArg (· :: _) (nameLocal_eq scopes asked)

/-- A run names what is asked for, under numbers from the present counts on. -/
theorem exists_of_mem_localNames {name : String} (given : name ∈ scopes.localNames operations) :
    ∃ asked ∈ localRequests operations, ∃ ordinal,
      scopes.localCount asked ≤ ordinal ∧ name = asked.uniqueName ordinal := by
  induction operations generalizing scopes with
  | nil => cases given
  | cons operation operations ih =>
      have later (given : name ∈ (scopes.after operation).localNames operations) :
          ∃ asked ∈ localRequests (operation :: operations), ∃ ordinal,
            scopes.localCount asked ≤ ordinal ∧ name = asked.uniqueName ordinal := by
        obtain ⟨asked, listed, ordinal, counted, named⟩ := ih given
        refine ⟨asked, ?_, ordinal, (localCount_le_after _ _ _).trans counted, named⟩
        exact ((List.sublist_cons_self _ _).filterMap _).subset listed
      cases found : operation.request? with
      | none => exact later (localNames_cons found ▸ given)
      | some asked =>
          obtain rfl := eq_nameLocal found
          rw [localNames_cons_nameLocal] at given
          rcases List.mem_cons.mp given with rfl | given
          · exact ⟨asked, List.mem_cons_self, _, Nat.le_refl _, rfl⟩
          · exact later given

/-- The simple names are segments, and a method always comes with the same name, which is the name of no
other method. -/
structure Consistent (requests : List LocalRequest) : Prop where
  segments : ∀ asked ∈ requests, Naming.IsSegment asked.name
  methods : ∀ asked ∈ requests, ∀ other ∈ requests,
    asked.method = other.method ↔ asked.methodName = other.methodName

theorem Consistent.tail {asked : LocalRequest} {requests : List LocalRequest}
    (consistent : Consistent (asked :: requests)) : Consistent requests where
  segments other listed := consistent.segments other (List.mem_cons_of_mem _ listed)
  methods other listed another too :=
    consistent.methods other (List.mem_cons_of_mem _ listed) another (List.mem_cons_of_mem _ too)

theorem nodup_localNames (consistent : Consistent (localRequests operations)) :
    (scopes.localNames operations).Nodup := by
  induction operations generalizing scopes with
  | nil => exact List.nodup_nil
  | cons operation operations ih =>
      cases found : operation.request? with
      | none =>
          have same : localRequests (operation :: operations) = localRequests operations :=
            List.filterMap_cons_none found
          rw [localNames_cons found]
          exact ih (same ▸ consistent)
      | some asked =>
          obtain rfl := eq_nameLocal found
          rw [localNames_cons_nameLocal, List.nodup_cons]
          refine ⟨fun again => ?_, ih consistent.tail⟩
          obtain ⟨other, listed, ordinal, counted, same⟩ := exists_of_mem_localNames again
          have listed : other ∈ asked :: localRequests operations := List.mem_cons_of_mem _ listed
          have first : asked ∈ asked :: localRequests operations := List.mem_cons_self
          obtain ⟨method, name, rfl⟩ := LocalRequest.uniqueName_inj
            (consistent.segments asked first) (consistent.segments other listed) same
          -- the count went past the number that the first of the two has
          have equal := (consistent.methods asked first other listed).mpr method
          have present : scopes.localCount asked = scopes.localCount other := by
            rw [localCount, localCount, equal, name]
          rw [localCount_nameLocal, if_pos ⟨equal, name⟩, present] at counted
          exact Nat.not_succ_le_self _ counted

end Scopes

end JavaFacts
