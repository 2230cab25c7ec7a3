import JavaFacts.Proofs.Scope.Operations
import Mathlib.Logic.Relation

/-!
The arena of blocks. Blocks are only added to it, each with the block that is open as the one around it,
so whatever is entered, left and refused, they form a forest: a depth counts the blocks around, and to
search outwards for a block is to ask whether it is one of them.
-/

namespace JavaFacts.Scopes

open Relation (ReflTransGen TransGen)

variable {scopes later : Scopes} {operation : Operation} {id inner outer sought : BlockId}

theorem Reachable.step (reachable : Reachable scopes) (step : Step scopes operation later) :
    Reachable later := by
  cases step with
  | refused => exact reachable
  | enterType frame => exact reachable.enterType frame
  | leaveType stack => exact reachable.leaveType (leaveType_eq_ok_iff.mpr ⟨_, stack, rfl, rfl⟩)
  | enterMethod entity name declaringType => exact reachable.enterMethod entity name declaringType
  | leaveMethod stack => exact reachable.leaveMethod (leaveMethod_eq_ok_iff.mpr ⟨_, stack, rfl, rfl⟩)
  | enterBlock span => exact reachable.enterBlock span
  | leaveBlock current => exact reachable.leaveBlock (leaveBlock_eq_ok_iff.mpr ⟨current, rfl⟩)
  | seedAnonymous typeName => exact reachable.seedAnonymous typeName
  | nextAnonymous typeName => exact reachable.nextAnonymous typeName
  | placeLocal entity block => exact reachable.placeLocal entity block
  | nameLocal asked => exact reachable.nextLocalName asked.method asked.methodName asked.name
  | recordViolation error => exact reachable.recordViolation error
  | takeViolation => exact reachable.takeViolation

theorem Reachable.afterAll (reachable : Reachable scopes) (operations : List Operation) :
    Reachable (scopes.afterAll operations) := by
  induction operations generalizing scopes with
  | nil => exact reachable
  | cons operation operations ih => exact ih (reachable.step (step_after scopes operation))

/-- The depth of a block is one more than that of the block around it, and zero if there is none. -/
def CountsOuter (scopes : Scopes) (block : Block) : Prop :=
  match block.outer with
  | none => block.depth = 0
  | some around => ∃ outer, scopes.block? around = some outer ∧ block.depth = outer.depth + 1

theorem CountsOuter.grown {block : Block} (counts : scopes.CountsOuter block)
    (kept : ∀ id block, scopes.block? id = some block → later.block? id = some block) :
    later.CountsOuter block := by
  unfold CountsOuter at counts ⊢
  split
  · rename_i outermost
    rwa [outermost] at counts
  · rename_i around inside
    rw [inside] at counts
    obtain ⟨outer, found, depth⟩ := counts
    exact ⟨outer, kept around outer found, depth⟩

theorem CountsOuter.depth_eq_zero_iff {block : Block} (counts : scopes.CountsOuter block) :
    block.depth = 0 ↔ block.outer = none := by
  unfold CountsOuter at counts
  split at counts
  · rename_i outermost
    exact iff_of_true counts outermost
  · rename_i around inside
    obtain ⟨outer, -, depth⟩ := counts
    rw [depth, inside]
    exact iff_of_false (Nat.succ_ne_zero _) (Option.some_ne_none _)

theorem Reachable.countsOuter (reachable : Reachable scopes) :
    ∀ id block, scopes.block? id = some block → scopes.CountsOuter block := by
  induction reachable with
  | empty => exact fun _ _ => (nomatch ·)
  | enterType _ _ ih | enterMethod _ _ _ _ ih | seedAnonymous _ _ ih | nextAnonymous _ _ ih
  | placeLocal _ _ _ ih | nextLocalName _ _ _ _ ih | recordViolation _ _ ih | takeViolation _ ih =>
      exact ih
  | leaveType _ left ih =>
      obtain ⟨_, -, -, rfl⟩ := leaveType_eq_ok_iff.mp left
      exact ih
  | leaveMethod _ left ih =>
      obtain ⟨_, -, -, rfl⟩ := leaveMethod_eq_ok_iff.mp left
      exact ih
  | leaveBlock _ left ih =>
      obtain ⟨-, rfl⟩ := leaveBlock_eq_ok_iff.mp left
      exact ih
  | @enterBlock scopes span reachable ih =>
      intro id block found
      have kept (id : BlockId) (block : Block) (found : scopes.block? id = some block) :=
        block?_enterBlock_of_block? span found
      simp only [block?, Scopes.enterBlock, Array.getElem?_push] at found
      split at found
      · cases found
        refine CountsOuter.grown ?_ kept
        unfold CountsOuter
        cases current : scopes.block with
        | none => rfl
        | some around =>
            have known := Array.getElem?_eq_getElem (reachable.nested.current around current)
            exact ⟨_, known, by simp only [Option.bind_some, block?, known]⟩
      · exact (ih id block found).grown kept

/-- The search for a block from another one outwards, without a bound on its steps, and its outcome. -/
inductive SearchedFrom (scopes : Scopes) (sought : BlockId) : Option BlockId → Bool → Prop where
  | found : SearchedFrom scopes sought (some sought) true
  | onwards {id : BlockId} {outcome : Bool} : id ≠ sought →
      SearchedFrom scopes sought (scopes.outer? id) outcome → SearchedFrom scopes sought (some id) outcome
  | ended : SearchedFrom scopes sought none false

namespace Nested

theorem outer_lt (nested : Nested scopes) (around : scopes.outer? id = some outer) : outer < id := by
  obtain ⟨block, found, same⟩ := Option.bind_eq_some_iff.mp around
  exact nested.outer id block found outer same

theorem mem_outerBlocks_iff (nested : Nested scopes) {steps : Nat} (enough : inner ≤ steps) :
    outer ∈ scopes.outerBlocks steps inner ↔
      TransGen (fun inner outer => scopes.outer? inner = some outer) inner outer := by
  induction steps generalizing inner with
  | zero =>
      refine iff_of_false List.not_mem_nil fun around => ?_
      obtain ⟨next, first, -⟩ := TransGen.head'_iff.mp around
      exact Nat.not_lt_zero next (Nat.lt_of_lt_of_le (nested.outer_lt first) enough)
  | succ steps ih =>
      rw [outerBlocks, ← outer?, TransGen.head'_iff]
      cases first : scopes.outer? inner with
      | none => simp
      | some next =>
          have older : next ≤ steps :=
            Nat.le_of_lt_succ (Nat.lt_of_lt_of_le (nested.outer_lt first) enough)
          simp only [List.mem_cons, ih older, Option.some.injEq, exists_eq_left',
            Relation.reflTransGen_iff_eq_or_transGen]

theorem encloses_iff (nested : Nested scopes) :
    scopes.encloses outer inner ↔
      ReflTransGen (fun inner outer => scopes.outer? inner = some outer) inner outer := by
  rw [encloses, ancestry, List.contains_iff_mem, List.mem_cons,
    nested.mem_outerBlocks_iff (Nat.le_refl _), Relation.reflTransGen_iff_eq_or_transGen]

theorem le_of_encloses (nested : Nested scopes) (encloses : scopes.encloses outer inner) :
    outer ≤ inner := by
  induction nested.encloses_iff.mp encloses with
  | refl => exact Nat.le_refl _
  | tail within around ih =>
      exact Nat.le_trans (Nat.le_of_lt (nested.outer_lt around)) (ih (nested.encloses_iff.mpr within))

/-- The search outwards comes to an end, and its outcome is what is answered. -/
theorem searchedFrom (nested : Nested scopes) (sought id : BlockId) :
    SearchedFrom scopes sought (some id) (scopes.encloses sought id) := by
  induction id using Nat.strongRecOn with
  | ind id ih =>
      by_cases same : id = sought
      · subst same
        rw [nested.encloses_iff.mpr .refl]
        exact .found
      · refine .onwards same ?_
        have outwards : scopes.encloses sought id ↔
            ∃ next, scopes.outer? id = some next ∧ scopes.encloses sought next := by
          simp only [nested.encloses_iff]
          exact ReflTransGen.cases_head_iff.trans (or_iff_right same)
        cases first : scopes.outer? id with
        | none =>
            rw [first] at outwards
            rw [Bool.eq_false_iff.mpr fun encloses => nomatch (outwards.mp encloses).choose_spec.1]
            exact .ended
        | some next =>
            have next_iff : scopes.encloses sought id = scopes.encloses sought next := by
              rw [Bool.eq_iff_iff, outwards, first]
              simp
            rw [next_iff]
            exact ih next (nested.outer_lt first)

end Nested

/-- Behind any operations, also refused ones, the blocks form a forest. The block around a block is
older and one level up; the block that is open and those that methods hide exist; the search outwards
ends and finds what encloses a block, which is an order; and what is refused changes nothing. -/
theorem blocks_form_forest (operations : List Operation) :
    let scopes := (∅ : Scopes).afterAll operations
    (∀ id block, scopes.block? id = some block → (block.depth = 0 ↔ block.outer = none) ∧
      ∀ around, block.outer = some around → around < id ∧
        ∃ outer, scopes.block? around = some outer ∧ block.depth = outer.depth + 1) ∧
      (∀ id, scopes.block = some id → ∃ block, scopes.block? id = some block) ∧
      (∀ frame ∈ scopes.methods, ∀ id, frame.hidden = some id →
        ∃ block, scopes.block? id = some block) ∧
      (∀ outer inner, SearchedFrom scopes outer (some inner) (scopes.encloses outer inner)) ∧
      (∀ outer inner, scopes.encloses outer inner ↔
        ReflTransGen (fun inner outer => scopes.outer? inner = some outer) inner outer) ∧
      (∀ id, scopes.encloses id id) ∧
      (∀ outer middle inner, scopes.encloses outer middle → scopes.encloses middle inner →
        scopes.encloses outer inner) ∧
      (∀ one other, scopes.encloses one other → scopes.encloses other one → one = other) ∧
      ∀ operation error, scopes.refusal? operation = some error → scopes.after operation = scopes := by
  intro scopes
  have reachable : Reachable scopes := Reachable.empty.afterAll operations
  have nested := reachable.nested
  have exists_of_lt (id : BlockId) (known : id < scopes.blocks.size) :
      ∃ block, scopes.block? id = some block := ⟨_, Array.getElem?_eq_getElem known⟩
  refine ⟨fun id block found => ?_, fun id current => exists_of_lt id (nested.current id current),
    fun frame member id hides => exists_of_lt id (nested.hidden frame member id hides),
    nested.searchedFrom, fun _ _ => nested.encloses_iff, fun _ => nested.encloses_iff.mpr .refl,
    fun outer middle inner first second => ?_, fun one other first second => ?_,
    fun _ _ => after_of_refused⟩
  · have counts := reachable.countsOuter id block found
    refine ⟨counts.depth_eq_zero_iff, fun around inside => ⟨nested.outer id block found around inside, ?_⟩⟩
    rwa [CountsOuter, inside] at counts
  · exact nested.encloses_iff.mpr ((nested.encloses_iff.mp second).trans (nested.encloses_iff.mp first))
  · exact Nat.le_antisymm (nested.le_of_encloses first) (nested.le_of_encloses second)

/-- Two blocks, hidden by a method with a block of its own; on the way three leaves are refused. -/
theorem blocks_form_forest_of_hidden_blocks :
    let scopes := (∅ : Scopes).afterAll
      [.enterBlock ⟨0, 100⟩, .enterBlock ⟨10, 40⟩, .leaveBlock 0, .enterMethod 7 "A$0!.run()" 2,
        .leaveType 1, .enterBlock ⟨20, 10⟩, .leaveMethod 2]
    scopes.block? 1 = some ⟨⟨10, 40⟩, some 0, 1⟩ ∧
      (∃ outer, scopes.block? 0 = some outer ∧ 1 = outer.depth + 1) ∧
      SearchedFrom scopes 0 (some 1) true ∧ SearchedFrom scopes 1 (some 2) false ∧
      scopes.after (.leaveBlock 1) = scopes := by
  intro scopes
  obtain ⟨forest, -, -, searched, -, -, -, -, refused⟩ := blocks_form_forest
    [.enterBlock ⟨0, 100⟩, .enterBlock ⟨10, 40⟩, .leaveBlock 0, .enterMethod 7 "A$0!.run()" 2,
      .leaveType 1, .enterBlock ⟨20, 10⟩, .leaveMethod 2]
  have inner : scopes.block? 1 = some ⟨⟨10, 40⟩, some 0, 1⟩ := rfl
  obtain ⟨-, outer⟩ := forest 1 _ inner
  exact ⟨inner, (outer 0 rfl).2, searched 0 1, searched 1 2,
    refused (.leaveBlock 1) (.blockMismatch 1 (some 2)) rfl⟩

end JavaFacts.Scopes
