import JavaFacts.Proofs.Scope.Passages
import Mathlib.Data.List.Induction

/-!
The order in which scopes are left. If types, methods and blocks are each left from the last one on, and
nothing is open at the end, then types nest among types, and methods and blocks nest as far as blocks are
left at all: what goes with a method is never left later.
-/

namespace JavaFacts.Scopes

variable {passages before behind : List Passage} {passage : Passage} {types fewer : List Nat}
  {visits left : Visits} {entry later : Nat} {method : Option Nat}

theorem Opened.records (opened : Opened passages types visits) : Records passages types visits := by
  induction opened with
  | start =>
      exact {
        lt_of_left := nofun
        mem_types := fun entry => iff_of_false List.not_mem_nil fun isOpen => nomatch isOpen.1.lt
        mem_methods := fun entry => iff_of_false List.not_mem_nil fun isOpen => nomatch isOpen.1.lt
        mem_blocks := fun method blocks holds entry => by
          cases holds
          exact iff_of_false List.not_mem_nil fun entered => nomatch entered.1.isEntry.lt
        types_ordered := .nil
        stack_ordered := .nil }
  | pass _ passes ih =>
      cases passes with
      | enterType frame => exact ih.enterType frame
      | enterMethod entity name declaringType => exact ih.enterMethod entity name declaringType
      | enterBlock span => exact ih.enterBlock span
      | leave closes => exact ih.leave closes

theorem Opened.last (opened : Opened (passages ++ [passage]) fewer left) :
    ∃ types visits, Opened passages types visits ∧
      Passes (entered passages).length passage types visits fewer left := by
  generalize whole : passages ++ [passage] = all at opened
  cases opened with
  | start => exact absurd whole (List.append_ne_nil_of_right_ne_nil _ (List.cons_ne_nil _ _))
  | pass opened passes =>
      obtain ⟨rfl, same⟩ := List.append_inj' whole rfl
      obtain rfl := (List.cons.inj same).1
      exact ⟨_, _, opened, passes⟩

theorem Opened.earlier (opened : Opened (before ++ behind) types visits) :
    ∃ types visits, Opened before types visits := by
  induction behind using List.reverseRecOn generalizing types visits with
  | nil => exact ⟨types, visits, List.append_nil before ▸ opened⟩
  | append_singleton behind passage ih =>
      rw [← List.append_assoc] at opened
      obtain ⟨_, _, shorter, -⟩ := opened.last
      exact ih shorter

/-- What is left was the last one of its kind then. -/
theorem Opened.closes (opened : Opened (before ++ .leave entry :: behind) types visits) :
    ∃ types visits fewer left, Opened before types visits ∧ Closes entry types visits fewer left ∧
      Opened (before ++ [.leave entry]) fewer left := by
  rw [List.append_cons] at opened
  obtain ⟨fewer, left, here⟩ := opened.earlier
  obtain ⟨types, visits, earlier, passes⟩ := here.last
  cases passes with
  | leave closes => exact ⟨types, visits, fewer, left, earlier, closes, here⟩

section Closes

theorem Closes.types_eq (records : Records passages types visits)
    (closes : Closes entry types visits fewer left) (isEntry : IsEntry passages .type entry) :
    types = entry :: fewer := by
  cases closes with
  | type => rfl
  | method =>
      have isOpen := (records.mem_methods entry).mp List.mem_cons_self
      exact nomatch isEntry.kind_unique isOpen.1
  | block =>
      have member : entry ∈ (left.push entry).stack := by
        rw [Visits.stack_push]
        exact List.mem_cons_self
      rcases records.isOpen_of_mem_stack member with isOpen | isOpen
      · exact nomatch isEntry.kind_unique isOpen.1
      · exact nomatch isEntry.kind_unique isOpen.1

/-- A method or block is on the stack, and everything behind it goes with it. -/
theorem Closes.stack (records : Records passages types visits)
    (closes : Closes entry types visits fewer left) (other : ¬IsEntry passages .type entry) :
    entry ∈ visits.stack ∧ ∀ remaining ∈ left.stack, remaining < entry := by
  have ordered := records.stack_ordered
  cases closes with
  | type => exact absurd ((records.mem_types entry).mp List.mem_cons_self).1 other
  | method =>
      rw [Visits.stack] at ordered ⊢
      exact ⟨List.mem_append_right _ List.mem_cons_self, fun remaining =>
        List.rel_of_pairwise_cons (List.pairwise_append.mp ordered).2.1⟩
  | block =>
      rw [Visits.stack_push] at ordered ⊢
      exact ⟨List.mem_cons_self, fun remaining => List.rel_of_pairwise_cons ordered⟩

theorem Passes.mem_stack {next remaining : Nat} (passes : Passes next passage types visits fewer left)
    (member : remaining ∈ left.stack) : remaining ∈ visits.stack ∨ remaining = next := by
  cases passes with
  | enterType => exact .inl member
  | enterMethod =>
      rw [Visits.stack, List.nil_append, List.mem_cons] at member
      exact member.symm
  | enterBlock =>
      rw [Visits.stack_push, List.mem_cons] at member
      exact member.symm
  | leave closes =>
      cases closes with
      | type => exact .inl member
      | method => exact .inl (List.mem_append_right _ (List.mem_cons_of_mem _ member))
      | block =>
          rw [Visits.stack_push]
          exact .inl (List.mem_cons_of_mem _ member)

end Closes

/-- What went when a method or block was left does not come back. -/
theorem Opened.lt_or_le_of_mem_stack {remaining : Nat}
    (opened : Opened (before ++ .leave entry :: behind) types visits)
    (other : ¬IsEntry before .type entry) (member : remaining ∈ visits.stack) :
    remaining < entry ∨ (entered before).length ≤ remaining := by
  induction behind using List.reverseRecOn generalizing types visits with
  | nil =>
      obtain ⟨_, _, earlier, passes⟩ := opened.last
      cases passes with
      | leave closes => exact .inl ((closes.stack earlier.records other).2 remaining member)
  | append_singleton behind passage ih =>
      rw [← List.cons_append, ← List.append_assoc] at opened
      obtain ⟨_, _, earlier, passes⟩ := opened.last
      rcases passes.mem_stack member with held | rfl
      · exact ih earlier held
      · rw [entered_append, List.length_append]
        exact .inr (Nat.le_add_right _ _)

theorem EnteredIn.unique {one other : Option Nat} (first : EnteredIn passages one entry)
    (second : EnteredIn passages other entry) : one = other := by
  induction passages using List.reverseRecOn with
  | nil => exact nomatch first.isEntry.lt
  | append_singleton passages passage ih =>
      rcases enteredIn_snoc.mp first with first | ⟨-, new, first⟩
      · rcases enteredIn_snoc.mp second with second | ⟨-, new, -⟩
        · exact ih first second
        · exact absurd new (Nat.ne_of_lt first.isEntry.lt)
      · rcases enteredIn_snoc.mp second with second | ⟨-, -, second⟩
        · exact absurd new (Nat.ne_of_lt second.isEntry.lt)
        · exact first.unique second

/-- A block is the last one in its method, or outside of all, that was entered and not left. -/
theorem Closes.le_of_same_method (records : Records passages types visits)
    (closes : Closes entry types visits fewer left) (here : EnteredIn passages method entry)
    (there : EnteredIn passages method later) (unleft : .leave later ∉ passages) : later ≤ entry := by
  have isEntry := here.isEntry
  cases closes with
  | type => exact nomatch isEntry.kind_unique ((records.mem_types entry).mp List.mem_cons_self).1
  | method => exact nomatch isEntry.kind_unique ((records.mem_methods entry).mp List.mem_cons_self).1
  | block =>
      obtain ⟨blocks, holds⟩ := Visits.exists_holds_push entry left
      obtain ⟨innermost, -⟩ := (records.mem_blocks _ _ holds entry).mp List.mem_cons_self
      obtain rfl := here.unique innermost
      have member := Visits.mem_stack_iff.mpr
        (.inr ⟨_, _, holds, (records.mem_blocks _ _ holds later).mpr ⟨there, unleft⟩⟩)
      have ordered := records.stack_ordered
      rw [Visits.stack_push] at ordered member
      rcases List.mem_cons.mp member with rfl | below
      · exact Nat.le_refl _
      · exact Nat.le_of_lt (List.rel_of_pairwise_cons ordered below)

/-- Types and methods are left, and so are blocks outside of methods. Types nest among types; methods and
blocks nest as far as blocks are left; and the blocks entered in one method nest among each other. -/
structure NestedByKind (passages : List Passage) : Prop where
  left_once : ∀ entry, IsEntry passages .type entry ∨ IsEntry passages .method entry ∨
    EnteredIn passages none entry → passages.count (.leave entry) = 1
  types_inside : ∀ before entry behind, passages = before ++ .leave entry :: behind →
    ∀ later, entry < later → IsEntry before .type entry → IsEntry before .type later →
      .leave later ∈ before
  inside_methods_and_blocks : ∀ before entry behind, passages = before ++ .leave entry :: behind →
    ∀ later, entry < later → later < (entered before).length → ¬IsEntry before .type entry →
      ¬IsEntry before .type later → .leave later ∈ passages → .leave later ∈ before
  inside_method : ∀ before entry behind, passages = before ++ .leave entry :: behind →
    ∀ method later, entry < later → EnteredIn before method entry → EnteredIn before method later →
      .leave later ∈ before

theorem Opened.nestedByKind (opened : Opened passages [] (.outside []))
    (once : ∀ entry, passages.count (.leave entry) ≤ 1) : NestedByKind passages where
  left_once entry isEntry := by
    have records := opened.records
    have left : .leave entry ∈ passages := by
      by_contra unleft
      rcases isEntry with isEntry | isEntry | enteredIn
      · exact List.not_mem_nil ((records.mem_types entry).mpr ⟨isEntry, unleft⟩)
      · exact List.not_mem_nil ((records.mem_methods entry).mpr ⟨isEntry, unleft⟩)
      · exact List.not_mem_nil
          ((records.mem_blocks _ _ (.outside []) entry).mpr ⟨enteredIn, unleft⟩)
    exact Nat.le_antisymm (once entry) (List.count_pos_iff.mpr left)
  types_inside := by
    rintro before entry behind rfl later beyond isEntry isLater
    obtain ⟨types, visits, fewer, _, earlier, closes, -⟩ := opened.closes
    have records := earlier.records
    obtain rfl := closes.types_eq records isEntry
    by_contra unleft
    rcases List.mem_cons.mp ((records.mem_types later).mpr ⟨isLater, unleft⟩) with rfl | below
    · exact Nat.lt_irrefl _ beyond
    · exact Nat.lt_asymm beyond (List.rel_of_pairwise_cons records.types_ordered below)
  inside_methods_and_blocks := by
    rintro before entry behind rfl later beyond known notType other left
    rcases List.mem_append.mp left with earlier | here
    · exact earlier
    · rcases List.mem_cons.mp here with same | here
      · exact absurd (Passage.leave.inj same).symm (Nat.ne_of_lt beyond)
      · obtain ⟨between, rest, rfl⟩ := List.append_of_mem here
        rw [← List.cons_append, ← List.append_assoc] at opened
        obtain ⟨_, _, _, _, reached, closes, -⟩ := opened.closes
        have still : ¬IsEntry (before ++ .leave entry :: between) .type later := by
          rwa [isEntry_append_iff known]
        rcases reached.lt_or_le_of_mem_stack notType (closes.stack reached.records still).1
          with gone | unknown
        · exact absurd beyond (Nat.lt_asymm gone)
        · exact absurd known (Nat.not_lt.mpr unknown)
  inside_method := by
    rintro before entry behind rfl method later beyond here there
    obtain ⟨_, _, _, _, earlier, closes, -⟩ := opened.closes
    by_contra unleft
    exact Nat.not_lt.mpr (closes.le_of_same_method earlier.records here there unleft) beyond

end JavaFacts.Scopes
