import JavaFacts.Call.Resolution
import JavaFacts.Proofs.Facts.Soundness
import JavaFacts.Proofs.Scope.Shadowing
import JavaFacts.Proofs.Text.Cut

/-!
Which variables a snapshot holds when it is taken, and what that decides for the search that comes
later. A local variable counts for the whole block that it is placed in, as long as its declaration
ends inside of the block of the call; and between a variable of the method and a field of the same
name nothing but the snapshot decides.
-/

namespace JavaFacts

namespace Snapshot

variable {store : Store} {scopes : Scopes} {method : EntityId} {name : String}

theorem lookup_capture (block : Option BlockId) :
    (capture store scopes method block).lookup name =
      narrowest name (levels store scopes method block (blocksAround scopes block) []) := by
  rw [capture_eq_levels, lookup_addLevels, contains_empty]
  rfl

/-- An entity is found in the first level that has one of the name. -/
theorem mem_narrowest_iff {levels : List (List Entity)} {id : EntityId} :
    id ∈ narrowest name levels ↔ ∃ inner level wider, levels = inner ++ level :: wider ∧
      (∀ hidden ∈ inner, ∀ other ∈ hidden, other.simpleName ≠ name) ∧
      ∃ entity ∈ level, entity.simpleName = name ∧ entity.id = id := by
  induction levels with
  | nil =>
      refine iff_of_false List.not_mem_nil ?_
      rintro ⟨inner, level, wider, split, -⟩
      exact List.append_ne_nil_of_right_ne_nil inner (List.cons_ne_nil level wider) split.symm
  | cons first rest ih =>
      cases named : first.any (·.simpleName == name) with
      | true =>
          rw [narrowest_cons_of_any rest named]
          constructor
          · intro member
            obtain ⟨entity, kept, same⟩ := List.mem_map.mp member
            obtain ⟨listed, fits⟩ := List.mem_filter.mp kept
            exact ⟨[], first, rest, rfl, List.forall_mem_nil _, entity, listed, beq_iff_eq.mp fits,
              same⟩
          · rintro ⟨inner, level, wider, split, hidden, entity, listed, fits, same⟩
            cases inner with
            | nil =>
                obtain ⟨rfl, rfl⟩ := List.cons.inj split
                exact List.mem_map.mpr
                  ⟨entity, List.mem_filter.mpr ⟨listed, beq_iff_eq.mpr fits⟩, same⟩
            | cons narrow inner =>
                obtain ⟨rfl, -⟩ := List.cons.inj split
                obtain ⟨other, member, fits⟩ := List.any_eq_true.mp named
                exact absurd (beq_iff_eq.mp fits) (hidden _ List.mem_cons_self other member)
      | false =>
          have others : ∀ other ∈ first, other.simpleName ≠ name := fun other member same =>
            List.any_eq_false.mp named other member (beq_iff_eq.mpr same)
          rw [narrowest_cons_of_not_any rest named, ih]
          constructor
          · rintro ⟨inner, level, wider, rfl, hidden, found⟩
            exact ⟨first :: inner, level, wider, rfl,
              List.forall_mem_cons.mpr ⟨others, hidden⟩, found⟩
          · rintro ⟨inner, level, wider, split, hidden, entity, listed, fits, same⟩
            cases inner with
            | nil =>
                obtain ⟨rfl, rfl⟩ := List.cons.inj split
                exact absurd fits (others entity listed)
            | cons narrow inner =>
                obtain ⟨rfl, rfl⟩ := List.cons.inj split
                exact ⟨inner, level, wider, rfl, (List.forall_mem_cons.mp hidden).2, entity, listed,
                  fits, same⟩

/-- A level behind all others that does not have the entity does not matter to it. -/
theorem mem_narrowest_concat {levels : List (List Entity)} {last : List Entity} {id : EntityId}
    (apart : ∀ other ∈ last, other.id ≠ id) :
    id ∈ narrowest name (levels ++ [last]) ↔ id ∈ narrowest name levels := by
  induction levels with
  | nil =>
      refine iff_of_false (fun member => ?_) List.not_mem_nil
      rw [List.nil_append] at member
      cases named : last.any (·.simpleName == name) with
      | true =>
          rw [narrowest_cons_of_any [] named] at member
          obtain ⟨other, kept, same⟩ := List.mem_map.mp member
          exact apart other (List.mem_filter.mp kept).1 same
      | false =>
          rw [narrowest_cons_of_not_any [] named] at member
          exact List.not_mem_nil member
  | cons first rest ih =>
      rw [List.cons_append]
      cases named : first.any (·.simpleName == name) with
      | true => rw [narrowest_cons_of_any _ named, narrowest_cons_of_any _ named]
      | false => rw [narrowest_cons_of_not_any _ named, narrowest_cons_of_not_any _ named, ih]

section Locals

variable (sound : store.Sound) {inside : BlockId} {entered : Block}
  (found : scopes.block? inside = some entered) {entity : Entity}
  (listed : entity ∈ store.membersOfKind method .localVariable)
include sound found listed

/-- A local variable is held if its own block is the block of the place or one around it, if its
declaration ends before the block of the place does, and if no narrower block has such a variable of
the same name. Where in its own block the variable stands does not matter. -/
theorem mem_lookup_capture_iff :
    entity.id ∈ (capture store scopes method (some inside)).lookup name ↔
      entity.simpleName = name ∧ ∃ inner around outer,
        scopes.ancestry inside = inner ++ around :: outer ∧
        entity ∈ localsOf store scopes method entered.span.stop around ∧
        ∀ narrower ∈ inner, ∀ other ∈ localsOf store scopes method entered.span.stop narrower,
          other.simpleName ≠ name := by
  obtain ⟨stored, kind⟩ := Store.entity?_of_mem_membersOfKind sound listed
  have blocks : blocksAround scopes (some inside) = scopes.ancestry inside := by
    simp only [blocksAround, Option.bind_some, found, Option.map_some]
  have limit : ((Option.bind (some inside) scopes.block?).map (·.span.stop)).getD 0 =
      entered.span.stop := by
    rw [Option.bind_some, found]
    rfl
  -- the widest level is that of the parameters, and a local variable is none of them
  have apart : ∀ other ∈ store.membersOfKind method .parameter, other.id ≠ entity.id := by
    intro other member same
    obtain ⟨known, parameter⟩ := Store.entity?_of_mem_membersOfKind sound member
    rw [same, stored, Option.some.injEq] at known
    rw [known, parameter] at kind
    cases kind
  rw [lookup_capture, levels, blocks, List.map_nil, List.append_nil, limit,
    mem_narrowest_concat apart, mem_narrowest_iff]
  constructor
  · rintro ⟨inner, level, wider, split, hidden, other, member, fits, same⟩
    obtain ⟨narrow, others, ancestry, rfl, behind⟩ := List.map_eq_append_iff.mp split
    obtain ⟨around, outer, rfl, rfl, -⟩ := List.map_eq_cons_iff.mp behind
    have known := (Store.entity?_of_mem_membersOfKind sound (List.mem_filter.mp member).1).1
    rw [same, stored, Option.some.injEq] at known
    subst known
    exact ⟨fits, narrow, around, outer, ancestry, member, fun narrower narrows =>
      hidden _ (List.mem_map_of_mem narrows)⟩
  · rintro ⟨fits, inner, around, outer, split, member, hidden⟩
    refine ⟨inner.map (localsOf store scopes method entered.span.stop), _, _,
      by rw [split, List.map_append, List.map_cons], fun level narrower => ?_, entity, member, fits,
      rfl⟩
    obtain ⟨block, narrows, rfl⟩ := List.mem_map.mp narrower
    exact hidden block narrows

/-- Once declared, a local variable is held everywhere in its own block, also behind the statement
that it belongs to. -/
theorem mem_lookup_capture_of_placed (placed : scopes.blockOfLocal? entity.id = some inside)
    (ends : entity.anchor.any (·.stop ≤ entered.span.stop)) :
    entity.id ∈ (capture store scopes method (some inside)).lookup entity.simpleName := by
  have here : entity ∈ localsOf store scopes method entered.span.stop inside :=
    List.mem_filter.mpr ⟨listed, by rw [placed, ends, beq_self_eq_true, Bool.and_self]⟩
  exact (mem_lookup_capture_iff sound found listed).mpr
    ⟨rfl, [], inside, _, rfl, here, List.forall_mem_nil _⟩

/-- Two local variables of one block and one name leave the name without a meaning in the block. -/
theorem unique?_capture_eq_none {other : Entity}
    (listed' : other ∈ store.membersOfKind method .localVariable)
    (placed : scopes.blockOfLocal? entity.id = some inside)
    (placed' : scopes.blockOfLocal? other.id = some inside)
    (ends : entity.anchor.any (·.stop ≤ entered.span.stop))
    (ends' : other.anchor.any (·.stop ≤ entered.span.stop))
    (name : entity.simpleName = other.simpleName) (different : entity.id ≠ other.id) :
    (capture store scopes method (some inside)).unique? entity.simpleName = none := by
  have one := mem_lookup_capture_of_placed sound found listed placed ends
  have two := mem_lookup_capture_of_placed sound found listed' placed' ends'
  rw [← name] at two
  cases known : (capture store scopes method (some inside)).unique? entity.simpleName with
  | none => rfl
  | some id =>
      rw [unique?_eq_some_iff.mp known, List.mem_singleton] at one two
      exact absurd (one.trans two.symm) different

/-- A local variable whose declaration goes on behind the block of the place is not held, although
the place may lie in the statement that it is declared for. -/
theorem not_mem_lookup_capture {anchor : Anchor} (declared : entity.anchor = some anchor)
    (behind : entered.span.stop < anchor.stop) :
    entity.id ∉ (capture store scopes method (some inside)).lookup name := by
  intro member
  obtain ⟨-, inner, around, outer, -, here, -⟩ :=
    (mem_lookup_capture_iff sound found listed).mp member
  obtain ⟨-, ends⟩ := Bool.and_eq_true_iff.mp (List.mem_filter.mp here).2
  rw [declared, Option.any_some, decide_eq_true_eq] at ends
  exact absurd ends (Nat.not_le.mpr behind)

end Locals

/-- Whatever the names of a snapshot denote are local variables and parameters. -/
def HoldsVariables (snapshot : Snapshot) (store : Store) : Prop :=
  ∀ name, ∀ id ∈ snapshot.lookup name,
    ∃ kind ∈ [EntityKind.localVariable, .parameter], store.Holds kind id

theorem HoldsVariables.extended {snapshot : Snapshot} {after : Store}
    (holds : snapshot.HoldsVariables store) (grown : store.Extends after) :
    snapshot.HoldsVariables after :=
  fun name id member =>
    have ⟨kind, fits, held⟩ := holds name id member
    ⟨kind, fits, held.extended grown⟩

theorem holdsVariables_capture (sound : store.Sound) (scopes : Scopes) (method : EntityId)
    (block : Option BlockId) : (capture store scopes method block).HoldsVariables store := by
  have holds {owner : EntityId} {kind : EntityKind} {entity : Entity}
      (listed : entity ∈ store.membersOfKind owner kind) : store.Holds kind entity.id := by
    obtain ⟨stored, rfl⟩ := Store.entity?_of_mem_membersOfKind sound listed
    exact Store.holds_of_entity stored
  intro name id member
  rw [lookup_capture, mem_narrowest_iff] at member
  obtain ⟨inner, level, wider, split, -, entity, listed, -, rfl⟩ := member
  have known : level ∈ levels store scopes method block (blocksAround scopes block) [] :=
    split ▸ List.mem_append_right inner List.mem_cons_self
  rw [levels, List.map_nil, List.append_nil] at known
  rcases List.mem_append.mp known with blocks | last
  · obtain ⟨around, -, rfl⟩ := List.mem_map.mp blocks
    exact ⟨.localVariable, List.mem_cons_self, holds (List.mem_filter.mp listed).1⟩
  · obtain rfl := List.mem_singleton.mp last
    exact ⟨.parameter, List.mem_cons_of_mem _ List.mem_cons_self, holds listed⟩

/-- The fields of the types around are added for those names only that were not known before. -/
theorem lookup_addEnclosingFields (snapshot : Snapshot) (store : Store) (type : EntityId)
    (name : String) :
    (snapshot.addEnclosingFields store type).lookup name =
      if snapshot.contains name then snapshot.lookup name
      else narrowest name ((enclosingTypes store type).map (store.membersOfKind · .field)) := by
  rw [addEnclosingFields, ← lookup_addLevels, List.map_map]
  rfl

end Snapshot

/-- When the target of a call is searched, a plain name denotes a field exactly if the snapshot of
the call does not hold the name. The store may have grown since the snapshot was taken. -/
theorem Call.denotes_field_iff {call : Call} {before after : Store}
    (holds : call.visible.HoldsVariables before) (grown : before.Extends after)
    (sound : after.Sound) (index : MethodIndex) {name : String} (plain : '.' ∉ name.toList)
    {entity : Entity}
    (found : denoted? (call.resolve after index).visible after name = some entity) :
    entity.kind = .field ↔ call.visible.contains name = false := by
  rw [denoted?, Text.pieces_eq_singleton plain, List.reverse_singleton, variableOf?] at found
  obtain ⟨id, only, stored⟩ := Option.bind_eq_some_iff.mp found
  have listed := Snapshot.unique?_eq_some_iff.mp only
  have visible : (call.resolve after index).visible =
      call.visible.addEnclosingFields after call.callerType := rfl
  rw [visible, Snapshot.lookup_addEnclosingFields] at listed
  cases known : call.visible.contains name with
  | true =>
      rw [if_pos known] at listed
      obtain ⟨kind, fits, held⟩ :=
        holds.extended grown name id (listed ▸ List.mem_singleton_self id)
      have same := held.kind_eq (Store.holds_of_entity stored)
      have apart : entity.kind ≠ .field := fun field =>
        absurd (same.trans field ▸ fits) (by decide)
      exact iff_of_false apart (by decide)
  | false =>
      have added : id ∈ Snapshot.narrowest name
          ((Snapshot.enclosingTypes after call.callerType).map (after.membersOfKind · .field)) := by
        rw [known, if_neg Bool.false_ne_true] at listed
        exact listed ▸ List.mem_singleton_self id
      obtain ⟨inner, level, wider, split, -, field, member, -, rfl⟩ :=
        Snapshot.mem_narrowest_iff.mp added
      have level := split ▸ List.mem_append_right inner (List.mem_cons_self)
      obtain ⟨type, -, rfl⟩ := List.mem_map.mp level
      obtain ⟨same, kind⟩ := Store.entity?_of_mem_membersOfKind sound member
      rw [stored, Option.some.injEq] at same
      exact iff_of_true (same ▸ kind) rfl

end JavaFacts
