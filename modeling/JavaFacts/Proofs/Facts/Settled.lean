import JavaFacts.Proofs.Facts.Writes
import JavaFacts.Proofs.Text.Cut

/-!
Requests that facts have met already. Such a request changes nothing but the list of links, to which
it may add one that is not of the hierarchy. What was met stays met unless a later request moves the
same entity to another owner or describes it anew.
-/

namespace JavaFacts

/-- The facts with more links. -/
def Facts.appending (facts : Facts) (links : List Link) : Facts :=
  { facts with links := facts.links ++ links }

@[simp] theorem Facts.appending_nil (facts : Facts) : facts.appending [] = facts :=
  Facts.ext rfl rfl (List.append_nil _)

theorem Facts.appending_appending (facts : Facts) (links more : List Link) :
    (facts.appending links).appending more = facts.appending (links ++ more) :=
  Facts.ext rfl rfl (List.append_assoc _ _ _)

theorem Modifiers.union_right_comm (first second third : Modifiers) :
    first ∪ second ∪ third = first ∪ third ∪ second := by
  have commuted : second ∪ third = third ∪ second :=
    congrArg Modifiers.mk (BitVec.or_comm second.bits third.bits)
  rw [union_assoc, commuted, union_assoc]

theorem Modifiers.union_self (modifiers : Modifiers) : modifiers ∪ modifiers = modifiers :=
  congrArg Modifiers.mk BitVec.or_self

theorem Entry.detailed_eq_self {entry : Entry} {detail : Detail} :
    entry.detailed detail = entry ↔
      entry.modifiers ∪ detail.modifiers = entry.modifiers ∧
        (detail.declaredType <|> entry.declaredType) = entry.declaredType ∧
        (detail.signatureType <|> entry.signatureType) = entry.signatureType ∧
        detail.parameterTypes.getD entry.parameterTypes = entry.parameterTypes ∧
        (detail.position <|> entry.position) = entry.position := by
  rw [detailed, Entry.mk.injEq]
  simp only [true_and, and_true]

theorem Entry.detailed_twice (entry : Entry) (detail : Detail) :
    (entry.detailed detail).detailed detail = entry.detailed detail := by
  rw [Entry.detailed_eq_self]
  refine ⟨?_, ?_, ?_, ?_, ?_⟩
  · rw [Entry.detailed, Modifiers.union_assoc, Modifiers.union_self]
  all_goals rw [Entry.detailed]
  · cases detail.declaredType <;> rfl
  · cases detail.signatureType <;> rfl
  · cases detail.parameterTypes <;> rfl
  · cases detail.position <;> rfl

/-- A detail told again behind a request that tells nothing else about the entity. -/
theorem Entry.Becomes.settled {change : Change} {identity : Identity} {before after : Entry}
    {detail : Detail} (becomes : before.Becomes change identity after) (owned : before.owner.isSome)
    (settled : before.detailed detail = before)
    (spares : detail.IsLight ∨ change.DescribesLightly identity) : after.detailed detail = after := by
  rw [Entry.detailed_eq_self] at settled ⊢
  obtain ⟨modifiers, type, signature, parameters, position⟩ := settled
  refine ⟨?_, ?_⟩
  · obtain ⟨more, known⟩ := becomes.modifiers
    rw [known, Modifiers.union_right_comm, modifiers]
  · rcases spares with light | light
    · rw [light.declaredType, light.signatureType, light.parameterTypes, light.position]
      exact ⟨rfl, rfl, rfl, rfl⟩
    · obtain ⟨type', signature', parameters', position'⟩ := becomes.detail owned light
      rw [signature', parameters', position']
      refine ⟨?_, signature, parameters, position⟩
      cases declared : detail.declaredType with
      | none => rfl
      | some name =>
          rw [declared] at type
          exact (type' type.symm).symm

namespace Change

variable {change : Change} {start facts : Facts} {identity : Identity}

/-- Whether a request tells the facts nothing new, except maybe one more link that is not of the
hierarchy. -/
def Settled (facts : Facts) : Change → Prop
  | place child anchor owner =>
      facts.anchor? child = some anchor ∧ facts.owner? child = some owner ∧ child ≠ owner
  | adopt child owner => facts.owner? child = some owner
  | describe identity detail => (facts.owner? identity).isSome ∧
      ∀ entry, facts.lookup identity = some entry → entry.detailed detail = entry
  | ensureType name => (facts.owner? (.type, name)).isSome
  | ensureMethod _ name _ => (facts.owner? (.method, name)).isSome
  | ensureField type field => (facts.owner? (.field, Naming.fieldName type field)).isSome
  | ensureReturnType method _ => ((facts.lookup (.method, method)).bind (·.declaredType)).isSome
  | ensureConstructor type => facts.hasConstructor type ∨
      facts.owner? (.method, Naming.methodName type "" true []) = some (.type, type) ∧
        ∀ entry, facts.lookup (.method, Naming.methodName type "" true []) = some entry →
          entry.detailed { modifiers := Modifiers.isSynthetic } = entry
  | append link => link.kind.isHierarchy = false
  | appendOnce link => facts.isLinked link.kind link.source link.target

/-- Whether a method is a constructor of the type by its name. -/
def IsConstructorOf (type : String) (method : Identity) : Prop :=
  method.1 = .method ∧ Text.startsWith method.2 (Naming.constructorStem type)

/-- Whether a later request leaves what an earlier one has met. -/
def Spares (later : Change) : Change → Prop
  | place child _ owner | adopt child owner => later.KeepsIn child owner
  | describe identity detail => detail.IsLight ∨ later.DescribesLightly identity
  | ensureConstructor type => ∀ method, IsConstructorOf type method → later.KeepsIn method (.type, type)
  | _ => True

theorem isConstructorOf_default (type : String) :
    IsConstructorOf type (.method, Naming.methodName type "" true []) :=
  ⟨rfl, Text.startsWith_iff.mpr ⟨_, String.append_assoc⟩⟩

theorem Writes.hasConstructor (writes : change.Writes start facts) {type : String}
    (constructed : start.hasConstructor type)
    (spares : ∀ method, IsConstructorOf type method → change.KeepsIn method (.type, type)) :
    facts.hasConstructor type := by
  obtain ⟨method, listed, isConstructor⟩ := List.any_eq_true.mp constructed
  rw [Bool.and_eq_true, beq_iff_eq] at isConstructor
  have member : ∃ entry, start.lookup (.type, type) = some entry ∧ method ∈ entry.members := by
    rw [Facts.members] at listed
    cases known : start.lookup (.type, type) with
    | none => rw [known] at listed; cases listed
    | some entry => rw [known] at listed; exact ⟨entry, rfl, listed⟩
  obtain ⟨entry, known, listed⟩ := member
  obtain ⟨later, found, becomes⟩ := writes.becomes known
  refine List.any_eq_true.mpr ⟨method, ?_, by rw [Bool.and_eq_true, beq_iff_eq]; exact isConstructor⟩
  rw [Facts.members, found]
  exact becomes.members listed (spares method isConstructor)

theorem Settled.kept {later : Change} (settled : change.Settled start) (spares : later.Spares change)
    (writes : later.Writes start facts) : change.Settled facts := by
  cases change with
  | place child anchor owner =>
      exact ⟨writes.anchor? settled.1, (writes.owner? settled.2.1).2 spares, settled.2.2⟩
  | adopt child owner => exact (writes.owner? settled).2 spares
  | describe identity detail =>
      obtain ⟨owned, same⟩ := settled
      obtain ⟨owner, owned⟩ := Option.isSome_iff_exists.mp owned
      refine ⟨(writes.owner? owned).1, fun later found => ?_⟩
      obtain ⟨entry, known, owned⟩ := Option.bind_eq_some_iff.mp owned
      obtain ⟨other, found', becomes⟩ := writes.becomes known
      obtain rfl := Option.some.inj (found'.symm.trans found)
      exact becomes.settled (by rw [owned]; rfl) (same entry known) spares
  | ensureType name =>
      obtain ⟨owner, owned⟩ := Option.isSome_iff_exists.mp settled
      exact (writes.owner? owned).1
  | ensureMethod type name parameterTypes =>
      obtain ⟨owner, owned⟩ := Option.isSome_iff_exists.mp settled
      exact (writes.owner? owned).1
  | ensureField type field =>
      obtain ⟨owner, owned⟩ := Option.isSome_iff_exists.mp settled
      exact (writes.owner? owned).1
  | ensureReturnType method type =>
      obtain ⟨declared, typed⟩ := Option.isSome_iff_exists.mp settled
      obtain ⟨entry, known, typed⟩ := Option.bind_eq_some_iff.mp typed
      obtain ⟨other, found, becomes⟩ := writes.becomes known
      rw [Settled, found, Option.bind_some]
      exact becomes.typed (by rw [typed]; rfl)
  | ensureConstructor type =>
      rcases settled with constructed | ⟨owned, same⟩
      · exact .inl (writes.hasConstructor constructed spares)
      · refine .inr ⟨(writes.owner? owned).2 (spares _ (isConstructorOf_default type)), fun later found => ?_⟩
        obtain ⟨entry, known, owned⟩ := Option.bind_eq_some_iff.mp owned
        obtain ⟨other, found', becomes⟩ := writes.becomes known
        obtain rfl := Option.some.inj (found'.symm.trans found)
        exact becomes.settled (by rw [owned]; rfl) (same entry known) (.inl ⟨rfl, rfl, rfl, rfl⟩)
  | append link => exact settled
  | appendOnce link =>
      obtain ⟨added, same, -⟩ := writes.links
      show facts.isLinked _ _ _ = true
      rw [Facts.isLinked, same, List.any_append, Bool.or_eq_true]
      exact .inl settled

/-- Whether a request comes behind what it builds on. -/
def Ready (owned : Identity → Prop) : Change → Prop
  | describe identity _ => owned identity
  | ensureReturnType method _ => owned (.method, method)
  | append link => link.kind.isHierarchy = false
  | _ => True

/-- The entities that a request makes sure to have owners. -/
def owns : Change → List Identity
  | place child .. | adopt child _ => [child]
  | ensureMethod _ name _ => [(.method, name)]
  | _ => []

theorem isSome_owner?_withType (facts : Facts) (name : String) :
    ((facts.withType name).owner? (.type, name)).isSome := by
  have interned : (facts.interned (.type, name)).Knows (.type, name) := Facts.knows_interned.mpr (.inr rfl)
  have owned : ((((facts.interned (.type, name)).interned (.package, Naming.packageOf name)).owned
      (.type, name) (.package, Naming.packageOf name)).owner? (.type, name)).isSome := by
    rw [Facts.owner?_owned (Facts.knows_interned.mpr (.inl interned)), if_pos rfl]
    rfl
  unfold Facts.withType
  dsimp only
  split
  · assumption
  · split
    · rw [Facts.owner?_detailed]
      exact owned
    · exact owned

theorem isSome_owner?_withMethod (facts : Facts) (type name : String) (parameterTypes : List String) :
    ((facts.withMethod type name parameterTypes).owner? (.method, name)).isSome := by
  unfold Facts.withMethod
  dsimp only
  split
  · assumption
  · rw [Facts.owner?_detailed, Facts.owner?_owned, if_pos rfl]
    · rfl
    · exact Facts.retains_withType type _ (Facts.knows_interned.mpr (.inr rfl))

theorem isSome_owner?_withField (facts : Facts) (type field : String) :
    ((facts.withField type field).owner? (.field, Naming.fieldName type field)).isSome := by
  unfold Facts.withField
  dsimp only
  split
  · assumption
  · rw [Facts.owner?_owned, if_pos rfl]
    · rfl
    · exact Facts.retains_withType type _ (Facts.knows_interned.mpr (.inr rfl))

/-- What a declaration of an entity leaves. -/
theorem placed_eq_ok {child owner : Identity} {anchor : Anchor} {after : Facts}
    (placed : facts.placed child anchor owner = .ok after) :
    after.anchor? child = some anchor ∧ after.owner? child = some owner ∧ child ≠ owner := by
  unfold Facts.placed at placed
  dsimp only at placed
  split at placed
  · cases placed
  · split at placed
    · cases placed
    · rename_i different
      cases placed
      have known : (facts.interned child).Knows child := Facts.knows_interned.mpr (.inr rfl)
      obtain ⟨entry, found⟩ := Option.ne_none_iff_exists'.mp known
      refine ⟨?_, ?_, different⟩
      · let declared := (facts.interned child).update child fun entry => { entry with anchor := some anchor }
        have moved : (adopt child owner).Writes declared (declared.owned child owner) :=
          .owned .start (Facts.knows_update.mpr known) (.inl List.mem_cons_self)
        refine moved.anchor? ?_
        rw [Facts.anchor?, Facts.lookup_update, if_pos rfl, found]
        rfl
      · rw [Facts.owner?_owned (Facts.knows_update.mpr known), if_pos rfl]

/-- A declaration is refused if the entity is declared at another place, or would own itself. -/
theorem placed_eq_error {child owner : Identity} {anchor : Anchor} {refusal : Refusal}
    (refused : facts.placed child anchor owner = .error refusal) :
    (∃ existing, facts.anchor? child = some existing ∧ existing ≠ anchor ∧
      refusal.error = .redeclared child (some existing) anchor) ∨
    child = owner ∧ refusal.error = .looped child := by
  unfold Facts.placed at refused
  dsimp only at refused
  rw [Facts.anchor?_interned] at refused
  split at refused
  · rename_i elsewhere
    cases refused
    obtain ⟨existing, placed, other⟩ := (Option.any_eq_true _ _).mp elsewhere
    exact .inl ⟨existing, placed, bne_iff_ne.mp other, by rw [placed]⟩
  · split at refused
    · rename_i same
      cases refused
      exact .inr ⟨same, rfl⟩
    · cases refused

/-- Only declarations are refused. -/
theorem applyAll_eq_error {changes : List Change} {refusal : Refusal}
    (refused : applyAll facts changes = .error refusal) :
    ∃ child anchor owner, ∃ middle : Facts, .place child anchor owner ∈ changes ∧
      middle.placed child anchor owner = .error refusal := by
  induction changes generalizing facts with
  | nil => cases refused
  | cons change changes ih =>
      rw [applyAll] at refused
      cases applied : change.apply facts with
      | error first =>
          rw [applied] at refused
          cases refused
          cases change with
          | place child anchor owner => exact ⟨child, anchor, owner, facts, List.mem_cons_self, applied⟩
          | _ => cases applied
      | ok middle =>
          rw [applied] at refused
          obtain ⟨child, anchor, owner, last, member, refused⟩ := ih refused
          exact ⟨child, anchor, owner, last, List.mem_cons_of_mem _ member, refused⟩

theorem settled_of_apply {after : Facts}
    (ready : change.Ready fun identity => (facts.owner? identity).isSome)
    (applied : change.apply facts = .ok after) : change.Settled after := by
  cases change with
  | place child anchor owner => exact placed_eq_ok applied
  | adopt child owner =>
      cases applied
      have known : (facts.interned child).Knows child := Facts.knows_interned.mpr (.inr rfl)
      rw [Settled, Facts.adopted, Facts.owner?_owned known, if_pos rfl]
  | describe identity detail =>
      cases applied
      refine ⟨by rw [Facts.owner?_detailed]; exact ready, fun entry found => ?_⟩
      rw [Facts.detailed, Facts.lookup_update, if_pos rfl] at found
      obtain ⟨former, -, rfl⟩ := Option.map_eq_some_iff.mp found
      exact former.detailed_twice detail
  | ensureType name =>
      cases applied
      exact isSome_owner?_withType facts name
  | ensureMethod type name parameterTypes =>
      cases applied
      exact isSome_owner?_withMethod facts type name parameterTypes
  | ensureField type field =>
      cases applied
      exact isSome_owner?_withField facts type field
  | ensureReturnType method type =>
      cases applied
      rw [Settled, Facts.withReturnType]
      split
      · assumption
      · obtain ⟨owner, owned⟩ := Option.isSome_iff_exists.mp ready
        obtain ⟨entry, known, -⟩ := Option.bind_eq_some_iff.mp owned
        have same : (facts.withType type).lookup (.method, method) = facts.lookup (.method, method) :=
          Facts.lookup_withType type (by simp) (by simp)
        rw [Facts.detailed, Facts.lookup_update, if_pos rfl, same, known]
        rfl
  | ensureConstructor type =>
      cases applied
      rw [Settled, Facts.withConstructor]
      split
      · exact .inl ‹_›
      · have known : (facts.interned (.method, Naming.methodName type "" true [])).Knows
            (.method, Naming.methodName type "" true []) := Facts.knows_interned.mpr (.inr rfl)
        refine .inr ⟨?_, fun entry found => ?_⟩
        · rw [Facts.owner?_detailed, Facts.adopted, Facts.owner?_owned known, if_pos rfl]
        · rw [Facts.detailed, Facts.lookup_update, if_pos rfl] at found
          obtain ⟨former, -, rfl⟩ := Option.map_eq_some_iff.mp found
          exact former.detailed_twice _
  | append link => exact ready
  | appendOnce link =>
      cases applied
      rw [Settled, Facts.linkedOnce]
      split
      · rename_i linked
        exact linked
      · rw [Facts.isLinked, Facts.linked, List.any_append, Bool.or_eq_true]
        exact .inr (by simp)

/-- Whether each of several requests comes behind what it builds on. -/
def AllReady (owned : Identity → Prop) : List Change → Prop
  | [] => True
  | change :: changes =>
      change.Ready owned ∧ AllReady (fun identity => owned identity ∨ identity ∈ change.owns) changes

theorem Ready.imp {owned more : Identity → Prop} (ready : change.Ready owned)
    (enough : ∀ identity, owned identity → more identity) : change.Ready more := by
  cases change with
  | describe identity detail => exact enough _ ready
  | ensureReturnType method type => exact enough _ ready
  | append link => exact ready
  | _ => trivial

theorem AllReady.imp {changes : List Change} {owned more : Identity → Prop}
    (ready : AllReady owned changes) (enough : ∀ identity, owned identity → more identity) :
    AllReady more changes := by
  induction changes generalizing owned more with
  | nil => trivial
  | cons change changes ih =>
      exact ⟨ready.1.imp enough, ih ready.2 fun identity => Or.imp_left (enough identity)⟩

theorem isSome_owner?_of_owns {after : Facts} (applied : change.apply facts = .ok after) :
    ∀ identity ∈ change.owns, (after.owner? identity).isSome := by
  intro identity member
  cases change with
  | place child anchor owner =>
      rw [List.mem_singleton.mp member, (placed_eq_ok applied).2.1]
      rfl
  | adopt child owner =>
      cases applied
      rw [List.mem_singleton.mp member, Facts.adopted, Facts.owner?_owned, if_pos rfl]
      · rfl
      · exact Facts.knows_interned.mpr (.inr rfl)
  | ensureMethod type name parameterTypes =>
      cases applied
      rw [List.mem_singleton.mp member]
      exact isSome_owner?_withMethod facts type name parameterTypes
  | _ => cases member

theorem writes_of_apply {after : Facts} (applied : change.apply facts = .ok after) :
    change.Writes facts after := by
  have writes := change.writes_left facts
  rwa [applied] at writes

/-- What was met stays met whether one of the later requests is refused or not. -/
theorem Settled.kept_left {changes : List Change} (settled : change.Settled facts)
    (spares : ∀ later ∈ changes, later.Spares change) : change.Settled (left (applyAll facts changes)) := by
  induction changes generalizing facts with
  | nil => exact settled
  | cons later changes ih =>
      rw [List.forall_mem_cons] at spares
      have first := settled.kept spares.1 (later.writes_left facts)
      rw [applyAll]
      cases applied : later.apply facts <;> rw [applied] at first
      · exact first
      · exact ih first spares.2

theorem Settled.kept_applyAll {changes : List Change} {after : Facts} (settled : change.Settled facts)
    (spares : ∀ later ∈ changes, later.Spares change) (applied : applyAll facts changes = .ok after) :
    change.Settled after := by
  have kept := settled.kept_left spares
  rwa [applied] at kept

/-- Requests of which none hurts an earlier one are all met behind the last of them. -/
theorem settled_applyAll {changes : List Change} {after : Facts}
    (ready : AllReady (fun identity => (facts.owner? identity).isSome) changes)
    (spares : changes.Pairwise fun earlier later => later.Spares earlier)
    (applied : applyAll facts changes = .ok after) : ∀ change ∈ changes, change.Settled after := by
  induction changes generalizing facts with
  | nil => exact fun _ => (nomatch ·)
  | cons change changes ih =>
      rw [List.pairwise_cons] at spares
      rw [applyAll] at applied
      cases first : change.apply facts with
      | error middle =>
          rw [first] at applied
          cases applied
      | ok middle =>
          rw [first] at applied
          have onward : AllReady (fun identity => (middle.owner? identity).isSome) changes := by
            refine ready.2.imp fun identity owned => ?_
            rcases owned with owned | owned
            · obtain ⟨owner, owned⟩ := Option.isSome_iff_exists.mp owned
              exact ((writes_of_apply first).owner? owned).1
            · exact isSome_owner?_of_owns first identity owned
          refine List.forall_mem_cons.mpr ⟨?_, ih onward spares.2 applied⟩
          exact (settled_of_apply ready.1 first).kept_applyAll spares.1 applied

theorem Settled.appending (settled : change.Settled facts) (links : List Link) :
    change.Settled (facts.appending links) := by
  cases change with
  | appendOnce link =>
      show (facts.appending links).isLinked _ _ _ = true
      rw [Facts.isLinked, Facts.appending, List.any_append, Bool.or_eq_true]
      exact .inl settled
  | _ => exact settled

/-- A request that was met adds at most a link. -/
theorem Settled.apply_again (settled : change.Settled facts) :
    ∃ links : List Link, change.apply facts = .ok (facts.appending links) ∧
      ∀ link ∈ links, link.kind.isHierarchy = false := by
  have unchanged (same : change.apply facts = .ok facts) :
      ∃ links : List Link, change.apply facts = .ok (facts.appending links) ∧
        ∀ link ∈ links, link.kind.isHierarchy = false :=
    ⟨[], by rw [Facts.appending_nil]; exact same, fun _ => (nomatch ·)⟩
  cases change with
  | append link => exact ⟨[link], rfl, fun other member => List.mem_singleton.mp member ▸ settled⟩
  | place child anchor owner =>
      obtain ⟨placed, owned, different⟩ := settled
      have interned : facts.interned child = facts := Facts.interned_of_owner? (by rw [owned]; rfl)
      have declared : (facts.update child fun entry => { entry with anchor := some anchor }) = facts := by
        refine Facts.update_of_unchanged fun entry known => ?_
        rw [Facts.anchor?, known, Option.bind_some] at placed
        rw [← placed]
      have elsewhere : ¬(facts.anchor? child).any (· != anchor) := by
        rw [placed, Option.any_some, bne_self_eq_false]
        exact Bool.false_ne_true
      refine unchanged ?_
      rw [apply, Facts.placed, interned, if_neg elsewhere, declared, if_neg different, Facts.owned_self owned]
  | adopt child owner =>
      have interned : facts.interned child = facts := Facts.interned_of_owner? (by rw [settled]; rfl)
      exact unchanged (by rw [apply, Facts.adopted, interned, Facts.owned_self settled])
  | describe identity detail => exact unchanged (congrArg _ (Facts.update_of_unchanged settled.2))
  | ensureType name =>
      have owned : (facts.owner? (.type, name)).isSome := settled
      exact unchanged (by rw [apply, Facts.withType, Facts.interned_of_owner? owned, if_pos owned])
  | ensureMethod type name parameterTypes =>
      have owned : (facts.owner? (.method, name)).isSome := settled
      exact unchanged (by rw [apply, Facts.withMethod, Facts.interned_of_owner? owned, if_pos owned])
  | ensureField type field =>
      have owned : (facts.owner? (.field, Naming.fieldName type field)).isSome := settled
      exact unchanged (by rw [apply, Facts.withField, Facts.interned_of_owner? owned, if_pos owned])
  | ensureReturnType method type => exact unchanged (congrArg _ (if_pos settled))
  | ensureConstructor type =>
      refine unchanged ?_
      rw [apply, Facts.withConstructor]
      split
      · rfl
      · rename_i missing
        obtain ⟨owned, same⟩ := settled.resolve_left missing
        have interned : facts.interned (.method, Naming.methodName type "" true []) = facts :=
          Facts.interned_of_owner? (by rw [owned]; rfl)
        dsimp only
        rw [Facts.adopted, interned, Facts.owned_self owned, Facts.detailed,
          Facts.update_of_unchanged same]
  | appendOnce link => exact unchanged (congrArg _ (if_pos settled))

theorem Settled.applyAll_again {changes : List Change}
    (settled : ∀ change ∈ changes, change.Settled facts) :
    ∃ links : List Link, applyAll facts changes = .ok (facts.appending links) ∧
      ∀ link ∈ links, link.kind.isHierarchy = false := by
  induction changes generalizing facts with
  | nil => exact ⟨[], by rw [Facts.appending_nil]; rfl, fun _ => (nomatch ·)⟩
  | cons change changes ih =>
      rw [List.forall_mem_cons] at settled
      obtain ⟨links, applied, flat⟩ := settled.1.apply_again
      obtain ⟨more, rest, flat'⟩ := ih fun other member => (settled.2 other member).appending links
      refine ⟨links ++ more, ?_, fun link member => (List.mem_append.mp member).elim (flat link) (flat' link)⟩
      rw [applyAll, applied]
      exact rest.trans (congrArg _ (Facts.appending_appending _ _ _))

end Change

end JavaFacts
