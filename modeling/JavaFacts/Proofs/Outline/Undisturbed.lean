import JavaFacts.Proofs.Outline.Plain

/-!
No step of a plan for a plain unit disturbs an earlier one, as long as its declarations denote
pairwise different entities: behind all of them, every step is met.
-/

namespace JavaFacts

namespace Event

/-- The owners that an event gives to entities which may have had others. -/
def moved : Event → List (Identity × Identity)
  | method name _ type .. => [((.method, name), (.type, type))]
  | parameters owner listed => listed.map fun parameter => ((.parameter, parameter.name), (.method, owner))
  | host type marker => [((.method, Naming.initializerName type marker), (.type, type))]
  | constructor type => [((.method, Naming.methodName type "" true []), (.type, type))]
  | field name _ owner .. => [((.field, name), (.type, owner))]
  | localVariable name _ owner => [((.localVariable, name), (.method, owner))]
  | _ => []

/-- The entities of which an event tells more than flags. -/
def described : Event → List Identity
  | method name .. => [(.method, name)]
  | parameters _ listed => listed.map fun parameter => (.parameter, parameter.name)
  | field name .. => [(.field, name)]
  | localType name .. => [(.localVariable, name)]
  | _ => []

theorem mem_moved {event : Event} {change : Change} (member : change ∈ event.changes)
    {move : Identity × Identity} (moves : move ∈ change.moves) : move ∈ event.moved := by
  have same : event.changes.flatMap Change.moves = event.moved := by
    cases event with
    | supertypes links =>
        rw [changes, List.flatMap_assoc]
        exact List.flatMap_eq_nil_iff.mpr fun _ _ => rfl
    | method name anchor type returned modifiers parameterTypes => cases returned <;> rfl
    | parameters owner listed =>
        rw [changes, List.flatMap_assoc]
        exact List.flatMap_pure_eq_map _ _
    | call type name parameterTypes returned link => cases returned <;> rfl
    | _ => rfl
  exact same ▸ List.mem_flatMap.mpr ⟨change, member, moves⟩

theorem isLight_or_mem_described {event : Event} {identity : Identity} {detail : Detail}
    (member : .describe identity detail ∈ event.changes) :
    detail.IsLight ∨ identity ∈ event.described := by
  cases event with
  | supertypes links =>
      obtain ⟨link, -, member⟩ := List.mem_flatMap.mp member
      rcases List.mem_pair.mp member with same | same <;> cases same
  | method name anchor type returned modifiers parameterTypes =>
      cases returned <;>
        simp only [changes, Option.map_none, Option.map_some, Option.toList_none, Option.toList_some,
          List.append_nil, List.cons_append, List.nil_append, List.mem_cons, List.not_mem_nil, or_false,
          reduceCtorEq, false_or] at member <;>
        exact .inr (List.mem_singleton.mpr (Change.describe.inj member).1)
  | parameters owner listed =>
      obtain ⟨parameter, known, member⟩ := List.mem_flatMap.mp member
      simp only [List.mem_cons, List.not_mem_nil, or_false, reduceCtorEq, false_or] at member
      exact .inr (List.mem_map.mpr ⟨parameter, known, (Change.describe.inj member).1.symm⟩)
  | call type name parameterTypes returned link => cases returned <;> simp [changes] at member
  | field name anchor owner modifiers type signatureType =>
      simp only [changes, List.mem_cons, List.not_mem_nil, or_false, reduceCtorEq, false_or] at member
      rcases member with member | member
      · exact .inl ((Change.describe.inj member).2 ▸ ⟨rfl, rfl, rfl, rfl⟩)
      · exact .inr (List.mem_singleton.mpr (Change.describe.inj member).1)
  | localType name modifiers type signatureType =>
      simp only [changes, List.mem_cons, List.not_mem_nil, or_false, reduceCtorEq, false_or] at member
      rcases member with member | member
      · exact .inl ((Change.describe.inj member).2 ▸ ⟨rfl, rfl, rfl, rfl⟩)
      · exact .inr (List.mem_singleton.mpr (Change.describe.inj member).1)
  | host type marker | anonymousConstructor type parameterTypes link =>
      simp only [changes, List.mem_cons, List.not_mem_nil, or_false, reduceCtorEq, false_or] at member
      exact .inl ((Change.describe.inj member).2 ▸ ⟨rfl, rfl, rfl, rfl⟩)
  | _ => simp [changes] at member

theorem not_describe_type {event : Event} {type : String} {detail : Detail} :
    .describe (.type, type) detail ∉ event.changes := by
  intro member
  cases event with
  | supertypes links =>
      obtain ⟨link, -, member⟩ := List.mem_flatMap.mp member
      rcases List.mem_pair.mp member with same | same <;> cases same
  | method name anchor type returned modifiers parameterTypes => cases returned <;> simp [changes] at member
  | parameters owner listed => simp [changes] at member
  | call type name parameterTypes returned link => cases returned <;> simp [changes] at member
  | _ => simp [changes] at member

theorem eq_constructor {event : Event} {type : String} (member : .ensureConstructor type ∈ event.changes) :
    event = .constructor type := by
  cases event with
  | supertypes links =>
      obtain ⟨link, -, member⟩ := List.mem_flatMap.mp member
      rcases List.mem_pair.mp member with same | same <;> cases same
  | method name anchor type returned modifiers parameterTypes => cases returned <;> simp [changes] at member
  | parameters owner listed => simp [changes] at member
  | call type name parameterTypes returned link => cases returned <;> simp [changes] at member
  | constructor other => rw [Change.ensureConstructor.inj (List.mem_singleton.mp member)]
  | _ => simp [changes] at member

end Event

/-- What a lawful step moves: methods to the classes that their names tell, and besides them only what
it declares. -/
structure Step.Moves (history : List Step) (step : Step) (move : Identity × Identity) : Prop where
  method : move.1.1 = .method → move.2 = (.type, Naming.classOf move.1.2)
  placed : move.1.1 ≠ .method → move.1 ∈ step.placed
  parameter : move.1.1 = .parameter →
    move.2 = (.method, Naming.holderOf move.1.2) ∧ JustPlaced history move.2

variable {setting : Setting} {history : List Step} {step : Step}

theorem Step.Moves.of_method {type name : String} (same : Naming.classOf name = type) :
    step.Moves history ((.method, name), (.type, type)) :=
  ⟨fun _ => by rw [same], fun other => absurd rfl other, nofun⟩

theorem Step.Moves.of_placed {child owner : Identity} (placed : child ∈ step.placed)
    (noMethod : child.1 ≠ .method) (noParameter : child.1 ≠ .parameter) :
    step.Moves history (child, owner) :=
  ⟨fun same => absurd same noMethod, fun _ => placed, fun same => absurd same noParameter⟩

theorem Setting.Permits.moves (permits : setting.Permits (history ++ [step])) (plain : setting.IsPlain) :
    ∀ change ∈ step.changes, ∀ move ∈ change.moves, step.Moves history move := by
  have obeys := permits.last.1
  have free {type : String} (placed : (.type, type) ∈ placedBy history.dropLast) : '(' ∉ type.toList :=
    permits.plain_type plain (placedBy_subset (List.prefix_append _ _) (mem_placedBy_of_dropLast placed))
  intro change member move moves
  obtain ⟨request, answer⟩ := step
  cases request with
  | declareType naming anchor owner flags =>
      rcases List.mem_pair.mp member with rfl | rfl
      · rw [List.mem_singleton.mp moves]
        exact .of_placed List.mem_cons_self (by simp) (by simp)
      · cases moves
  | record event =>
      have moved := event.mem_moved member moves
      cases event with
      | method name anchor type returned modifiers parameterTypes =>
          obtain ⟨placed, header, part, rfl, rfl, rfl⟩ := obeys
          rw [List.mem_singleton.mp moved]
          exact .of_method (Naming.classOf_methodName_plain (free placed) (plain.method part) _)
      | parameters owner listed =>
          obtain ⟨parameter, known, rfl⟩ := List.mem_map.mp moved
          obtain ⟨just, header, part, named⟩ := obeys
          obtain ⟨formal, declared, same⟩ := named parameter known
          refine ⟨by simp, fun _ => List.mem_map.mpr ⟨parameter, known, rfl⟩, fun _ => ⟨?_, just⟩⟩
          rw [same, Naming.holderOf_parameter ((plain.method part).parameters formal declared)]
      | host type marker =>
          rw [List.mem_singleton.mp moved]
          exact .of_method (Naming.classOf_initializerName (free obeys.1) obeys.2)
      | constructor type =>
          rw [List.mem_singleton.mp moved]
          exact .of_method (Naming.classOf_methodName (free obeys) (by simp) _)
      | field name anchor owner modifiers type signatureType =>
          rw [List.mem_singleton.mp moved]
          exact .of_placed List.mem_cons_self (by simp) (by simp)
      | localVariable name anchor owner =>
          rw [List.mem_singleton.mp moved]
          exact .of_placed List.mem_cons_self (by simp) (by simp)
      | _ => cases moved
  | _ => cases member

theorem Change.IsConstructorOf.classOf {type : String} {method : Identity}
    (constructs : Change.IsConstructorOf type method) (free : '(' ∉ type.toList) :
    Naming.classOf method.2 = type := by
  obtain ⟨rest, named⟩ := Text.startsWith_iff.mp constructs.2
  rw [named, Naming.constructorStem, Naming.classOf_eq free (by decide) (by decide)]

/-- Constructors stay with their types. -/
theorem Setting.Permits.keepsConstructor (permits : setting.Permits (history ++ [step]))
    (plain : setting.IsPlain) {type : String} (free : '(' ∉ type.toList) {change : Change}
    (member : change ∈ step.changes) {method : Identity}
    (constructs : Change.IsConstructorOf type method) : change.KeepsIn method (.type, type) := by
  rintro move moves rfl
  rw [(permits.moves plain change member move moves).method constructs.1, constructs.classOf free]

/-- What a lawful step tells more of than flags: something that it declares, or a local variable that
the step before has declared. -/
inductive Step.Tells (history : List Step) (step : Step) (identity : Identity) : Prop where
  | placed : identity.1 ≠ .localVariable → identity ∈ step.placed → Tells history step identity
  | justPlaced : identity.1 = .localVariable → step.placed = [] → JustPlaced history identity →
      Tells history step identity

theorem Setting.Permits.tells (permits : setting.Permits (history ++ [step])) {identity : Identity}
    {detail : Detail} (member : .describe identity detail ∈ step.changes) :
    detail.IsLight ∨ step.Tells history identity := by
  have obeys := permits.last.1
  obtain ⟨request, answer⟩ := step
  cases request with
  | declareType naming anchor owner flags =>
      rcases List.mem_pair.mp member with same | same
      · cases same
      · exact .inl ((Change.describe.inj same).2 ▸ ⟨rfl, rfl, rfl, rfl⟩)
  | record event =>
      refine (event.isLight_or_mem_described member).imp_right fun described => ?_
      cases event with
      | method name anchor type returned modifiers parameterTypes =>
          rw [List.mem_singleton.mp described]
          exact .placed nofun List.mem_cons_self
      | parameters owner listed =>
          obtain ⟨parameter, known, rfl⟩ := List.mem_map.mp described
          exact .placed nofun (List.mem_map.mpr ⟨parameter, known, rfl⟩)
      | field name anchor owner modifiers type signatureType =>
          rw [List.mem_singleton.mp described]
          exact .placed nofun List.mem_cons_self
      | localType name modifiers type signatureType =>
          rw [List.mem_singleton.mp described]
          exact .justPlaced rfl rfl obeys
      | _ => cases described
  | _ => cases member

theorem Step.mem_placed_of_describe {type : String} {detail : Detail}
    (member : .describe (.type, type) detail ∈ step.changes) : (.type, type) ∈ step.placed := by
  obtain ⟨request, answer⟩ := step
  cases request with
  | declareType naming anchor owner flags =>
      rcases List.mem_pair.mp member with same | same
      · cases same
      · rw [(Change.describe.inj same).1]
        exact List.mem_cons_self
  | record event => exact absurd member event.not_describe_type
  | _ => cases member

/-- Links that a lawful step adds are about supertypes of the type that was declared last, or do not
tell of supertypes at all. -/
theorem Setting.Permits.links (permits : setting.Permits (history ++ [step])) (link : Link) :
    (.append link ∈ step.changes → link.kind.isHierarchy = false) ∧
      (.appendOnce link ∈ step.changes → JustPlaced history (.type, link.source)) := by
  have obeys := permits.last.1
  obtain ⟨request, answer⟩ := step
  cases request with
  | declareType naming anchor owner flags =>
      refine ⟨fun member => ?_, fun member => ?_⟩ <;>
        rcases List.mem_pair.mp member with same | same <;> cases same
  | record event =>
      cases event with
      | supertypes links =>
          obtain ⟨type, just, upward⟩ := obeys
          refine ⟨fun member => ?_, fun member => ?_⟩ <;>
            obtain ⟨other, known, member⟩ := List.mem_flatMap.mp member <;>
            rcases List.mem_pair.mp member with same | same <;> cases same
          exact (upward _ known).2 ▸ just
      | method name anchor type returned modifiers parameterTypes =>
          cases returned <;> simp [Step.changes, Request.changes, Event.changes]
      | parameters owner listed => simp [Step.changes, Request.changes, Event.changes]
      | anonymousConstructor type parameterTypes told =>
          refine ⟨fun member => ?_, fun member => ?_⟩ <;>
            simp [Step.changes, Request.changes, Event.changes] at member
          rw [member, obeys.2.1]
          rfl
      | access type name told =>
          refine ⟨fun member => ?_, fun member => ?_⟩ <;>
            simp [Step.changes, Request.changes, Event.changes] at member
          rw [member, obeys.1]
          rfl
      | check told =>
          refine ⟨fun member => ?_, fun member => ?_⟩ <;>
            simp [Step.changes, Request.changes, Event.changes] at member
          rcases obeys.1 with kind | kind <;> rw [member, kind] <;> rfl
      | call type name parameterTypes returned told =>
          refine ⟨fun member => ?_, fun member => ?_⟩ <;> cases returned <;>
            simp [Step.changes, Request.changes, Event.changes] at member
          all_goals
            rw [member, obeys.2.1]
            rfl
      | _ => simp [Step.changes, Request.changes, Event.changes]
  | _ => refine ⟨fun member => ?_, fun member => ?_⟩ <;> cases member

theorem Setting.Permits.constructed (permits : setting.Permits (history ++ [step])) {type : String}
    (member : .ensureConstructor type ∈ step.changes) : (.type, type) ∈ placedBy history := by
  have obeys := permits.last.1
  obtain ⟨request, answer⟩ := step
  cases request with
  | declareType naming anchor owner flags =>
      rcases List.mem_pair.mp member with same | same <;> cases same
  | record event =>
      obtain rfl := event.eq_constructor member
      exact mem_placedBy_of_dropLast obeys
  | _ => cases member

theorem JustPlaced.not_mem_dropLast {identity : Identity} (just : JustPlaced history identity)
    (once : (placedBy history).Nodup) : identity ∉ placedBy history.dropLast := by
  obtain ⟨before, last, rfl, same⟩ := just
  rw [placedBy_append_singleton, same] at once
  rw [List.dropLast_concat]
  exact fun member => (List.nodup_append.mp once).2.2 _ member _ List.mem_cons_self rfl

/-- A method that was entered was declared before, or hosts initializers. -/
theorem Setting.Permits.entered (permits : setting.Permits history) {method : String}
    (entered : method ∈ enteredBy history) :
    (.method, method) ∈ placedBy history.dropLast ∨
      ∃ type marker, (.type, type) ∈ placedBy history ∧
        marker ∈ [Naming.instanceInitializer, Naming.staticInitializer] ∧
        method = Naming.initializerName type marker := by
  obtain ⟨step, member, enters⟩ := List.mem_flatMap.mp entered
  obtain ⟨before, after, rfl⟩ := List.append_of_mem member
  obtain ⟨obeys, -⟩ := permits before step after rfl
  have grown : before <+: (before ++ step :: after).dropLast := by
    rw [List.dropLast_append_of_ne_nil (List.cons_ne_nil _ _)]
    exact List.prefix_append _ _
  obtain ⟨request, answer⟩ := step
  cases request with
  | record event =>
      cases event with
      | parameters owner listed =>
          obtain rfl := List.mem_singleton.mp enters
          exact .inl (placedBy_subset grown obeys.1.mem)
      | host type marker =>
          exact .inr ⟨type, marker,
            placedBy_subset (List.prefix_append _ _) (mem_placedBy_of_dropLast obeys.1), obeys.2,
            List.mem_singleton.mp enters⟩
      | _ => cases enters
  | _ => cases enters

variable {earlier later : Step}

/-- A step leaves alone what an earlier one has done. -/
theorem Setting.Permits.spared (permits : setting.Permits (history ++ [later])) (plain : setting.IsPlain)
    (once : (placedBy (history ++ [later])).Nodup) (taken : earlier ∈ history) {change : Change}
    (asked : change ∈ later.changes) : earlier.SparedBy change := by
  have moves := permits.moves plain change asked
  rw [placedBy_append_singleton] at once
  have apart {identity : Identity} (known : identity ∈ placedBy history) : identity ∉ later.placed :=
    fun member => (List.nodup_append.mp once).2.2 _ known _ member rfl
  have recent {identity : Identity} (just : JustPlaced history identity) :=
    just.not_mem_dropLast (List.nodup_append.mp once).1
  obtain ⟨before, between, rfl⟩ := List.append_of_mem taken
  have former : setting.Permits (before ++ [earlier]) :=
    permits.of_prefix ⟨between ++ [later], by simp⟩
  have old : placedBy before ⊆ placedBy (before ++ earlier :: between).dropLast := by
    refine placedBy_subset ?_
    rw [List.dropLast_append_of_ne_nil (List.cons_ne_nil _ _)]
    exact List.prefix_append _ _
  have old' : placedBy before.dropLast ⊆ placedBy (before ++ earlier :: between).dropLast :=
    fun identity known => old (mem_placedBy_of_dropLast known)
  have grown : setting.Permits (before ++ earlier :: between) := permits.of_prefix (List.prefix_append _ _)
  have own {identity : Identity} (known : identity ∈ earlier.placed) :
      identity ∈ placedBy (before ++ earlier :: between) :=
    List.mem_flatMap.mpr ⟨earlier, taken, known⟩
  have obeys := former.last.1
  constructor
  · obtain ⟨request, answer⟩ := earlier
    cases request with
    | isInterface type =>
        rintro detail rfl
        exact apart (mem_placedBy_of_dropLast (old' obeys)) (Step.mem_placed_of_describe asked)
    | superclass type =>
        rintro link (rfl | rfl) ⟨inherits, rfl⟩
        · have flat := (permits.links link).1 asked
          rw [inherits] at flat
          cases flat
        · exact recent ((permits.links link).2 asked) (old' obeys)
    | visible method localBlocks limit blocks =>
        intro move member
        refine ⟨fun parameter same => ?_, fun isLocal => ?_⟩
        · have just := (moves move member).parameter parameter |>.2
          rw [same] at just
          rcases former.entered (enteredBy_subset (List.prefix_append _ _) obeys.1) with placed | host
          · rw [List.dropLast_concat] at placed
            exact recent just (old placed)
          · obtain ⟨type, marker, placed, marked, rfl⟩ := host
            obtain ⟨other, header, known, part, named⟩ := grown.method_named just.mem
            refine Naming.methodName_ne_initializerName (grown.plain_type plain known)
              (former.plain_type plain placed) (plain.method part) marked _ named.symm
        · by_contra somewhere
          obtain ⟨⟨kind, name⟩, owner⟩ := move
          obtain rfl : kind = .localVariable := isLocal
          exact apart (mem_placedBy_of_dropLast (old (obeys.2 name somewhere)))
            ((moves _ member).placed nofun)
    | _ => trivial
  · intro told member
    have kept {child owner : Identity} (moved : (child, owner) ∈ told.moves) :
        change.KeepsIn child owner := by
      intro move known same
      have here := former.moves plain told member _ moved
      have there := moves move known
      by_cases method : child.1 = .method
      · subst same
        exact (there.method method).trans (here.method method).symm
      · exact absurd (same ▸ there.placed (same ▸ method)) (apart (own (here.placed method)))
    cases told with
    | place child anchor owner => exact kept List.mem_cons_self
    | adopt child owner => exact kept List.mem_cons_self
    | describe identity detail =>
        refine (former.tells member).imp_right fun tells other same => ?_
        subst same
        refine (permits.tells asked).resolve_right fun again => ?_
        cases tells with
        | placed kind placed =>
            cases again with
            | placed _ placed' => exact apart (own placed) placed'
            | justPlaced isLocal => exact kind isLocal
        | justPlaced isLocal nothing just =>
            cases again with
            | placed kind => exact kind isLocal
            | justPlaced _ _ just' => exact recent just' (old just.mem)
    | ensureConstructor type =>
        exact fun method constructs => permits.keepsConstructor plain (former.plain_type plain
          (placedBy_subset (List.prefix_append _ _) (former.constructed member))) asked constructs
    | _ => trivial

/-- What an event declares it places. -/
theorem Step.exists_place {identity : Identity} (placed : identity ∈ step.placed) :
    ∃ anchor owner, .place identity anchor owner ∈ step.changes := by
  obtain ⟨request, answer⟩ := step
  cases request with
  | declareType naming anchor owner flags =>
      rw [List.mem_singleton.mp placed]
      exact ⟨anchor, owner, List.mem_cons_self⟩
  | record event =>
      cases event with
      | method name anchor type returned modifiers parameterTypes =>
          rw [List.mem_singleton.mp placed]
          exact ⟨anchor, (.type, type), List.mem_cons_self⟩
      | parameters owner listed =>
          obtain ⟨parameter, known, rfl⟩ := List.mem_map.mp placed
          exact ⟨parameter.anchor, (.method, owner),
            List.mem_flatMap.mpr ⟨parameter, known, List.mem_cons_self⟩⟩
      | field name anchor owner modifiers type signatureType =>
          rw [List.mem_singleton.mp placed]
          exact ⟨anchor, (.type, owner), List.mem_cons_self⟩
      | localVariable name anchor owner =>
          rw [List.mem_singleton.mp placed]
          exact ⟨anchor, (.method, owner), List.mem_cons_self⟩
      | _ => cases placed
  | _ => cases placed

theorem Event.pairwise_spares {event : Event} (once : event.placed.Nodup) :
    event.changes.Pairwise fun earlier later => later.Spares earlier := by
  cases event with
  | supertypes links =>
      refine List.pairwise_of_forall_mem_list fun earlier member _ _ => ?_
      obtain ⟨link, -, member⟩ := List.mem_flatMap.mp member
      rcases List.mem_pair.mp member with rfl | rfl <;> trivial
  | method name anchor type returned modifiers parameterTypes =>
      cases returned <;>
        simp [changes, Change.Spares, Change.KeepsIn, Change.moves]
  | parameters owner listed =>
      refine List.pairwise_flatMap.mpr ⟨fun parameter _ => ?_, ?_⟩
      · simp [Change.Spares, Change.KeepsIn, Change.moves]
      · refine (List.pairwise_map.mp once).imp fun {one other} different earlier first later second => ?_
        have apart : one.name ≠ other.name := fun same => different (congrArg _ same)
        simp only [List.mem_cons, List.not_mem_nil, or_false] at first second
        rcases first with rfl | rfl | rfl
        · rcases second with rfl | rfl | rfl <;>
            simp [Change.Spares, Change.KeepsIn, Change.moves]
        · trivial
        · rcases second with rfl | rfl | rfl <;>
            simp [Change.Spares, Change.DescribesLightly, apart.symm]
  | call type name parameterTypes returned link =>
      cases returned <;> simp [changes, Change.Spares]
  | anonymousConstructor type parameterTypes link =>
      have light : Detail.IsLight { modifiers := Modifiers.isSynthetic } := ⟨rfl, rfl, rfl, rfl⟩
      simp [changes, Change.Spares, light]
  | field name anchor owner modifiers type signatureType =>
      have light : Detail.IsLight { modifiers } := ⟨rfl, rfl, rfl, rfl⟩
      simp [changes, Change.Spares, Change.KeepsIn, Change.moves, light]
  | localType name modifiers type signatureType =>
      have light : Detail.IsLight { modifiers } := ⟨rfl, rfl, rfl, rfl⟩
      simp [changes, Change.Spares, light]
  | _ => simp [changes, Change.Spares, Change.KeepsIn, Change.moves]

theorem Step.pairwise_spares (once : step.placed.Nodup) :
    step.changes.Pairwise fun earlier later => later.Spares earlier := by
  obtain ⟨request, answer⟩ := step
  cases request with
  | declareType naming anchor owner flags =>
      simp [changes, Request.changes, Change.Spares, Change.KeepsIn, Change.moves]
  | record event => exact event.pairwise_spares once
  | _ => exact .nil

theorem Change.allReady_of_light {owned : Identity → Prop} {changes : List Change}
    (ready : ∀ change ∈ changes, ∀ more : Identity → Prop, change.Ready more) :
    Change.AllReady owned changes := by
  induction changes generalizing owned with
  | nil => trivial
  | cons change changes ih =>
      rw [List.forall_mem_cons] at ready
      exact ⟨ready.1 _, ih ready.2⟩

/-- A lawful step builds on nothing but what was declared before. -/
theorem Setting.Permits.ready (permits : setting.Permits (history ++ [step])) {owned : Identity → Prop}
    (placed : ∀ identity ∈ placedBy history, owned identity) :
    Change.AllReady owned step.changes := by
  have obeys := permits.last.1
  have flat (link : Link) := (permits.links link).1
  obtain ⟨request, answer⟩ := step
  cases request with
  | declareType naming anchor owner flags => exact ⟨trivial, .inr List.mem_cons_self, trivial⟩
  | record event =>
      cases event with
      | supertypes links =>
          refine Change.allReady_of_light fun change member _ => ?_
          obtain ⟨link, -, member⟩ := List.mem_flatMap.mp member
          rcases List.mem_pair.mp member with rfl | rfl <;> trivial
      | method name anchor type returned modifiers parameterTypes =>
          cases returned with
          | none => exact ⟨trivial, .inr List.mem_cons_self, trivial⟩
          | some returned => exact ⟨trivial, trivial, .inl (.inr List.mem_cons_self), trivial⟩
      | parameters owner listed =>
          have each : ∀ (listed : List ParameterEvent) (owned : Identity → Prop),
              Change.AllReady owned (Event.parameters owner listed).changes := by
            intro listed
            induction listed with
            | nil => exact fun _ => trivial
            | cons parameter listed ih =>
                exact fun _ => ⟨trivial, trivial, .inl (.inr List.mem_cons_self), ih _⟩
          exact each listed owned
      | host type marker => exact ⟨trivial, .inr List.mem_cons_self, trivial⟩
      | anonymousConstructor type parameterTypes link =>
          exact ⟨trivial, .inr List.mem_cons_self,
            flat link (List.mem_cons_of_mem _ (List.mem_cons_of_mem _ List.mem_cons_self)), trivial⟩
      | field name anchor owner modifiers type signatureType =>
          exact ⟨trivial, .inr List.mem_cons_self, trivial, .inl (.inl (.inr List.mem_cons_self)), trivial⟩
      | localType name modifiers type signatureType =>
          have known : owned (.localVariable, name) := placed _ obeys.mem
          exact ⟨known, trivial, .inl (.inl known), trivial⟩
      | access type name link =>
          exact ⟨trivial, flat link (List.mem_cons_of_mem _ List.mem_cons_self), trivial⟩
      | check link => exact ⟨trivial, flat link (List.mem_cons_of_mem _ List.mem_cons_self), trivial⟩
      | call type name parameterTypes returned link =>
          have last : link.kind.isHierarchy = false :=
            flat link (List.mem_append_right _ List.mem_cons_self)
          cases returned with
          | none => exact ⟨trivial, last, trivial⟩
          | some returned => exact ⟨trivial, .inr List.mem_cons_self, last, trivial⟩
      | constructor type => exact ⟨trivial, trivial⟩
      | localVariable name anchor owner => exact ⟨trivial, trivial⟩
  | _ => trivial

/-- What a lawful step asks about is known where everything that was declared is. -/
theorem Setting.Permits.grounded (permits : setting.Permits (history ++ [step])) {facts : Facts}
    (placed : ∀ identity ∈ placedBy history,
      (facts.anchor? identity).isSome ∧ (facts.owner? identity).isSome) :
    step.request.Grounded facts := by
  have obeys := permits.last.1
  obtain ⟨request, answer⟩ := step
  cases request with
  | isInterface type => exact (placed _ (mem_placedBy_of_dropLast obeys)).2
  | visible method localBlocks limit blocks =>
      exact fun name somewhere => (placed _ (obeys.2 name somewhere)).1
  | _ => trivial

theorem Setting.Permits.movesHome (permits : setting.Permits (history ++ [step])) (plain : setting.IsPlain) :
    ∀ change ∈ step.changes, change.MovesHome :=
  fun change member move moves parameter =>
    ((permits.moves plain change member move moves).parameter parameter).1

namespace Change

theorem atHome_left {changes : List Change} {facts : Facts} (home : facts.AtHome)
    (moves : ∀ change ∈ changes, change.MovesHome) : (left (applyAll facts changes)).AtHome := by
  induction changes generalizing facts with
  | nil => exact home
  | cons change changes ih =>
      rw [List.forall_mem_cons] at moves
      have first := (change.writes_left facts).atHome home moves.1
      rw [applyAll]
      cases applied : change.apply facts with
      | error left =>
          rw [applied] at first
          exact first
      | ok left =>
          rw [applied] at first
          exact ih first moves.2

end Change

theorem placed_of_settled {facts : Facts} (settled : ∀ step ∈ history, step.Settled facts) :
    ∀ identity ∈ placedBy history,
      (facts.anchor? identity).isSome ∧ (facts.owner? identity).isSome := by
  intro identity placed
  obtain ⟨step, member, placed⟩ := List.mem_flatMap.mp placed
  obtain ⟨anchor, owner, changed⟩ := step.exists_place placed
  obtain ⟨here, owned, -⟩ := (settled step member).changes _ changed
  rw [here, owned]
  exact ⟨rfl, rfl⟩

/-- Steps that the law allows are all met behind the last of them, as long as they declare nothing
twice. -/
theorem Performs.settled {start facts : Facts} (performed : Performs start history facts)
    (home : start.AtHome) (permits : setting.Permits history) (plain : setting.IsPlain)
    (once : (placedBy history).Nodup) : facts.AtHome ∧ ∀ step ∈ history, step.Settled facts := by
  induction performed with
  | start => exact ⟨home, fun _ => (nomatch ·)⟩
  | @step history facts after request answer _ asked ih =>
      have onceBefore := once
      rw [placedBy_append_singleton] at onceBefore
      obtain ⟨onceBefore, onceStep, -⟩ := List.nodup_append.mp onceBefore
      obtain ⟨home, settled⟩ := ih (permits.of_prefix (List.prefix_append _ _)) onceBefore
      obtain ⟨-, applied⟩ := Request.perform_eq_ok asked
      have moves := permits.movesHome plain
      have placed := placed_of_settled settled
      have homeAfter := Change.atHome_left home moves
      have left : Change.left (Change.applyAll facts (Step.changes ⟨request, answer⟩)) = after :=
        congrArg Change.left applied
      rw [left] at homeAfter
      refine ⟨homeAfter, fun step member => ?_⟩
      rcases List.mem_append.mp member with earlier | new
      · exact (settled step earlier).kept_applyAll
          (fun later asked => permits.spared plain once earlier asked) moves home applied
      · rw [List.mem_singleton.mp new]
        exact Step.settled_of_perform (permits.grounded placed)
          (permits.ready fun identity known => (placed identity known).2)
          (Step.pairwise_spares onceStep) asked

end JavaFacts
