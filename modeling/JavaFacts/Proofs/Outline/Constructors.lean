import JavaFacts.Proofs.Facts.Constructors
import JavaFacts.Proofs.Outline.Bodies
import JavaFacts.Proofs.Outline.Repetition

/-!
Default constructors. When a walk leaves the body of a class, a constructor is made up unless the
facts know one. That is told by what the body declares, as long as no call has made one known
before.
-/

namespace JavaFacts

/-- The methods that a step refers to by a binding. -/
def Step.called : Step → List String
  | ⟨.record (.call _ name _ _ _), _⟩ => [name]
  | _ => []

def calledBy (history : List Step) : List String :=
  history.flatMap Step.called

namespace Event

/-- The entities that an event makes sure to have owners, other than those of types that it refers
to. -/
def secured : Event → List Identity
  | method name .. | call _ name .. => [(.method, name)]
  | parameters _ listed => listed.map fun parameter => (.parameter, parameter.name)
  | host type marker => [(.method, Naming.initializerName type marker)]
  | anonymousConstructor type parameterTypes _ =>
      [(.method, Naming.methodName type "" true parameterTypes)]
  | field name .. => [(.field, name)]
  | localVariable name .. => [(.localVariable, name)]
  | _ => []

theorem mem_secured {event : Event} {change : Change} (member : change ∈ event.changes)
    {identity : Identity} (owns : identity ∈ change.owns) : identity ∈ event.secured := by
  have same : event.changes.flatMap Change.owns = event.secured := by
    cases event with
    | supertypes links =>
        rw [changes, List.flatMap_assoc]
        exact List.flatMap_eq_nil_iff.mpr fun _ _ => rfl
    | method name anchor type returned modifiers parameterTypes => cases returned <;> rfl
    | parameters owner listed =>
        rw [changes, List.flatMap_assoc]
        exact List.flatMap_pure_eq_map _ _
    | call type name parameterTypes returned link => cases returned <;> rfl
    | _ => rfl
  exact same ▸ List.mem_flatMap.mpr ⟨change, member, owns⟩

end Event

theorem Change.IsConstructorOf.ne_initializerName {type host marker : String} {method : Identity}
    (constructs : Change.IsConstructorOf type method) (free : '(' ∉ type.toList)
    (hostFree : '(' ∉ host.toList)
    (marked : marker ∈ [Naming.instanceInitializer, Naming.staticInitializer]) :
    method.2 ≠ Naming.initializerName host marker := by
  intro same
  obtain ⟨rest, named⟩ := Text.startsWith_iff.mp constructs.2
  have opened : Naming.initializerName host marker = host ++ "." ++ marker ++ "(" ++ ")" := by
    rw [String.append_assoc]
    rfl
  have markerFree : '(' ∉ marker.toList ∧ '.' ∉ marker.toList ∧
      Naming.constructorMarker ≠ marker := by
    rcases List.mem_pair.mp marked with rfl | rfl <;> decide
  rw [named, Naming.constructorStem, opened] at same
  exact markerFree.2.2 (Naming.MethodParts.eq_of_cut ⟨free, by decide⟩
    ⟨hostFree, markerFree.1, markerFree.2.1⟩ same).2.1

theorem Change.IsConstructorOf.type_eq {type other : String} {parameterTypes : List String}
    (constructs : Change.IsConstructorOf type
      (.method, Naming.methodName other "" true parameterTypes))
    (free : '(' ∉ type.toList) (otherFree : '(' ∉ other.toList) : other = type := by
  have same : Naming.classOf (Naming.methodName other "" true parameterTypes) = other :=
    Naming.classOf_methodName otherFree (by simp) _
  exact same.symm.trans (constructs.classOf free)

/-- Steps that are allowed, stay inside of the bodies of types and declare nothing twice. -/
structure Setting.Orderly (setting : Setting) (history : List Step) : Prop where
  permits : setting.Permits history
  inside : ∀ before step later, history = before ++ step :: later → step.request.Inside before
  once : (placedBy history).Nodup

namespace Setting.Orderly

variable {setting : Setting} {history later : List Step} {step : Step} {type : String}
  {change : Change} {method : Identity} {before after : Facts}

theorem of_prefix (orderly : setting.Orderly later) (grown : history <+: later) :
    setting.Orderly history where
  permits := orderly.permits.of_prefix grown
  inside before step after split := by
    obtain ⟨rest, rfl⟩ := grown
    exact orderly.inside before step (after ++ rest)
      (by rw [split, List.append_assoc, List.cons_append])
  once := by
    obtain ⟨rest, rfl⟩ := grown
    have once := orderly.once
    rw [placedBy, List.flatMap_append] at once
    exact (List.nodup_append.mp once).1

/-- Types that were declared before the last step have no parenthesis in their names. -/
theorem plain_before (orderly : setting.Orderly (history ++ [step])) (plain : setting.IsPlain)
    (placed : (.type, type) ∈ placedBy history.dropLast) : '(' ∉ type.toList :=
  orderly.permits.plain_type plain
    (placedBy_subset (List.prefix_append _ _) (mem_placedBy_of_dropLast placed))

/-- A constructor that a step makes sure of is declared, called, or that of an anonymous class. -/
theorem owns (orderly : setting.Orderly (history ++ [step])) (plain : setting.IsPlain)
    (free : '(' ∉ type.toList) (constructs : Change.IsConstructorOf type method)
    (member : change ∈ step.changes) (owned : method ∈ change.owns) :
    method ∈ step.placed ∨ method.2 ∈ step.called ∨ IsAnonymousIn history type := by
  have obeys := orderly.permits.last.1
  have inside := orderly.inside history step [] rfl
  obtain ⟨kind, name⟩ := method
  obtain rfl : kind = .method := constructs.1
  obtain ⟨request, answer⟩ := step
  cases request with
  | declareType naming anchor owner flags =>
      rcases List.mem_pair.mp member with rfl | rfl
      · cases List.mem_singleton.mp owned
      · cases owned
  | record event =>
      have secured := event.mem_secured member owned
      cases event with
      | method => exact .inl secured
      | parameters owner listed =>
          obtain ⟨parameter, -, same⟩ := List.mem_map.mp secured
          cases same
      | host other marker =>
          exact absurd (congrArg Prod.snd (List.mem_singleton.mp secured))
            (constructs.ne_initializerName free (orderly.plain_before plain obeys.1) obeys.2)
      | anonymousConstructor other parameterTypes link =>
          obtain rfl := (Prod.mk.inj (List.mem_singleton.mp secured)).2
          exact .inr (.inr (constructs.type_eq free (orderly.plain_before plain obeys.1) ▸ inside))
      | field => cases List.mem_singleton.mp secured
      | localVariable => cases List.mem_singleton.mp secured
      | call =>
          have same := congrArg Prod.snd (List.mem_singleton.mp secured)
          exact .inr (.inl (same ▸ List.mem_cons_self))
      | _ => cases secured
  | _ => cases member

/-- No step marks a constructor as synthetic, as long as no declaration in source does and it is not
that of an anonymous class. -/
theorem marks (orderly : setting.Orderly (history ++ [step])) (plain : setting.IsPlain)
    (source : ∀ header, .method header ∈ setting.parts →
      header.modifiers.contains Modifiers.isSynthetic = false)
    (free : '(' ∉ type.toList) (constructs : Change.IsConstructorOf type method) {detail : Detail}
    (member : .describe method detail ∈ step.changes)
    (marked : detail.modifiers.contains Modifiers.isSynthetic) : IsAnonymousIn history type := by
  have obeys := orderly.permits.last.1
  have inside := orderly.inside history step [] rfl
  obtain ⟨kind, name⟩ := method
  obtain rfl : kind = .method := constructs.1
  obtain ⟨request, answer⟩ := step
  cases request with
  | declareType naming anchor owner flags =>
      rcases List.mem_pair.mp member with same | same <;> cases same
  | record event =>
      have member : .describe (.method, name) detail ∈ event.changes := member
      cases event with
      | supertypes links =>
          obtain ⟨link, -, member⟩ := List.mem_flatMap.mp member
          rcases List.mem_pair.mp member with same | same <;> cases same
      | method other anchor owner returned modifiers parameterTypes =>
          obtain ⟨-, header, part, rfl, -, -⟩ := obeys
          have told : detail.modifiers = header.modifiers := by
            cases returned <;> simp [Event.changes] at member <;> rw [member.2]
          rw [told, source header part] at marked
          cases marked
      | parameters owner listed => simp [Event.changes] at member
      | host other marker =>
          rcases List.mem_pair.mp member with same | same
          · cases same
          · exact absurd (congrArg Prod.snd (Change.describe.inj same).1)
              (constructs.ne_initializerName free (orderly.plain_before plain obeys.1) obeys.2)
      | anonymousConstructor other parameterTypes link =>
          simp only [Event.changes, List.mem_cons, List.not_mem_nil, or_false, reduceCtorEq,
            false_or] at member
          obtain ⟨same, -⟩ := Change.describe.inj member
          obtain rfl := (Prod.mk.inj same).2
          exact constructs.type_eq free (orderly.plain_before plain obeys.1) ▸ inside
      | call other name parameterTypes returned link =>
          cases returned <;> simp [Event.changes] at member
      | _ => simp [Event.changes] at member
  | _ => cases member

/-- A constructor is made up for the class that it constructs. -/
theorem eq_of_makesUp (orderly : setting.Orderly (history ++ [step])) (plain : setting.IsPlain)
    (free : '(' ∉ type.toList) {name : String}
    (constructs : Change.IsConstructorOf type (.method, name)) (member : change ∈ step.changes)
    (makesUp : change.MakesUp before name) :
    change = .ensureConstructor type ∧ before.hasConstructor type = false := by
  obtain ⟨other, rfl, rfl, missing⟩ := makesUp
  have otherFree := orderly.permits.plain_type plain
    (placedBy_subset (List.prefix_append _ _) (orderly.permits.constructed member))
  obtain rfl := constructs.type_eq free otherFree
  exact ⟨rfl, missing⟩

/-- It is with its last step that a walk through the body of a class makes up a constructor. -/
theorem left_of_makesUp (orderly : setting.Orderly (history ++ [step])) (plain : setting.IsPlain)
    (free : '(' ∉ type.toList) {name : String}
    (constructs : Change.IsConstructorOf type (.method, name)) (member : change ∈ step.changes)
    (makesUp : change.MakesUp before name) : type ∈ step.left := by
  obtain ⟨rfl, -⟩ := orderly.eq_of_makesUp plain free constructs member makesUp
  obtain ⟨request, answer⟩ := step
  cases request with
  | declareType naming anchor owner flags =>
      rcases List.mem_pair.mp member with same | same <;> cases same
  | record event =>
      obtain rfl := event.eq_constructor member
      exact List.mem_cons_self
  | _ => cases member

/-- A change leaves the constructors of a class unmarked, unless it makes one up. -/
theorem unmarked_of_apply (orderly : setting.Orderly (history ++ [step])) (plain : setting.IsPlain)
    (source : ∀ header, .method header ∈ setting.parts →
      header.modifiers.contains Modifiers.isSynthetic = false)
    (free : '(' ∉ type.toList) (named : ¬IsAnonymousIn history type)
    (member : change ∈ step.changes) (applied : change.apply before = .ok after)
    (kept : ∀ name, Change.IsConstructorOf type (.method, name) → ¬change.MakesUp before name)
    (unmarked : ∀ method, Change.IsConstructorOf type method → before.isSynthetic method = false)
    (constructs : Change.IsConstructorOf type method) : after.isSynthetic method = false := by
  obtain ⟨kind, name⟩ := method
  obtain rfl : kind = .method := constructs.1
  refine Bool.eq_false_iff.mpr fun marked => ?_
  rcases Change.isSynthetic_of_apply applied marked with known | ⟨detail, rfl, marked⟩ | makesUp
  · rw [unmarked _ constructs] at known
    cases known
  · exact named (orderly.marks plain source free constructs member marked)
  · exact kept name constructs makesUp

/-- A class that has a constructor keeps it. -/
theorem keepsConstructor (orderly : setting.Orderly (history ++ [step])) (plain : setting.IsPlain)
    (free : '(' ∉ type.toList) (member : change ∈ step.changes)
    (applied : change.apply before = .ok after) (constructed : before.hasConstructor type) :
    after.hasConstructor type :=
  (Change.writes_of_apply applied).hasConstructor constructed fun _ constructs =>
    orderly.permits.keepsConstructor plain free member constructs

end Setting.Orderly

/-- Whether no constructor of the type is known but those declared, and none is marked as
synthetic. -/
structure Facts.Unmade (type : String) (declared : List Identity) (facts : Facts) : Prop where
  owned : ∀ method, Change.IsConstructorOf type method → (facts.owner? method).isSome →
    method ∈ declared
  listed : ∀ method ∈ facts.members (.type, type), Change.IsConstructorOf type method →
    (facts.owner? method).isSome
  unmarked : ∀ method, Change.IsConstructorOf type method → facts.isSynthetic method = false

theorem Facts.Unmade.hasConstructor {facts : Facts} {type : String} {declared : List Identity}
    (unmade : facts.Unmade type declared)
    (none : ∀ method ∈ declared, ¬Change.IsConstructorOf type method) :
    facts.hasConstructor type = false := by
  refine Bool.eq_false_iff.mpr fun constructed => ?_
  obtain ⟨method, listed, constructs⟩ := Facts.hasConstructor_iff.mp constructed
  have owned := unmade.listed method listed constructs
  exact none method (unmade.owned method constructs owned) constructs

theorem IsAnonymousIn.extended {history later : List Step} {type : String}
    (isAnonymous : IsAnonymousIn history type) (grown : history <+: later) :
    IsAnonymousIn later type := by
  obtain ⟨naming, anchor, owner, member⟩ := isAnonymous
  exact ⟨naming, anchor, owner, grown.subset member⟩

theorem Step.eq_of_method_placed {step : Step} {name : String}
    (placed : (.method, name) ∈ step.placed) :
    ∃ anchor type returned modifiers parameterTypes,
      step = ⟨.record (.method name anchor type returned modifiers parameterTypes), ()⟩ := by
  obtain ⟨request, answer⟩ := step
  cases request with
  | declareType naming anchor owner flags => cases List.mem_singleton.mp placed
  | record event =>
      cases event with
      | method other anchor type returned modifiers parameterTypes =>
          obtain rfl := (Prod.mk.inj (List.mem_singleton.mp placed)).2
          exact ⟨anchor, type, returned, modifiers, parameterTypes, rfl⟩
      | parameters owner listed =>
          obtain ⟨parameter, -, same⟩ := List.mem_map.mp placed
          cases same
      | field => cases List.mem_singleton.mp placed
      | localVariable => cases List.mem_singleton.mp placed
      | _ => cases placed
  | _ => cases placed

theorem Step.eq_of_left {step : Step} {type : String} (left : type ∈ step.left) :
    step = ⟨.record (.constructor type), ()⟩ := by
  obtain ⟨request, answer⟩ := step
  cases request with
  | record event =>
      cases event with
      | constructor other => rw [List.mem_singleton.mp left]
      | _ => cases left
  | _ => cases left

/-- The steps up to the end of the body of a class. -/
def untilLeft (type : String) (history : List Step) : List Step :=
  history.takeWhile fun step => type ∉ step.left

theorem eq_untilLeft_append {type : String} {history : List Step} (left : type ∈ leftBy history) :
    ∃ later, history = untilLeft type history ++ ⟨.record (.constructor type), ()⟩ :: later ∧
      type ∉ leftBy (untilLeft type history) := by
  induction history with
  | nil => cases left
  | cons step history ih =>
      by_cases here : type ∈ step.left
      · refine ⟨history, ?_, ?_⟩ <;>
          rw [untilLeft, List.takeWhile_cons_of_neg (by simpa using here)]
        · rw [Step.eq_of_left here, List.nil_append]
        · exact fun member => nomatch member
      · have onward : untilLeft type (step :: history) = step :: untilLeft type history :=
          List.takeWhile_cons_of_pos (by simpa using here)
        obtain ⟨later, split, open'⟩ := ih ((List.mem_append.mp left).resolve_left here)
        refine ⟨later, ?_, ?_⟩ <;> rw [onward]
        · rw [List.cons_append, ← split]
        · exact fun member => (List.mem_append.mp member).elim here open'

namespace Setting.Orderly

variable {setting : Setting} {history : List Step} {step : Step} {type : String}
  {start facts before after : Facts}

/-- A step that neither calls a constructor of a class nor leaves the body of the class makes none
known but those that it declares. -/
theorem unmade_of_apply (orderly : setting.Orderly (history ++ [step])) (plain : setting.IsPlain)
    (source : ∀ header, .method header ∈ setting.parts →
      header.modifiers.contains Modifiers.isSynthetic = false)
    (free : '(' ∉ type.toList) (named : ¬IsAnonymousIn history type) (stays : type ∉ step.left)
    (uncalled : ∀ name ∈ step.called, ¬Change.IsConstructorOf type (.method, name))
    {declared : List Identity} (placed : step.placed ⊆ declared) {change : Change}
    (member : change ∈ step.changes) (applied : change.apply before = .ok after)
    (unmade : before.Unmade type declared) : after.Unmade type declared := by
  have writes := Change.writes_of_apply applied
  have kept (name : String) (constructs : Change.IsConstructorOf type (.method, name))
      (makesUp : change.MakesUp before name) : False :=
    stays (orderly.left_of_makesUp plain free constructs member makesUp)
  refine ⟨fun method constructs owned => ?_, fun method listed constructs => ?_, fun method =>
    orderly.unmarked_of_apply plain source free named member applied kept unmade.unmarked⟩
  · obtain ⟨kind, name⟩ := method
    obtain rfl : kind = .method := constructs.1
    rcases Change.isSome_owner?_of_apply applied owned with known | owns | makesUp
    · exact unmade.owned _ constructs known
    · rcases orderly.owns plain free constructs member owns with here | called | isAnonymous
      · exact placed here
      · exact absurd constructs (uncalled name called)
      · exact absurd isAnonymous named
    · exact (kept name constructs makesUp).elim
  · rcases writes.mem_members listed with former | owned
    · obtain ⟨owner, owned⟩ :=
        Option.isSome_iff_exists.mp (unmade.listed method former constructs)
      exact (writes.owner? owned).1
    · exact owned

/-- Before a walk has left the body of a class, its constructors are those that were declared,
unless one was called. -/
theorem unmade (orderly : setting.Orderly history) (plain : setting.IsPlain)
    (source : ∀ header, .method header ∈ setting.parts →
      header.modifiers.contains Modifiers.isSynthetic = false)
    (free : '(' ∉ type.toList) (named : ¬IsAnonymousIn history type) (stays : type ∉ leftBy history)
    (uncalled : ∀ name ∈ calledBy history, ¬Change.IsConstructorOf type (.method, name))
    (initial : start.Unmade type []) (performed : Performs start history facts) :
    facts.Unmade type (placedBy history) := by
  have first : start.Unmade type (placedBy history) :=
    ⟨fun method constructs owned => (nomatch initial.owned method constructs owned),
      initial.listed, initial.unmarked⟩
  refine performed.keeps (·.Unmade type (placedBy history)) first ?_
  intro earlier step later split change member before after held applied
  have grown : earlier ++ [step] <+: history := ⟨later, by rw [split, List.append_assoc]; rfl⟩
  have taken : step ∈ history := grown.subset (List.mem_append_right _ List.mem_cons_self)
  exact (orderly.of_prefix grown).unmade_of_apply plain source free
    (fun isAnonymous => named (isAnonymous.extended ((List.prefix_append _ _).trans grown)))
    (fun left => stays (List.mem_flatMap.mpr ⟨step, taken, left⟩))
    (fun name called => uncalled name (List.mem_flatMap.mpr ⟨step, taken, called⟩))
    (fun _ placed => List.mem_flatMap.mpr ⟨step, taken, placed⟩) member applied held

theorem keepsConstructors {before : List Step} (orderly : setting.Orderly (before ++ history))
    (plain : setting.IsPlain) (free : '(' ∉ type.toList) (constructed : start.hasConstructor type)
    (performed : Performs start history facts) : facts.hasConstructor type := by
  refine performed.keeps (·.hasConstructor type) constructed ?_
  intro earlier step later split change member middle after held applied
  have onward : setting.Orderly ((before ++ earlier) ++ [step]) :=
    orderly.of_prefix ⟨later, by rw [split]; simp⟩
  exact onward.keepsConstructor plain free member applied held

/-- A constructor is declared in the body of the class that it constructs. -/
theorem declaration (orderly : setting.Orderly (history ++ [step])) (plain : setting.IsPlain)
    (free : '(' ∉ type.toList) {name : String}
    (constructs : Change.IsConstructorOf type (.method, name))
    (placed : (.method, name) ∈ step.placed) :
    (.type, type) ∈ placedBy history ∧ ∃ anchor returned modifiers parameterTypes,
      step = ⟨.record (.method name anchor type returned modifiers parameterTypes), ()⟩ := by
  obtain ⟨anchor, other, returned, modifiers, parameterTypes, rfl⟩ :=
    Step.eq_of_method_placed placed
  obtain ⟨placedType, header, part, rfl, rfl, rfl⟩ := orderly.permits.last.1
  obtain rfl : other = type := by
    rw [← constructs.classOf free, Naming.classOf_methodName_plain
      (orderly.plain_before plain placedType) (plain.method part)]
  exact ⟨mem_placedBy_of_dropLast placedType, anchor, returned, header.modifiers, _, rfl⟩

/-- A constructor that the body declares is known when the walk leaves it. -/
theorem hasConstructor_of_declared (orderly : setting.Orderly history) (plain : setting.IsPlain)
    (source : ∀ header, .method header ∈ setting.parts →
      header.modifiers.contains Modifiers.isSynthetic = false)
    (free : '(' ∉ type.toList) (named : ¬IsAnonymousIn history type) (stays : type ∉ leftBy history)
    (uncalled : ∀ name ∈ calledBy history, ¬Change.IsConstructorOf type (.method, name))
    (initial : start.Unmade type []) (home : start.AtHome)
    (performed : Performs start history facts) {method : Identity}
    (constructs : Change.IsConstructorOf type method) (declared : method ∈ placedBy history) :
    facts.hasConstructor type := by
  obtain ⟨kind, name⟩ := method
  obtain rfl : kind = .method := constructs.1
  obtain ⟨step, member, placed⟩ := List.mem_flatMap.mp declared
  obtain ⟨before, later, rfl⟩ := List.append_of_mem member
  have grown : before <+: before ++ step :: later := List.prefix_append _ _
  have split := List.append_cons before step later
  have kept {told : Step → List String} {name : String} (known : name ∈ before.flatMap told) :
      name ∈ (before ++ step :: later).flatMap told :=
    List.flatMap_append ▸ List.mem_append_left _ known
  have orderlyBefore := orderly.of_prefix grown
  have orderlyHere : setting.Orderly (before ++ [step]) := orderly.of_prefix ⟨later, split.symm⟩
  have new : (EntityKind.method, name) ∉ placedBy before := fun known => by
    have once := orderly.once
    rw [placedBy, List.flatMap_append] at once
    exact (List.nodup_append.mp once).2.2 _ known _ (List.mem_append_left _ placed) rfl
  rw [split] at performed orderly
  obtain ⟨middle, performed, rest⟩ := performed.split
  obtain ⟨former, reached, asked⟩ := performed.last
  have unmade := orderlyBefore.unmade plain source free
    (fun isAnonymous => named (isAnonymous.extended grown))
    (fun left => stays (kept left)) (fun name called => uncalled name (kept called)) initial reached
  have unowned : former.owner? (.method, name) = none :=
    Option.not_isSome_iff_eq_none.mp fun owned => new (unmade.owned _ constructs owned)
  obtain ⟨known, anchor, returned, modifiers, parameterTypes, rfl⟩ :=
    orderlyHere.declaration plain free constructs placed
  have settled := (reached.settled home orderlyBefore.permits plain orderlyBefore.once).2
  obtain ⟨owner, owned⟩ := Option.isSome_iff_exists.mp (placed_of_settled settled _ known).2
  refine orderly.keepsConstructors plain free ?_ rest
  -- the place comes first, and what else the step tells leaves it alone
  obtain ⟨declaring, first, others⟩ := Change.applyAll_cons (Request.perform_eq_ok asked).2
  exact Change.keeps_applyAll (·.hasConstructor type)
    (fun change member facts after held applied => orderlyHere.keepsConstructor plain free
      (List.mem_cons_of_mem _ member) applied held)
    (Facts.hasConstructor_of_placed constructs (Facts.knows_of_owner? owned) unowned first) others

/-- The constructors of a class are declared before the walk leaves its body. -/
theorem declared_before {before later : List Step}
    (orderly : setting.Orderly (before ++ step :: later)) (plain : setting.IsPlain)
    (left : type ∈ step.left) {method : Identity} (constructs : Change.IsConstructorOf type method)
    (free : '(' ∉ type.toList) (declared : method ∈ placedBy (before ++ step :: later)) :
    method ∈ placedBy before := by
  obtain ⟨kind, name⟩ := method
  obtain rfl : kind = .method := constructs.1
  rw [placedBy, List.flatMap_append] at declared
  refine (List.mem_append.mp declared).resolve_right fun behind => ?_
  have nothing : step.placed = [] := by rw [Step.eq_of_left left]; rfl
  obtain ⟨other, member, placed⟩ := List.mem_flatMap.mp behind
  rcases List.mem_cons.mp member with rfl | member
  · rw [nothing] at placed
    cases placed
  · obtain ⟨between, rest, rfl⟩ := List.append_of_mem member
    have orderlyHere : setting.Orderly ((before ++ step :: between) ++ [other]) :=
      orderly.of_prefix ⟨rest, by simp⟩
    obtain ⟨-, anchor, returned, modifiers, parameterTypes, rfl⟩ :=
      orderlyHere.declaration plain free constructs placed
    have inside : (leftBy (before ++ step :: between)).count type <
        (placedBy (before ++ step :: between)).count (.type, type) :=
      orderlyHere.inside _ _ [] rfl
    have once := List.nodup_iff_count.mp (orderlyHere.of_prefix (List.prefix_append _ _)).once
      (.type, type)
    have leaves : 0 < (leftBy (before ++ step :: between)).count type :=
      List.count_pos_iff.mpr (List.mem_flatMap.mpr ⟨step, by simp, left⟩)
    omega

/-- What becomes of the constructors of a class in a run that leaves its body, if none of them was
known before the run or called before the body was left. -/
theorem default_constructor (orderly : setting.Orderly history) (plain : setting.IsPlain)
    (source : ∀ header, .method header ∈ setting.parts →
      header.modifiers.contains Modifiers.isSynthetic = false)
    (free : '(' ∉ type.toList) (named : ¬IsAnonymousIn history type) (left : type ∈ leftBy history)
    (uncalled : ∀ name ∈ calledBy (untilLeft type history),
      ¬Change.IsConstructorOf type (.method, name))
    (initial : start.Unmade type []) (home : start.AtHome)
    (performed : Performs start history facts) :
    ((∀ method ∈ placedBy history, ¬Change.IsConstructorOf type method) →
      facts.owner? (.method, Naming.methodName type "" true []) = some (.type, type) ∧
        facts.isSynthetic (.method, Naming.methodName type "" true [])) ∧
    ((∃ method ∈ placedBy history, Change.IsConstructorOf type method) →
      ∀ method, Change.IsConstructorOf type method → facts.isSynthetic method = false) := by
  obtain ⟨later, split, stays⟩ := eq_untilLeft_append left
  generalize untilLeft type history = before at *
  let leaving : Step := ⟨.record (.constructor type), ()⟩
  have here : type ∈ leaving.left := List.mem_cons_self
  subst split
  have grown : before <+: before ++ leaving :: later := List.prefix_append _ _
  have orderlyBefore := orderly.of_prefix grown
  have namedBefore : ¬IsAnonymousIn before type := fun isAnonymous =>
    named (isAnonymous.extended grown)
  have rebuilt := List.append_cons before leaving later
  obtain ⟨middle, performed, rest⟩ := (rebuilt ▸ performed).split
  obtain ⟨former, reached, asked⟩ := performed.last
  have unmade := orderlyBefore.unmade plain source free namedBefore stays uncalled initial reached
  obtain ⟨after, applied, same⟩ := Change.applyAll_cons (Request.perform_eq_ok asked).2
  cases same
  cases applied
  have onward {earlier others : List Step} {step : Step}
      (split : later = earlier ++ step :: others) :
      setting.Orderly ((before ++ leaving :: earlier) ++ [step]) :=
    orderly.of_prefix ⟨others, by simp [split, leaving]⟩
  constructor
  · intro none
    have missing := unmade.hasConstructor fun method declared =>
      none method (placedBy_subset grown declared)
    refine rest.keeps (fun facts => facts.owner? _ = some _ ∧ facts.isSynthetic _)
      (Facts.withConstructor_of_missing missing) ?_
    intro earlier step others split change member facts after held applied
    have writes := Change.writes_of_apply applied
    exact ⟨(writes.owner? held.1).2 ((onward split).permits.keepsConstructor plain free member
      (Change.isConstructorOf_default type)), writes.isSynthetic held.2⟩
  · rintro ⟨method, declared, constructs⟩
    have constructed := orderlyBefore.hasConstructor_of_declared plain source free namedBefore stays
      uncalled initial home reached constructs
      (orderly.declared_before plain here constructs free declared)
    rw [Facts.withConstructor, if_pos constructed] at rest
    refine (rest.keeps (fun facts => facts.hasConstructor type ∧
      ∀ method, Change.IsConstructorOf type method → facts.isSynthetic method = false)
      ⟨constructed, unmade.unmarked⟩ ?_).2
    intro earlier step others split change member facts after held applied
    have namedHere : ¬IsAnonymousIn (before ++ leaving :: earlier) type := fun isAnonymous =>
      named (isAnonymous.extended ⟨step :: others, by simp [split, leaving]⟩)
    refine ⟨(onward split).keepsConstructor plain free member applied held.1, fun method =>
      (onward split).unmarked_of_apply plain source free namedHere member applied ?_ held.2⟩
    intro name constructs makesUp
    have missing := ((onward split).eq_of_makesUp plain free constructs member makesUp).2
    rw [held.1] at missing
    cases missing

end Setting.Orderly

theorem Store.Whole.knows_member {store : Store} (whole : store.Whole) {identity member : Identity}
    (listed : member ∈ store.facts.members identity) : store.facts.Knows member := by
  rw [Facts.members, Store.lookup_facts] at listed
  cases found : (store.find? identity.1 identity.2).bind store.entity? with
  | none =>
      rw [found] at listed
      cases listed
  | some entity =>
      rw [found] at listed
      obtain ⟨id, -, named⟩ := List.mem_filterMap.mp listed
      obtain ⟨other, stored, -⟩ := Store.exists_entity_of_identity named
      rw [Facts.Knows, whole.lookup_of_entity named stored]
      exact Option.some_ne_none _

namespace CompilationUnit

variable {unit : CompilationUnit} {config : Config} {store : Store}

/-- The steps of an extraction of the unit into a store. -/
def steps (unit : CompilationUnit) (config : Config) (store : Store) : List Step :=
  (unit.plan config).trace (store.facts.interned unit.home)

/-- The classes and enums with names of their own that a unit declares. -/
def classes (unit : CompilationUnit) (config : Config) (store : Store) : List String :=
  classesBy (unit.steps config store)

/-- The methods of the bound calls that come before the end of the body of a class. -/
def calledBefore (unit : CompilationUnit) (config : Config) (store : Store) (type : String) :
    List String :=
  calledBy (untilLeft type (unit.steps config store))

theorem unmade_interned (whole : store.Whole) {type : String}
    (fresh : ∀ method, Change.IsConstructorOf type method → ¬store.facts.Knows method) :
    (store.facts.interned unit.home).Unmade type [] := by
  refine ⟨fun method constructs owned => ?_, fun method listed constructs => ?_,
    fun method constructs => ?_⟩
  · rw [Facts.owner?_interned] at owned
    obtain ⟨owner, owned⟩ := Option.isSome_iff_exists.mp owned
    exact absurd (Facts.knows_of_owner? owned) (fresh method constructs)
  · rw [Facts.members_interned] at listed
    exact absurd (whole.knows_member listed) (fresh method constructs)
  · rw [Facts.isSynthetic_interned, Facts.isSynthetic, not_not.mp (fresh method constructs)]
    rfl

/-- What becomes of the constructors of a class that is new to a store, as long as no call is bound
to one of them before the end of its body: if the class declares none, there is a default
constructor, which is synthetic; if it declares some, none of its constructors is. -/
theorem default_constructor {units : List (Config × CompilationUnit)}
    (reached : ∀ known ∈ units, known.2.IsPlain) (plain : unit.IsPlain)
    (distinct : (unit.declared config (Store.ofUnits units)).Nodup) {report : UnitReport}
    (succeeded : (unit.extract config (Store.ofUnits units)).result = .ok report)
    (source : ∀ header, .method header ∈ unit.parts →
      header.modifiers.contains Modifiers.isSynthetic = false)
    {type : String} (visited : type ∈ unit.classes config (Store.ofUnits units))
    (fresh : ∀ method, Change.IsConstructorOf type method →
      ¬(Store.ofUnits units).facts.Knows method)
    (uncalled : ∀ name ∈ unit.calledBefore config (Store.ofUnits units) type,
      ¬Change.IsConstructorOf type (.method, name)) :
    let facts := (unit.extract config (Store.ofUnits units)).store.facts
    let declared := unit.declared config (Store.ofUnits units)
    ((∀ method ∈ declared, ¬Change.IsConstructorOf type method) →
      facts.owner? (.method, Naming.methodName type "" true []) = some (.type, type) ∧
        facts.isSynthetic (.method, Naming.methodName type "" true [])) ∧
    ((∃ method ∈ declared, Change.IsConstructorOf type method) →
      ∀ method, Change.IsConstructorOf type method → facts.isSynthetic method = false) := by
  obtain ⟨whole, home⟩ := Store.ofUnits_atHome reached
  generalize Store.ofUnits units = store at *
  obtain ⟨result, facts, ran⟩ := run_of_extract whole succeeded
  obtain ⟨after, -, left, -, known, -⟩ := extract_of_run whole ran
  rw [left, known]
  have performed := Plan.performs_trace .start ran
  have reaches := Plan.reaches_trace ran
  have orderly : (unit.setting config IsPlain.nests).Orderly (unit.steps config store) :=
    ⟨plain.permits config ran, fun before step later split =>
      (unit.plan_returns config).obeyed reaches performed.gives split, distinct⟩
  obtain ⟨-, steps, same, leaves⟩ := (unit.plan_returns config).reached reaches performed.gives
  obtain rfl : steps = unit.steps config store := same.symm
  have placed := placed_of_classesBy visited
  exact orderly.default_constructor (plain.isPlain config) source
    (orderly.permits.plain_type (plain.isPlain config) placed) (not_isAnonymousIn distinct visited)
    (leaves type visited) uncalled (unmade_interned whole fresh) (home.interned unit.home) performed

/-- A call matters that comes before the end of the body. The constructor of `B` is marked where the
file has `class B{}` in front of `class A{void f(){new B();}}`, but not the other way round. -/
example :
    let call : Node := .creation ⟨17, 7⟩ ⟨⟨21, 1⟩, .simple "B", none⟩
      (some (.constructor (.named .ofClass "B") [])) none [] none
    let method : Node := .method ⟨8, 18⟩ ⟨"f", false, ∅, none, [], none⟩
      (some (.block ⟨16, 10⟩ [call]))
    let caller : Node := .type ⟨0, 27⟩ ⟨.ofClass, "A", ∅, none, [], none, []⟩ [method]
    let callee : Node := .type ⟨27, 9⟩ ⟨.ofClass, "B", ∅, none, [], none, []⟩ []
    let unit (types : List Node) : CompilationUnit := ⟨"A.java", "", none, [], types⟩
    let isMarked (types : List Node) : Bool :=
      ((unit types).extract .standard ∅).store.facts.isSynthetic (.method, "B.<init>()")
    isMarked [callee, caller] = true ∧ isMarked [caller, callee] = false := by
  intro call method caller callee unit isMarked
  have marked (types : List Node) : isMarked types = Facts.isSynthetic
      (.ofOutcome (((unit types).plan .standard).run
        (Facts.interned ⟨[], fun _ => none, []⟩ (unit types).home))) (.method, "B.<init>()") := by
    show Facts.isSynthetic _ _ = _
    rw [((unit types).extract_facts .standard .empty).2.2, Store.facts_empty]
  rw [marked, marked]
  constructor <;> decide +kernel

end CompilationUnit

end JavaFacts
