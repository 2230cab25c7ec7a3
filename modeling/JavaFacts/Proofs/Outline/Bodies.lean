import JavaFacts.Proofs.Outline.Composition
import JavaFacts.Proofs.Outline.Lawful
import Mathlib.Data.List.Nodup
import Mathlib.Data.List.Pairwise
import Mathlib.Data.List.Perm.Subperm

/-!
Where a walk is among the bodies of types. What a body declares is declared before the walk leaves
the body, and the body of every class is left.
-/

namespace JavaFacts

namespace Step

/-- The types whose bodies the walk leaves with a step. -/
def left : Step → List String
  | ⟨.record (.constructor type), _⟩ => [type]
  | _ => []

/-- The classes with a name of their own that a step declares, among them enums. -/
def classes : Step → List String
  | ⟨.declareType _ _ _ flags, name⟩ =>
      if flags.contains Modifiers.isInterface || flags.contains Modifiers.isAnonymous then []
      else [name]
  | _ => []

theorem mem_classes {naming : TypeNaming} {anchor : Anchor} {owner : Identity} {flags : Modifiers}
    {name type : String} : type ∈ classes ⟨.declareType naming anchor owner flags, name⟩ ↔
      flags.contains Modifiers.isInterface = false ∧ flags.contains Modifiers.isAnonymous = false ∧
        type = name := by
  simp [classes, and_assoc]

end Step

def leftBy (history : List Step) : List String :=
  history.flatMap Step.left

def classesBy (history : List Step) : List String :=
  history.flatMap Step.classes

/-- Each of the types `around` was declared once more than its body was left, for every time that it
is listed. -/
def Encloses (history : List Step) (around : List String) : Prop :=
  ∀ type, (leftBy history).count type + around.count type ≤ (placedBy history).count (.type, type)

/-- Whether the type was declared as an anonymous class. -/
def IsAnonymousIn (history : List Step) (type : String) : Prop :=
  ∃ naming anchor owner,
    (⟨.declareType naming anchor owner Modifiers.isAnonymous, type⟩ : Step) ∈ history

theorem Step.placed_of_classes {step : Step} {type : String} (declared : type ∈ step.classes) :
    (.type, type) ∈ step.placed := by
  obtain ⟨request, answer⟩ := step
  cases request with
  | declareType naming anchor owner flags =>
      rw [(Step.mem_classes.mp declared).2.2]
      exact List.mem_cons_self
  | _ => cases declared

theorem placed_of_classesBy {history : List Step} {type : String}
    (declared : type ∈ classesBy history) : (.type, type) ∈ placedBy history := by
  obtain ⟨step, member, declared⟩ := List.mem_flatMap.mp declared
  exact List.mem_flatMap.mpr ⟨step, member, Step.placed_of_classes declared⟩

/-- What is declared once with a name of its own is no anonymous class. -/
theorem not_isAnonymousIn {history : List Step} {type : String} (once : (placedBy history).Nodup)
    (declared : type ∈ classesBy history) : ¬IsAnonymousIn history type := by
  rintro ⟨naming, anchor, owner, member⟩
  obtain ⟨step, taken, declared⟩ := List.mem_flatMap.mp declared
  have different : step ≠ ⟨.declareType naming anchor owner Modifiers.isAnonymous, type⟩ := by
    rintro rfl
    exact absurd (Step.mem_classes.mp declared).2.1 (by decide)
  have symmetric : Std.Symm (Function.onFun List.Disjoint Step.placed) :=
    ⟨fun _ _ apart _ one other => apart other one⟩
  have apart := (List.nodup_flatMap.mp once).2.forall taken member different
  exact apart (Step.placed_of_classes declared) List.mem_cons_self

theorem Encloses.of_subperm {history : List Step} {around fewer : List String}
    (encloses : Encloses history around) (among : fewer.Subperm around) : Encloses history fewer :=
  fun type => (Nat.add_le_add_left (among.count_le type) _).trans (encloses type)

namespace Request

/-- Methods are declared in bodies that were not left yet, and it is for anonymous classes that the
constructor is known from the call. -/
def Inside (history : List Step) : Request → Prop
  | record (.method _ _ type ..) =>
      (leftBy history).count type < (placedBy history).count (.type, type)
  | record (.anonymousConstructor type ..) => IsAnonymousIn history type
  | _ => True

/-- Whether a request is neither about a type nor about a method of one. -/
def IsQuiet : Request → Prop
  | declareType .. | record (.method ..) | record (.constructor _)
  | record (.anonymousConstructor ..) => False
  | _ => True

variable {request : Request} {history : List Step}

theorem IsQuiet.inside (quiet : request.IsQuiet) : request.Inside history := by
  cases request with
  | record event => cases event <;> first | exact quiet.elim | trivial
  | _ => trivial

theorem IsQuiet.left (quiet : request.IsQuiet) (answer : request.Answer) :
    Step.left ⟨request, answer⟩ = [] := by
  cases request with
  | record event => cases event <;> first | exact quiet.elim | rfl
  | _ => rfl

theorem IsQuiet.classes (quiet : request.IsQuiet) (answer : request.Answer) :
    Step.classes ⟨request, answer⟩ = [] := by
  cases request with
  | declareType => exact quiet.elim
  | _ => rfl

end Request

theorem Request.IsQuery.isQuiet {request : Request} (isQuery : request.IsQuery) : request.IsQuiet := by
  cases request <;> first | exact isQuery.elim | trivial

theorem Event.IsLink.isQuiet {event : Event} (isLink : event.IsLink) :
    (Request.record event).IsQuiet := by
  cases event <;> first | exact isLink.elim | trivial

/-- From one place to another all types `around` stay open, and the bodies of the classes that were
declared in between are left. -/
structure Returns (around : List String) (history later : List Step) : Prop where
  encloses : Encloses later around
  left : ∃ steps, later = history ++ steps ∧ ∀ type ∈ classesBy steps, type ∈ leftBy steps

namespace Returns

variable {around : List String} {history middle later : List Step}

theorem refl (encloses : Encloses history around) : Returns around history history :=
  ⟨encloses, [], (List.append_nil _).symm, fun _ => (nomatch ·)⟩

theorem trans (first : Returns around history middle) (second : Returns around middle later) :
    Returns around history later := by
  obtain ⟨-, steps, rfl, left⟩ := first
  obtain ⟨encloses, more, rfl, left'⟩ := second
  refine ⟨encloses, steps ++ more, List.append_assoc .., fun type member => ?_⟩
  rw [classesBy, List.flatMap_append] at member
  rw [leftBy, List.flatMap_append]
  exact List.mem_append.mpr ((List.mem_append.mp member).imp (left type) (left' type))

theorem quiet {step : Step} (encloses : Encloses history around) (left : step.left = [])
    (classes : step.classes = []) : Returns around history (history ++ [step]) := by
  refine ⟨fun type => ?_, [step], rfl, fun type member => ?_⟩
  · have before := encloses type
    simp only [leftBy, placedBy, List.flatMap_append, List.flatMap_singleton, left, List.append_nil,
      List.count_append] at before ⊢
    omega
  · rw [classesBy, List.flatMap_singleton, classes] at member
    cases member

/-- Classes that the first steps declare are left by later ones. -/
theorem behind {first : List Step} (returns : Returns around (history ++ first) later)
    (left : ∀ type ∈ classesBy first,
      ∃ steps, later = history ++ first ++ steps ∧ type ∈ leftBy steps) :
    Returns around history later := by
  obtain ⟨encloses, steps, rfl, others⟩ := returns
  refine ⟨encloses, first ++ steps, List.append_assoc .., fun type member => ?_⟩
  rw [classesBy, List.flatMap_append] at member
  rw [leftBy, List.flatMap_append]
  refine List.mem_append_right _ ?_
  rcases List.mem_append.mp member with here | later
  · obtain ⟨same, equal, member⟩ := left type here
    rwa [List.append_cancel_left equal]
  · exact others type later

theorem of_subperm {fewer : List String} (returns : Returns around history later)
    (among : fewer.Subperm around) : Returns fewer history later :=
  ⟨returns.encloses.of_subperm among, returns.left⟩

theorem leave {type : String} (returns : Returns (type :: around) history middle) :
    Returns around history (middle ++ [⟨.record (.constructor type), ()⟩]) ∧
      ∃ steps, middle ++ [⟨.record (.constructor type), ()⟩] = history ++ steps ∧
        type ∈ leftBy steps := by
  have here : Step.left ⟨.record (.constructor type), ()⟩ = [type] := rfl
  obtain ⟨encloses, steps, rfl, left⟩ := returns
  refine ⟨⟨fun other => ?_, _, List.append_assoc .., fun other member => ?_⟩, _,
    List.append_assoc .., ?_⟩
  · have before := encloses other
    simp only [leftBy, placedBy, List.flatMap_append, List.flatMap_singleton, here,
      List.count_append, List.count_cons, List.count_nil] at before ⊢
    omega
  · rw [classesBy, List.flatMap_append] at member
    rw [leftBy, List.flatMap_append]
    refine List.mem_append_left _ (left other ((List.mem_append.mp member).resolve_right ?_))
    exact List.not_mem_nil
  · rw [leftBy, List.flatMap_append, List.flatMap_singleton, here]
    exact List.mem_append_right _ List.mem_cons_self

end Returns

namespace Plan

variable {α : Type} {law : List Step → Request → Prop} {good better : List Step → α → Prop}

/-- What every plan ends with it also ends with under a law. -/
theorem Lawful.and {plan : Plan α} {history : List Step} (lawful : plan.Lawful law good history)
    (ends : plan.Lawful (fun _ _ => True) better history) :
    plan.Lawful law (fun later result => good later result ∧ better later result) history := by
  induction plan generalizing history with
  | done result => exact ⟨lawful, ends⟩
  | ask request next ih =>
      exact ⟨lawful.1, fun answer gives => ih answer (lawful.2 answer gives) (ends.2 answer gives)⟩

theorem lawful_true (plan : Plan α) (history : List Step) :
    plan.Lawful (fun _ _ => True) (fun _ _ => True) history := by
  induction plan generalizing history with
  | done result => trivial
  | ask request next ih => exact ⟨trivial, fun answer _ => ih answer _⟩

end Plan

namespace Outline

/-- Whether an action never lacks anything. -/
def IsTotal (action : Outline Unit) : Prop :=
  ∀ origin standing history, (action origin standing).Lawful (fun _ _ => True)
    (fun _ result => result.1 = some ()) history

theorem isTotal_visitAll (nodes : List Node) : IsTotal (visitAll nodes) := by
  induction nodes with
  | nil =>
      rw [visitAll]
      exact fun _ _ _ => rfl
  | cons node nodes ih =>
      rw [visitAll]
      intro origin standing history
      have visited : (visiting (handle node) origin standing).Lawful (fun _ _ => True)
          (fun _ result => result.1 = some ()) history :=
        .bind (Plan.lawful_true _ _) fun _ _ _ => rfl
      refine .bind visited fun later result done => ?_
      obtain ⟨value, after⟩ := result
      obtain rfl : value = some () := done
      exact ih origin after later

/-- From a standing an action obeys the law and comes back between the same types. -/
def Leads (origin : Origin) (history : List Step) (standing : Standing) (action : Outline α)
    (reached : Option α → List Step → Prop) : Prop :=
  (action origin standing).Lawful Request.Inside (fun later (result, after) =>
    after.types = standing.types ∧ reached result later) history

namespace Leads

variable {origin : Origin} {history : List Step} {standing : Standing}

theorem bind {action : Outline α} {next : α → Outline β} {between : Option α → List Step → Prop}
    {reached : Option β → List Step → Prop} (first : Leads origin history standing action between)
    (rest : ∀ value later after, after.types = standing.types → between (some value) later →
      Leads origin later after (next value) reached)
    (stop : ∀ later, between none later → reached none later) :
    Leads origin history standing (action >>= next) reached := by
  refine Plan.Lawful.bind first fun later result good => ?_
  obtain ⟨value | value, after⟩ := result
  · exact ⟨good.1, stop later good.2⟩
  · have same : after.types = standing.types := good.1
    exact Plan.Lawful.weaken (rest value later after same good.2) fun _ _ ended =>
      ⟨ended.1.trans same, ended.2⟩

theorem fromOrigin {onward : Origin → Outline α} {reached : Option α → List Step → Prop}
    (rest : Leads origin history standing (onward origin) reached) :
    Leads origin history standing (Outline.origin >>= onward) reached :=
  rest

theorem fromStanding {onward : Standing → Outline α} {reached : Option α → List Step → Prop}
    (rest : Leads origin history standing (onward standing) reached) :
    Leads origin history standing (Outline.standing >>= onward) reached :=
  rest

theorem pure {reached : Option α → List Step → Prop} {value : α}
    (here : reached (some value) history) : Leads origin history standing (Pure.pure value) reached :=
  ⟨rfl, here⟩

theorem result {action : Outline α} {reached better : Option α → List Step → Prop}
    (leads : Leads origin history standing action reached)
    (enough : ∀ result later, reached result later → better result later) :
    Leads origin history standing action better :=
  Plan.Lawful.weaken leads fun later result good => ⟨good.1, enough result.1 later good.2⟩

theorem ask {request : Request} (inside : request.Inside history) :
    Leads origin history standing (Outline.ask request) fun result later =>
      ∃ answer, result = some answer ∧ request.Gives answer ∧
        later = history ++ [⟨request, answer⟩] :=
  ⟨inside, fun answer gives => ⟨rfl, answer, rfl, gives, rfl⟩⟩

/-- A request comes first whose answer does not matter. -/
theorem asking {request : Request} {next : request.Answer → Outline α}
    {reached : Option α → List Step → Prop} (inside : request.Inside history)
    (rest : ∀ answer, request.Gives answer →
      Leads origin (history ++ [⟨request, answer⟩]) standing (next answer) reached) :
    Leads origin history standing (Outline.ask request >>= next) reached :=
  ⟨inside, rest⟩

theorem recording {event : Event} {next : Unit → Outline α} {reached : Option α → List Step → Prop}
    (inside : (Request.record event).Inside history)
    (rest : Leads origin (history ++ [⟨.record event, ()⟩]) standing (next ()) reached) :
    Leads origin history standing (Outline.record event >>= next) reached :=
  ⟨inside, fun _ _ => rest⟩

theorem changing {change : Standing → Standing} {next : Unit → Outline α}
    {reached : Option α → List Step → Prop} (same : (change standing).types = standing.types)
    (rest : Leads origin history (change standing) (next ()) reached) :
    Leads origin history standing (Outline.change change >>= next) reached :=
  Plan.Lawful.weaken rest fun _ _ good => ⟨good.1.trans same, good.2⟩

theorem currentMethod :
    Leads origin history standing Outline.currentMethod fun _ later => later = history := by
  refine .fromStanding ?_
  cases standing.methods with
  | nil => exact ⟨rfl, rfl⟩
  | cons method outer => exact ⟨rfl, rfl⟩

/-- The current type is the innermost of those around. -/
theorem fromCurrentType {next : String → Outline α} {reached : Option α → List Step → Prop}
    (rest : ∀ type, standing.types.head? = some type →
      Leads origin history standing (next type) reached)
    (stop : reached none history) :
    Leads origin history standing (Outline.currentType >>= next) reached := by
  obtain ⟨types, methods⟩ := standing
  cases types with
  | nil => exact ⟨rfl, stop⟩
  | cons type outer => exact rest type rfl

end Leads

/-- Where the types around are as `given`, an action obeys the law and comes back to them. -/
def Returning (given : List String → Prop) (action : Outline α) : Prop :=
  ∀ origin history standing pending, given standing.types →
    Encloses history (standing.types ++ pending) →
    Leads origin history standing action fun _ later =>
      Returns (standing.types ++ pending) history later

namespace Returning

variable {given : List String → Prop}

theorem bind {action : Outline α} {next : α → Outline β} (first : Returning given action)
    (rest : ∀ value, Returning given (next value)) : Returning given (action >>= next) := by
  intro origin history standing pending fits encloses
  refine .bind (first origin history standing pending fits encloses)
    (fun value middle after same returns => ?_) fun _ returns => returns
  have onward := rest value origin middle after pending (same ▸ fits) (same ▸ returns.encloses)
  rw [same] at onward
  exact .result onward fun _ _ later => returns.trans later

/-- An action that asks for nothing. -/
theorem silent {action : Outline α}
    (leads : ∀ origin history standing,
      Leads origin history standing action fun _ later => later = history) :
    Returning given action := by
  intro origin history standing pending fits encloses
  refine .result (leads origin history standing) fun _ later same => ?_
  rw [same]
  exact .refl encloses

theorem pure (value : α) : Returning given (Pure.pure value) :=
  silent fun _ _ _ => ⟨rfl, rfl⟩

theorem lacking : Returning given (Outline.lacking : Outline α) :=
  silent fun _ _ _ => ⟨rfl, rfl⟩

theorem origin : Returning given Outline.origin :=
  silent fun _ _ _ => ⟨rfl, rfl⟩

theorem standing : Returning given Outline.standing :=
  silent fun _ _ _ => ⟨rfl, rfl⟩

theorem change {change : Standing → Standing}
    (same : ∀ standing, (change standing).types = standing.types) :
    Returning given (Outline.change change) :=
  silent fun _ _ standing => ⟨same standing, rfl⟩

theorem ask {request : Request} (quiet : request.IsQuiet) :
    Returning given (Outline.ask request) := by
  intro origin history standing pending fits encloses
  exact ⟨quiet.inside, fun answer _ =>
    ⟨rfl, .quiet encloses (quiet.left answer) (quiet.classes answer)⟩⟩

theorem record {event : Event} (quiet : (Request.record event).IsQuiet) :
    Returning given (Outline.record event) :=
  ask quiet

/-- An action between two changes of the standing that leave the types around as they are. -/
theorem inside {enter leave : Standing → Standing} {action : Outline α}
    (entered : ∀ standing, (enter standing).types = standing.types)
    (left : ∀ standing, (leave standing).types = standing.types)
    (within : Returning given action) : Returning given (Outline.inside enter leave action) := by
  intro origin history standing pending fits encloses
  have same := entered standing
  refine Plan.Lawful.bind (within origin history (enter standing) pending (same ▸ fits)
    (same ▸ encloses)) fun later result good => ?_
  exact ⟨(left result.2).trans (good.1.trans same), same ▸ good.2⟩

theorem visiting {action : Outline Unit} (visited : Returning given action) :
    Returning given (Outline.visiting action) := by
  intro origin history standing pending fits encloses
  exact Plan.Lawful.bind (visited origin history standing pending fits encloses)
    fun _ _ good => good

theorem currentType {next : String → Outline β}
    (rest : ∀ type, Returning (fun types => given types ∧ type ∈ types) (next type)) :
    Returning given (Outline.currentType >>= next) :=
  fun origin history standing pending fits encloses => .fromCurrentType
    (fun type current => rest type origin history standing pending
      ⟨fits, List.mem_of_mem_head? current⟩ encloses) (.refl encloses)

/-- What code asks and records leaves the bodies around as they are. -/
theorem sequential : Sequential (Returning given) where
  bind := .bind
  pure := .pure
  origin := .origin
  standing := .standing
  currentType := .bind .standing fun standing => by
    split
    · exact .pure _
    · exact .lacking
  currentMethod := .bind .standing fun standing => by
    split
    · exact .pure _
    · exact .lacking
  ask isQuery := .ask isQuery.isQuiet
  record isLink := .record isLink.isQuiet
  change alike := .change fun standing => (alike standing).types

end Returning

theorem typeBody_leads {origin : Origin} {history : List Step} {standing : Standing}
    {pending : List String} {name : String} (isInterface : Bool) {members : Outline Unit}
    (returning : Returning (fun _ => True) members) (total : IsTotal members)
    (encloses : Encloses history (standing.types ++ name :: pending)) :
    Leads origin history standing (typeBody name isInterface members) fun _ later =>
      Returns (standing.types ++ pending) history later ∧
      (isInterface = false → ∃ steps, later = history ++ steps ∧ name ∈ leftBy steps) := by
  have entered : Encloses history (name :: (standing.types ++ pending)) :=
    encloses.of_subperm List.perm_middle.symm.subperm
  have visited (later : List Step) (after : Standing) (same : after.types = name :: standing.types)
      (encloses : Encloses later (name :: (standing.types ++ pending))) :
      Leads origin later after members fun result last =>
        Returns (name :: (standing.types ++ pending)) later last ∧ result = some () := by
    have lawful := returning origin later after pending trivial (same ▸ encloses)
    rw [same] at lawful
    exact Plan.Lawful.weaken (lawful.and (total origin after later)) fun _ _ good =>
      ⟨good.1.1, good.1.2, good.2⟩
  have within : Leads origin history (standing.enterType name) (do
      if !isInterface then record (.host name Naming.instanceInitializer)
      members
      if !isInterface then record (.constructor name)) fun _ later =>
        Returns (standing.types ++ pending) history later ∧
        (isInterface = false → ∃ steps, later = history ++ steps ∧ name ∈ leftBy steps) := by
    cases isInterface with
    | true =>
        exact .bind (visited history (standing.enterType name) rfl entered)
          (fun _ _ _ _ good =>
            .pure ⟨good.1.of_subperm (List.sublist_cons_self _ _).subperm,
              fun same => absurd same (by decide)⟩)
          fun _ good => absurd good.2.symm (Option.some_ne_none ())
    | false =>
        have hosted : Returns (name :: (standing.types ++ pending)) history
            (history ++ [⟨.record (.host name Naming.instanceInitializer), ()⟩]) :=
          .quiet entered rfl rfl
        refine .recording trivial (.bind (visited _ (standing.enterType name) rfl hosted.encloses)
          (fun _ _ _ _ good => .result (.ask trivial) fun _ _ asked => ?_)
          fun _ good => absurd good.2.symm (Option.some_ne_none ()))
        obtain ⟨-, -, -, rfl⟩ := asked
        obtain ⟨returned, left⟩ := (hosted.trans good.1).leave
        exact ⟨returned, fun _ => left⟩
  refine Plan.Lawful.bind within fun later result good => ?_
  obtain ⟨value, after⟩ := result
  obtain ⟨types, good⟩ := good
  have types : after.types = name :: standing.types := types
  exact ⟨congrArg List.tail types, good⟩

theorem encloses_declared {history : List Step} {around pending : List String} {naming : TypeNaming}
    {anchor : Anchor} {owner : Identity} {flags : Modifiers} {name : String}
    (encloses : Encloses history (around ++ pending)) :
    Encloses (history ++ [⟨.declareType naming anchor owner flags, name⟩])
      (around ++ name :: pending) := by
  intro type
  have before := encloses type
  have placed : Step.placed ⟨.declareType naming anchor owner flags, name⟩ = [(.type, name)] := rfl
  have left : Step.left ⟨.declareType naming anchor owner flags, name⟩ = [] := rfl
  simp only [leftBy, placedBy, List.flatMap_append, List.flatMap_singleton, placed, left,
    List.append_nil, List.count_append, List.count_cons, List.count_nil] at before ⊢
  by_cases same : name = type
  · subst same
    simp only [beq_self_eq_true, ↓reduceIte]
    omega
  · have other : (EntityKind.type, name) ≠ (.type, type) := fun equal => same (Prod.mk.inj equal).2
    rw [beq_eq_false_iff_ne.mpr same, beq_eq_false_iff_ne.mpr other]
    simp only [Bool.false_eq_true, ↓reduceIte]
    omega

theorem declareType_returning {given : List String → Prop} (span : Span) (header : TypeHeader)
    {members : Outline Unit} (returning : Returning (fun _ => True) members)
    (total : IsTotal members) : Returning given (declareType span header members) := by
  intro origin history standing pending _ encloses
  refine .fromOrigin (.fromStanding (.asking trivial fun name _ => .changing rfl ?_))
  let declare : Step := ⟨.declareType (standing.naming origin header) (origin.anchor span)
    (standing.typeOwner origin) (header.modifiers ∪ Walk.kindModifiers header.kind), name⟩
  let extend : Step := ⟨.record (.supertypes (header.supertypeLinks origin name)), ()⟩
  have declared : Returns (standing.types ++ name :: pending) (history ++ [declare])
      (history ++ [declare] ++ [extend]) := .quiet (encloses_declared encloses) rfl rfl
  refine .recording trivial (.result (typeBody_leads _ returning total declared.encloses)
    fun _ later good => ?_)
  obtain ⟨returns, left⟩ := good
  rw [List.append_assoc] at returns
  refine returns.behind fun type member => ?_
  have member : type ∈ declare.classes := by
    rw [classesBy, List.flatMap_append, List.flatMap_singleton] at member
    exact (List.mem_append.mp member).resolve_right nofun
  obtain ⟨named, -, rfl⟩ := Step.mem_classes.mp member
  rw [Modifiers.contains_union_isInterface, Bool.or_eq_false_iff] at named
  rw [← List.append_assoc]
  refine left (beq_eq_false_iff_ne.mpr fun isInterface => ?_)
  rw [isInterface] at named
  cases named.2

theorem pending_subperm (around pending : List String) (name : String) :
    (around ++ pending).Subperm (around ++ name :: pending) :=
  ((List.sublist_cons_self name pending).append_left around).subperm

/-- An anonymous class is declared ahead of the walk through its body. -/
theorem declareAnonymous_leads {origin : Origin} {history : List Step} {standing : Standing}
    {pending : List String} (span : Span) (name : String) (supertype : TypeUse)
    (encloses : Encloses history (standing.types ++ pending)) :
    Leads origin history standing (declareAnonymous span name supertype) fun result later =>
      Returns (standing.types ++ pending) history later ∧
        (result = some () → Encloses later (standing.types ++ name :: pending) ∧
          IsAnonymousIn later name) := by
  have owned (naming : TypeNaming) (given : ∀ answer, naming.Gives answer → answer = name)
      (owner : Identity) : Leads origin history standing (do
        let origin ← Outline.origin
        let _ ← ask (.declareType naming (origin.anchor span) owner Modifiers.isAnonymous)
        change (·.addType name)
        record (.supertypes [origin.link (if supertype.binding.any (·.isInterface) then .subtyping
          else .inheritance) name supertype.name supertype.span])) fun result later =>
        Returns (standing.types ++ pending) history later ∧
          (result = some () → Encloses later (standing.types ++ name :: pending) ∧
            IsAnonymousIn later name) := by
    refine .fromOrigin (.asking trivial fun answer gives => .changing rfl
      (.result (.ask trivial) fun _ later asked => ?_))
    obtain ⟨-, -, -, rfl⟩ := asked
    obtain rfl := given answer gives
    let declare : Step :=
      ⟨.declareType naming (origin.anchor span) owner Modifiers.isAnonymous, answer⟩
    have nothing : declare.classes = [] := rfl
    have declared (links : List Link) : Returns (standing.types ++ answer :: pending)
        (history ++ [declare]) (history ++ [declare] ++ [⟨.record (.supertypes links), ()⟩]) :=
      .quiet (encloses_declared encloses) rfl rfl
    refine ⟨?_, fun _ => ⟨(declared _).encloses, naming, origin.anchor span, owner, ?_⟩⟩
    · refine ((declared _).of_subperm (pending_subperm _ _ _)).behind fun type member => ?_
      rw [classesBy, List.flatMap_singleton, nothing] at member
      cases member
    · exact List.mem_append_left _ (List.mem_append_right _ List.mem_cons_self)
  have same (answer : String) (gives : (TypeNaming.given name).Gives answer) : answer = name :=
    gives
  refine .fromStanding ?_
  rcases methods : standing.methods with - | ⟨method, others⟩
  · exact .fromCurrentType (fun type _ => owned (.given name) same (.type, type))
      ⟨.refl encloses, nofun⟩
  · exact owned (.given name) same (.method, method.name)

theorem createAnonymous_leads {origin : Origin} {history : List Step} {standing : Standing}
    {pending : List String} (span : Span) (created : TypeUse) (arguments : List Node)
    (bodySpan : Span) (binding : Option TypeBinding)
    (encloses : Encloses history (standing.types ++ pending)) :
    Leads origin history standing (createAnonymous span created arguments bodySpan binding)
      fun result later => Returns (standing.types ++ pending) history later ∧
        ∀ name, result = some name → Encloses later (standing.types ++ name :: pending) := by
  refine .fromCurrentType (fun enclosing _ => .fromStanding (.changing rfl ?_))
    ⟨.refl encloses, nofun⟩
  refine .bind (declareAnonymous_leads bodySpan _ created encloses)
    (fun _ middle after same good => ?_) fun _ good => ⟨good.1, nofun⟩
  obtain ⟨returns, entered⟩ := good
  obtain ⟨entered, isAnonymous⟩ := entered rfl
  refine .bind .currentMethod (fun method later ended _ same => ?_)
    fun later same => same ▸ ⟨returns, nofun⟩
  have same : later = middle := same
  subst same
  refine .fromOrigin (.recording isAnonymous
    (.pure ⟨returns.trans (.quiet returns.encloses rfl rfl), ?_⟩))
  exact fun name same => Option.some.inj same ▸ (Returns.quiet entered rfl rfl).encloses

/-- What is visited between the declaration of an anonymous class and its body. -/
theorem ahead_leads {origin : Origin} {history : List Step} {standing : Standing}
    {pending : List String} {name : String} {ahead next : Outline Unit}
    (visited : Returning (fun _ => True) ahead)
    (encloses : Encloses history (standing.types ++ name :: pending))
    (rest : ∀ middle after, after.types = standing.types →
      Encloses middle (after.types ++ name :: pending) →
      Leads origin middle after next fun _ later => Returns (after.types ++ pending) middle later) :
    Leads origin history standing (ahead >>= fun _ => next) fun _ later =>
      Returns (standing.types ++ pending) history later := by
  have fewer := pending_subperm standing.types pending name
  refine .bind (visited origin history standing _ trivial encloses)
    (fun _ middle after same returns => ?_) fun _ returns => returns.of_subperm fewer
  have onward := rest middle after same (same ▸ returns.encloses)
  rw [same] at onward
  exact .result onward fun _ _ => (returns.of_subperm fewer).trans

section Members

variable {given : List String → Prop}

theorem insideMethod_returning {name type : String} {action : Outline Unit}
    (within : Returning given action) : Returning given (insideMethod name type action) :=
  .inside (fun _ => rfl) (fun _ => rfl) within

/-- The body in which a method is declared was not left. -/
theorem recordMethod_returning {name type : String} {anchor : Anchor} {returned : Option String}
    {modifiers : Modifiers} {parameterTypes : List String} :
    Returning (fun types => given types ∧ type ∈ types)
      (record (.method name anchor type returned modifiers parameterTypes)) := by
  intro origin history standing pending member encloses
  refine .result (.ask ?_) fun _ later asked => ?_
  · have before := encloses type
    have around := List.count_pos_iff.mpr (List.mem_append_left pending member.2)
    show (leftBy history).count type < _
    omega
  · obtain ⟨-, -, -, rfl⟩ := asked
    exact .quiet encloses rfl rfl

theorem declareMethod_returning (span : Span) (header : MethodHeader) {body : Outline Unit}
    (visited : ∀ given, Returning given body) : Returning given (declareMethod span header body) :=
  .currentType fun _ => .bind .origin fun _ => .bind recordMethod_returning fun _ =>
    insideMethod_returning (.bind (.record trivial) fun _ => visited _)

theorem declareField_returning (type : String) (header : VariablesHeader)
    (declarator : Declarator) : Returning given (declareField type header declarator) :=
  .bind .origin fun _ => .record trivial

theorem insideInitializer_returning (type : String) (isStatic : Bool) {action : Outline Unit}
    (within : Returning given action) : Returning given (insideInitializer type isStatic action) :=
  .bind (.record trivial) fun _ => insideMethod_returning within

theorem declareLocal_returning (name : String) (span : Span) :
    Returning given (declareLocal name span) := by
  refine .bind Returning.sequential.currentMethod fun method => .bind .standing fun standing =>
    .bind (.change fun _ => rfl) fun _ => .bind .origin fun _ => .bind (.record trivial) fun _ =>
    .bind (.change fun standing => ?_) fun _ => .pure _
  unfold Standing.placeLocal
  split <;> rfl

theorem declareVariable_returning (header : VariablesHeader) (declarator : Declarator) :
    Returning given (declareVariable header declarator) :=
  .bind (declareLocal_returning _ _) fun _ => .record trivial

theorem declareInStatement_returning (span : Span) (name : String) (use : TypeUse) :
    Returning given (declareInStatement span name use) :=
  .bind (declareLocal_returning _ _) fun _ => .record trivial

end Members

theorem DeclaresEach.returning {declare : Declarator → Outline Unit}
    {within : Outline Unit → Outline Unit} {declared : List DeclaredVariable} {action : Outline Unit}
    {given : List String → Prop}
    (declares : DeclaresEach (fun _ visit => ∀ given, Returning given visit) declare within declared
      action)
    (declaring : ∀ declarator, Returning given (declare declarator))
    (initializing : ∀ visit, Returning given visit → Returning given (within visit)) :
    Returning given action := by
  induction declares with
  | nil => exact .pure ()
  | bare _ ih => exact .bind (declaring _) fun _ => ih
  | initialized visited _ ih =>
      exact .bind (declaring _) fun _ => .bind (initializing _ (.visiting (visited given))) fun _ => ih

theorem compositional_returning : Compositional fun _ action => ∀ given, Returning given action where
  nil _ := .pure ()
  cons visited visits given := .bind (.visiting (visited given)) fun _ => visits given
  type span header members _ := declareType_returning span header (members _) (isTotal_visitAll _)
  method span header visited _ := declareMethod_returning span header visited
  fields span header declares given := by
    refine .currentType fun type =>
      .bind (Returning.sequential.areStatic type header.modifiers) fun isStatic => ?_
    exact (declares type isStatic).returning (declareField_returning type header)
      fun _ => insideInitializer_returning type isStatic
  initializer span isStatic visited given :=
    .currentType fun type => insideInitializer_returning type isStatic (.visiting (visited _))
  block span visits given := .inside (fun _ => rfl) (fun _ => rfl) (visits given)
  locals span header declares given :=
    declares.returning (declareVariable_returning header) fun _ visit => visit
  creation span created binding bodySpan bodyBinding visits members given := by
    intro origin history standing pending fits encloses
    -- the class waits among the pending types until the walk enters its body
    refine .bind (createAnonymous_leads span created _ bodySpan bodyBinding encloses)
      (fun name middle after types good => ?_) fun _ good => good.1
    obtain ⟨returns, entered⟩ := good
    rw [← types] at entered ⊢
    refine .result (ahead_leads (visits _) (entered name rfl) fun inside _ _ passed =>
      .result (typeBody_leads false (members _) (isTotal_visitAll _) passed) fun _ _ good => good.1)
      fun _ later => ?_
    exact (types ▸ returns).trans
  plain {node} _ visits given :=
    .bind (Returning.sequential.own node fun span _ => declareInStatement_returning span)
      fun _ => visits given

end Outline

/-- The plan of a unit leaves the body of every class that it declares. -/
theorem CompilationUnit.plan_returns (unit : CompilationUnit) (config : Config) :
    (unit.plan config).Lawful Request.Inside (fun later _ => Returns [] [] later) [] :=
  Plan.Lawful.weaken (Outline.compositional_returning.visitAll unit.types (fun _ => True)
    (unit.origin config) [] .initial [] trivial fun _ => Nat.le_refl _) fun _ _ good => good.2

end JavaFacts
