import JavaFacts.Proofs.Outline.Numbers
import JavaFacts.Proofs.Outline.Packages
import JavaFacts.Proofs.Outline.Undisturbed

/-!
An extraction of a unit that was extracted before adds nothing but links for what methods do: its
plan takes the steps that the facts have met already.
-/

namespace JavaFacts

namespace Plan

variable {α : Type}

/-- The steps that a run takes. -/
def trace (facts : Facts) : Plan α → List Step
  | done _ => []
  | ask request next =>
      match request.perform facts with
      | .ok (answer, after) => ⟨request, answer⟩ :: trace after (next answer)
      | .error _ => []

theorem reaches_trace {plan : Plan α} {facts after : Facts} {result : α}
    (ran : plan.run facts = .ok (result, after)) : plan.Reaches (plan.trace facts) (.done result) := by
  induction plan generalizing facts with
  | done =>
      cases ran
      exact .here
  | ask request next ih =>
      rw [run] at ran
      rw [trace]
      rcases asked : request.perform facts with left | ⟨answer, middle⟩ <;> rw [asked] at ran
      · cases ran
      · exact .step (ih answer ran)

theorem performs_trace {plan : Plan α} {start facts after : Facts} {result : α} {history : List Step}
    (performed : Performs start history facts) (ran : plan.run facts = .ok (result, after)) :
    Performs start (history ++ plan.trace facts) after := by
  induction plan generalizing facts history with
  | done =>
      cases ran
      rwa [trace, List.append_nil]
  | ask request next ih =>
      rw [run] at ran
      rw [trace]
      rcases asked : request.perform facts with left | ⟨answer, middle⟩ <;> rw [asked] at ran
      · cases ran
      · have onward := ih answer (performed.step asked) ran
        rwa [List.append_assoc] at onward

end Plan

namespace CompilationUnit

/-- The entities that the declarations of a unit denote if it is extracted into a store, in the order
of the visit: types, methods, parameters, fields and local variables. -/
def declared (unit : CompilationUnit) (config : Config) (store : Store) : List Identity :=
  placedBy ((unit.plan config).trace (store.facts.interned unit.home))

end CompilationUnit

theorem Request.gives_answer (facts : Facts) (request : Request) :
    request.Gives (request.answer facts) := by
  cases request with
  | declareType naming anchor owner flags => exact facts.gives_chosenName anchor naming
  | _ => trivial

theorem Setting.Permits.step {setting : Setting} {history : List Step} {request : Request}
    {answer : request.Answer} (permits : setting.Permits history)
    (obeys : request.Obeys setting history) (gives : request.Gives answer) :
    setting.Permits (history ++ [⟨request, answer⟩]) := by
  intro before step after split
  rcases List.eq_nil_or_concat after with rfl | ⟨others, last, rfl⟩
  · obtain ⟨rfl, same⟩ := List.append_inj' split rfl
    obtain ⟨rfl, -⟩ := List.cons.inj same
    exact ⟨obeys, gives⟩
  · rw [List.concat_eq_append, ← List.cons_append, ← List.append_assoc] at split
    obtain ⟨rfl, -⟩ := List.append_inj' split rfl
    exact permits before step others rfl

namespace CompilationUnit

variable {unit : CompilationUnit} {facts after : Facts}

theorem IsPlain.permits (plain : unit.IsPlain) (config : Config) {result : Option Unit × Standing}
    (ran : (unit.plan config).run facts = .ok (result, after)) :
    (unit.setting config IsPlain.nests).Permits ((unit.plan config).trace facts) := by
  have given := (Plan.performs_trace .start ran).gives
  intro before step later split
  refine ⟨?_, given step (by simp [split])⟩
  exact (unit.lawful_plan config (plain.sound config)).obeyed (Plan.reaches_trace ran) given split

/-- The plan of a plain unit leaves parameters with the methods that their names tell, whether it is
refused or not. -/
theorem IsPlain.atHome_run (plain : unit.IsPlain) (config : Config) (home : facts.AtHome) :
    (Facts.ofOutcome ((unit.plan config).run facts)).AtHome := by
  have performed {history : List Step} {middle : Facts} {request : Request}
      (permits : (unit.setting config IsPlain.nests).Permits history)
      (obeys : request.Obeys (unit.setting config IsPlain.nests) history) (home : middle.AtHome) :
      (Change.left (Change.applyAll middle (request.changes (request.answer middle)))).AtHome :=
    Change.atHome_left home ((permits.step obeys (request.gives_answer middle)).movesHome
      (plain.isPlain config))
  have ran := (unit.lawful_plan config (plain.sound config)).run
    (fun history facts => (unit.setting config IsPlain.nests).Permits history ∧ facts.AtHome)
    ⟨.nil, home⟩ fun history middle request answer later held obeys asked => by
      obtain ⟨rfl, applied⟩ := Request.perform_eq_ok asked
      have left := performed held.1 obeys held.2
      rw [applied] at left
      exact ⟨held.1.step obeys (Request.gives_of_perform asked), left⟩
  rcases outcome : (unit.plan config).run facts with left | ⟨result, left⟩ <;> rw [outcome] at ran
  · obtain ⟨history, middle, request, ⟨permits, home⟩, obeys, refused⟩ := ran
    have left := performed permits obeys home
    rw [Request.perform_eq_error refused] at left
    exact left
  · obtain ⟨history, ⟨-, home⟩, -⟩ := ran
    exact home

/-- Behind a run of its plan, a second run takes the same steps and adds at most links that are not of
the hierarchy. -/
theorem IsPlain.run_again (plain : unit.IsPlain) {config : Config} (home : facts.AtHome)
    (distinct : (placedBy ((unit.plan config).trace facts)).Nodup) {result : Option Unit × Standing}
    (ran : (unit.plan config).run facts = .ok (result, after)) :
    ∃ links : List Link, (unit.plan config).run after = .ok (result, after.appending links) ∧
      ∀ link ∈ links, link.kind.isHierarchy = false := by
  obtain ⟨-, settled⟩ := (Plan.performs_trace .start ran).settled home (plain.permits config ran)
    (plain.isPlain config) distinct
  exact Plan.run_again (Plan.reaches_trace ran) settled

end CompilationUnit

theorem Facts.AtHome.interned {facts : Facts} (home : facts.AtHome) (identity : Identity) :
    (facts.interned identity).AtHome := by
  intro name owner owned
  rw [Facts.owner?_interned] at owned
  exact home owned

namespace Store

theorem ofUnits_atHome {units : List (Config × CompilationUnit)}
    (plain : ∀ unit ∈ units, unit.2.IsPlain) : (ofUnits units).Whole ∧ (ofUnits units).facts.AtHome := by
  refine ofUnits_keeps (fun store => store.Whole ∧ store.facts.AtHome) ⟨.empty, ?_⟩
    fun unit member store held => ?_
  · rw [facts_empty]
    exact fun _ _ owned => by cases owned
  · obtain ⟨whole, -, same⟩ := unit.2.extract_facts unit.1 held.1
    exact ⟨whole, same ▸ (plain unit member).atHome_run unit.1 (held.2.interned _)⟩

end Store

namespace CompilationUnit

variable {unit : CompilationUnit} {config : Config} {store : Store}

/-- An extraction succeeds if its plan does. -/
theorem extract_of_run (whole : store.Whole) {result : Option Unit × Standing} {facts : Facts}
    (ran : (unit.plan config).run (store.facts.interned unit.home) = .ok (result, facts)) :
    ∃ after : Progress, (unit.extract config store).result = .ok (unit.report store after) ∧
      (unit.extract config store).store = after.store ∧ store.Extends after.store ∧
      after.store.facts = facts ∧
      ∃ site, site.origin = unit.origin config ∧ after.Stands site result.2 := by
  obtain ⟨grown, outcome⟩ := unit.walk_follows config whole
  rw [ran] at outcome
  rcases walked : unit.walk config store with ⟨fault | ⟨⟩, after⟩ <;> rw [walked] at grown outcome
  · exact outcome.elim
  · obtain ⟨same, site, origin, stands⟩ := outcome
    refine ⟨after, ?_, ?_, grown, same, site, origin, stands⟩
    · rw [extract_of_walk (by rw [walked]), walked]
    · show (unit.walk config store).2.store = after.store
      rw [walked]

theorem run_of_extract (whole : store.Whole) {report : UnitReport}
    (succeeded : (unit.extract config store).result = .ok report) :
    ∃ result facts, (unit.plan config).run (store.facts.interned unit.home) = .ok (result, facts) := by
  obtain ⟨-, outcome⟩ := unit.walk_follows config whole
  rcases ran : (unit.plan config).run (store.facts.interned unit.home) with
    left | ⟨result, facts⟩
  · rw [ran] at outcome
    rcases walked : unit.walk config store with ⟨fault | ⟨⟩, after⟩ <;> rw [walked] at outcome
    · unfold extract at succeeded
      rw [walked] at succeeded
      cases succeeded
    · exact outcome.elim
  · exact ⟨result, facts, rfl⟩

theorem exists_report (unit : CompilationUnit) (config : Config) (whole : store.Whole)
    (planned : ((unit.plan config).run (store.facts.interned unit.home)).isOk) :
    ∃ report, (unit.extract config store).result = .ok report := by
  rcases ran : (unit.plan config).run (store.facts.interned unit.home) with left | ⟨result, facts⟩
  · rw [ran] at planned
    cases planned
  · obtain ⟨after, reported, -⟩ := extract_of_run whole ran
    exact ⟨_, reported⟩

/-- What links alone tell is no hierarchy unless one of them is. -/
theorem associationsOfKind_of_appending {before after : Store} (sound : before.Sound)
    (grown : before.Extends after) {links : List Link}
    (added : after.facts.links = before.facts.links ++ links)
    (flat : ∀ link ∈ links, link.kind.isHierarchy = false) {kind : AssociationKind}
    (upward : kind.isHierarchy) : after.associationsOfKind kind = before.associationsOfKind kind := by
  obtain ⟨rest, same⟩ := grown.associations
  have kept : before.associations.toList.map after.linkOf = before.facts.links :=
    List.map_congr_left fun association listed =>
      sound.linkOf_extended grown (Array.mem_toList_iff.mp listed)
  have new : rest.map after.linkOf = links := by
    have all : after.facts.links = (before.associations.toList ++ rest).map after.linkOf := by
      rw [same]
      rfl
    rw [all, List.map_append, kept] at added
    exact List.append_cancel_left added
  have none : rest.filter (·.kind == kind) = [] := by
    refine List.filter_eq_nil_iff.mpr fun association listed told => ?_
    have flat := flat (after.linkOf association) (new ▸ List.mem_map.mpr ⟨association, listed, rfl⟩)
    have here : association.kind.isHierarchy = false := flat
    rw [eq_of_beq told, upward] at here
    cases here
  rw [Store.associationsOfKind, ← same, List.filter_append, none, List.append_nil]
  rfl

/-- A unit whose declarations denote different entities can be extracted once more. That makes no
entity, changes none, tells nothing new of supertypes, and finds the same types and calls. -/
theorem extract_again {units : List (Config × CompilationUnit)} (reached : ∀ known ∈ units, known.2.IsPlain)
    (plain : unit.IsPlain) (distinct : (unit.declared config (Store.ofUnits units)).Nodup)
    {report : UnitReport} (succeeded : (unit.extract config (Store.ofUnits units)).result = .ok report) :
    let first := (unit.extract config (Store.ofUnits units)).store
    let second := (unit.extract config first).store
    ∃ again, (unit.extract config first).result = .ok again ∧ again.entitiesCreated = 0 ∧
      second.entities = first.entities ∧
      (∀ kind : AssociationKind, kind.isHierarchy →
        second.associationsOfKind kind = first.associationsOfKind kind) ∧
      again.types = report.types ∧ again.deferred = report.deferred := by
  obtain ⟨whole, home⟩ := Store.ofUnits_atHome reached
  obtain ⟨result, facts, ran⟩ := run_of_extract whole succeeded
  obtain ⟨after, reported, left, -, known, site, origin, stands⟩ := extract_of_run whole ran
  obtain rfl : report = unit.report (Store.ofUnits units) after :=
    Except.ok.inj (succeeded.symm.trans reported)
  obtain ⟨links, again, flat⟩ := plain.run_again (home.interned unit.home) distinct ran
  intro first second
  have firstStore : first = after.store := left
  have opened : first.facts.interned unit.home = facts := by
    have named := stands.package
    rw [origin] at named
    obtain ⟨entity, found, -⟩ := Store.exists_entity_of_identity named
    rw [firstStore, ← known]
    exact Facts.interned_of_known (stands.store.toSound.lookup_of_entity named found)
  have firstWhole : first.Whole := firstStore ▸ stands.store
  rw [← opened] at again
  obtain ⟨later, reported', left', grown, known', site', -, stands'⟩ := extract_of_run firstWhole again
  have secondStore : second = later.store := left'
  rw [opened, ← known] at known'
  rw [firstStore] at grown
  have entities : later.store.entities = after.store.entities :=
    stands.store.entities_eq stands'.store (by rw [known']; rfl) (by rw [known']; rfl)
  refine ⟨_, reported', ?_, ?_, fun kind upward => ?_, ?_, ?_⟩
  · show later.store.entities.size - first.entities.size = 0
    rw [entities, firstStore, Nat.sub_self]
  · rw [secondStore, firstStore, entities]
  · rw [secondStore, firstStore]
    exact associationsOfKind_of_appending stands.store.toSound grown (by rw [known']; rfl) flat upward
  · have unique : Relator.LeftUnique fun (id : EntityId) (name : String) =>
        later.store.identity? id = some (.type, name) := fun _ _ _ one other => stands'.store.toSound.unique one other
    exact List.left_unique_forall₂' unique stands'.declaredTypes
      (stands.declaredTypes.imp fun _ _ => grown.identity)
  · have unique : Relator.LeftUnique fun (call : Call) (deferred : DeferredCall) =>
        call.Means later.store deferred := fun _ _ _ one other => one.unique stands'.store.toSound other
    exact List.left_unique_forall₂' unique stands'.calls
      (stands.calls.imp fun _ _ means => means.extended grown)

/-- The file `class A extends B{void f(int y){class L{}g();}}` beside `class B{}`. -/
theorem extract_again_of_local_class :
    let known : CompilationUnit :=
      ⟨"B.java", "", none, [], [.type ⟨0, 9⟩ ⟨.ofClass, "B", ∅, none, [], none, []⟩ []]⟩
    let call : Node := .call ⟨43, 3⟩ ⟨"g", none, none⟩ none []
    let inner : Node := .type ⟨33, 9⟩ ⟨.ofClass, "L", ∅, none, [], none, []⟩ []
    let parameter : FormalParameter := ⟨⟨25, 5⟩, "y", ⟨⟨25, 3⟩, .primitive "int", none⟩, ∅, none⟩
    let method : Node := .method ⟨18, 30⟩ ⟨"f", false, ∅, none, [parameter], none⟩
      (some (.block ⟨32, 16⟩ [inner, call]))
    let outer : Node := .type ⟨0, 49⟩
      ⟨.ofClass, "A", ∅, none, [], some ⟨⟨16, 1⟩, .simple "B", none⟩, []⟩ [method]
    let unit : CompilationUnit := ⟨"A.java", "", none, [], [outer]⟩
    (unit.declared .standard (Store.ofUnits [(.standard, known)])).Nodup ∧
      ∃ report, (unit.extract .standard (Store.ofUnits [(.standard, known)])).result = .ok report ∧
        let first := (unit.extract .standard (Store.ofUnits [(.standard, known)])).store
        let second := (unit.extract .standard first).store
        ∃ again, (unit.extract .standard first).result = .ok again ∧ again.entitiesCreated = 0 ∧
          second.entities = first.entities ∧
          (∀ kind : AssociationKind, kind.isHierarchy →
            second.associationsOfKind kind = first.associationsOfKind kind) ∧
          again.types = report.types ∧ again.deferred = report.deferred := by
  intro known call inner parameter method outer unit
  have knownPlain : known.IsPlain :=
    ⟨nofun, List.forall_mem_singleton.mpr ⟨by decide, fun _ => (nomatch ·), fun _ => nofun⟩⟩
  have name : ∀ c ∈ ['.', '(', '<'], c ∉ "f".toList :=
    List.forall_mem_cons.mpr ⟨by decide, List.forall_mem_cons.mpr ⟨by decide,
      List.forall_mem_singleton.mpr (by decide)⟩⟩
  have unitPlain : unit.IsPlain := by
    refine ⟨nofun, List.forall_mem_cons.mpr ⟨⟨by decide, fun _ => (nomatch ·), fun _ => nofun⟩,
      List.forall_mem_cons.mpr ⟨⟨fun _ => name, List.forall_mem_singleton.mpr (by decide)⟩,
        List.forall_mem_cons.mpr ⟨⟨by decide, fun _ => (nomatch ·), fun _ => nofun⟩,
          List.forall_mem_singleton.mpr trivial⟩⟩⟩⟩
  have reached : ∀ other ∈ [((.standard, known) : Config × CompilationUnit)], other.2.IsPlain :=
    List.forall_mem_singleton.mpr knownPlain
  obtain ⟨whole, -⟩ := Store.ofUnits_atHome reached
  have facts : (Store.ofUnits [(.standard, known)]).facts =
      .ofOutcome ((known.plan .standard).run (Facts.interned ⟨[], fun _ => none, []⟩ known.home)) := by
    rw [Store.ofUnits, List.foldl_cons, List.foldl_nil, ← Store.facts_empty]
    exact (known.extract_facts .standard .empty).2.2
  have distinct : (unit.declared .standard (Store.ofUnits [(.standard, known)])).Nodup := by
    rw [declared, facts]
    decide +kernel
  obtain ⟨report, succeeded⟩ := unit.exists_report .standard whole
    (by rw [facts]; decide +kernel)
  exact ⟨distinct, report, succeeded, extract_again reached unitPlain distinct succeeded⟩

/-- The classes `A` with a method `b.<oinit>` and `A.b`. The method has the name of the one that hosts
the initializers of `A.b`, so that both classes take it over whenever they are visited. -/
theorem extract_again_of_dotted_method :
    let method : Node := .method ⟨5, 10⟩ ⟨"b.<oinit>", false, ∅, none, [], none⟩ none
    let unit : CompilationUnit := ⟨"A.java", "", none, [],
      [.type ⟨0, 20⟩ ⟨.ofClass, "A", ∅, none, [], none, []⟩ [method],
        .type ⟨21, 10⟩ ⟨.ofClass, "A.b", ∅, none, [], none, []⟩ []]⟩
    let first := (unit.extract .standard (Store.ofUnits [])).store
    (unit.declared .standard (Store.ofUnits [])).Nodup ∧
      (∃ report, (unit.extract .standard (Store.ofUnits [])).result = .ok report) ∧
      (unit.extract .standard first).store.entities ≠ first.entities := by
  intro method unit
  have nothing : (Store.ofUnits []).facts = ⟨[], fun _ => none, []⟩ := Store.facts_empty
  have empty : (Store.ofUnits []).Whole := .empty
  generalize Store.ofUnits [] = store at nothing empty ⊢
  intro first
  have distinct : (unit.declared .standard store).Nodup := by
    rw [declared, nothing]
    decide +kernel
  refine ⟨distinct, unit.exists_report .standard empty (by rw [nothing]; decide +kernel), ?_⟩
  obtain ⟨whole, -, facts⟩ := unit.extract_facts .standard empty
  obtain ⟨whole', -, facts'⟩ := unit.extract_facts .standard whole
  rw [nothing] at facts
  rw [facts] at facts'
  exact whole.entities_ne whole' facts facts' (.type, "A.b") (by decide +kernel)

end CompilationUnit

end JavaFacts
