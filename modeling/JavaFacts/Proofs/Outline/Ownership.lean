import JavaFacts.Proofs.Facts.Ownership
import JavaFacts.Proofs.Outline.Lawful

/-!
Plans keep every entity owned by one that may own it, as long as the requests that the law allows
do.
-/

namespace JavaFacts

/-- Whatever a lawful request makes own something may own it. -/
structure Setting.Owning (setting : Setting) (may : Identity → Identity → Prop) : Prop where
  placeholder : ∀ name, may (.type, name) (.package, Naming.packageOf name)
  outermost : ∀ {name}, setting.nests none name →
    may (.type, name) (.package, setting.origin.packageName)
  inner : ∀ {outer name}, setting.nests (some outer) name → may (.type, name) (.type, outer)
  inMethod : ∀ {outer name method}, setting.nests (some outer) name →
    NamedMethod setting.parts outer method → may (.type, name) (.method, method)
  method : ∀ {outer type name}, setting.nests outer type → NamedMethod setting.parts type name →
    may (.method, name) (.type, type)
  constructor : ∀ {outer type} (parameterTypes), setting.nests outer type →
    may (.method, Naming.methodName type "" true parameterTypes) (.type, type)
  bound : ∀ {binding type name}, .call (some binding) ∈ setting.parts →
    Naming.boundMethodName? binding = some (type, name) → may (.method, name) (.type, type)
  field : ∀ type name, may (.field, name) (.type, type)
  parameter : ∀ method name, may (.parameter, name) (.method, method)
  localVariable : ∀ method name, may (.localVariable, name) (.method, method)

/-- What is true of the facts behind a history. -/
structure Facts.Tracks (setting : Setting) (may : Identity → Identity → Prop) (history : List Step)
    (facts : Facts) : Prop where
  owned : facts.OwnedBy may
  home : facts.Knows (.package, setting.origin.packageName)
  placed : ∀ identity ∈ placedBy history, facts.Knows identity
  entered : ∀ method ∈ enteredBy history, facts.Knows (.method, method)
  nested : ∀ type, (.type, type) ∈ placedBy history → ∃ outer, setting.nests outer type

theorem JustPlaced.mem {history : List Step} {identity : Identity}
    (placed : JustPlaced history identity) : identity ∈ placedBy history := by
  obtain ⟨before, step, rfl, same⟩ := placed
  rw [placedBy_append_singleton, same]
  exact List.mem_append_right _ List.mem_cons_self

section

variable {setting : Setting} {may : Identity → Identity → Prop} {history : List Step}
  {facts after : Facts}

/-- The changes of a lawful event give entities owners that they may have. -/
theorem Event.changes_fit (owning : setting.Owning may) (tracks : facts.Tracks setting may history)
    {event : Event} (lawful : event.Obeys setting history) :
    ∀ change ∈ event.changes, change.Fits may facts := by
  have nested {type : String} (placed : (.type, type) ∈ placedBy history.dropLast) :
      ∃ outer, setting.nests outer type := tracks.nested type (mem_placedBy_of_dropLast placed)
  have known {type : String} (placed : (.type, type) ∈ placedBy history.dropLast) :
      facts.Knows (.type, type) := tracks.placed _ (mem_placedBy_of_dropLast placed)
  intro change member
  cases event with
  | supertypes links =>
      obtain ⟨link, -, member⟩ := List.mem_flatMap.mp member
      simp only [List.mem_cons, List.not_mem_nil, or_false] at member
      rcases member with rfl | rfl <;> trivial
  | method name anchor type returned modifiers parameterTypes =>
      obtain ⟨placed, header, part, rfl, rfl, rfl⟩ := lawful
      obtain ⟨outer, nests⟩ := nested placed
      simp only [changes, List.cons_append, List.nil_append, List.mem_cons, List.mem_append,
        Option.mem_toList, Option.map_eq_some_iff, List.not_mem_nil,
        or_false] at member
      rcases member with rfl | ⟨name, -, rfl⟩ | rfl
      · exact ⟨owning.method nests (.declared part), known placed⟩
      · trivial
      · trivial
  | parameters owner listed =>
      obtain ⟨parameter, -, member⟩ := List.mem_flatMap.mp member
      simp only [List.mem_cons, List.not_mem_nil, or_false] at member
      rcases member with rfl | rfl | rfl
      · exact ⟨owning.parameter _ _, tracks.placed _ lawful.1.mem⟩
      · trivial
      · trivial
  | host type marker =>
      obtain ⟨placed, marked⟩ := lawful
      obtain ⟨outer, nests⟩ := nested placed
      simp only [changes, List.mem_cons, List.not_mem_nil, or_false] at member
      rcases member with rfl | rfl
      · exact owning.method nests (.host marked)
      · trivial
  | constructor type =>
      obtain ⟨outer, nests⟩ := nested lawful
      rw [List.mem_singleton.mp member]
      exact owning.constructor _ nests
  | anonymousConstructor type parameterTypes link =>
      obtain ⟨outer, nests⟩ := nested lawful.1
      simp only [changes, List.mem_cons, List.not_mem_nil, or_false] at member
      rcases member with rfl | rfl | rfl
      · exact owning.constructor _ nests
      · trivial
      · trivial
  | field name anchor owner modifiers type signatureType =>
      simp only [changes, List.mem_cons, List.not_mem_nil, or_false] at member
      rcases member with rfl | rfl | rfl | rfl
      · exact ⟨owning.field _ _, known lawful.1⟩
      all_goals trivial
  | localVariable name anchor owner =>
      rw [List.mem_singleton.mp member]
      exact ⟨owning.localVariable _ _, tracks.entered _ lawful.1⟩
  | localType name modifiers type signatureType =>
      simp only [changes, List.mem_cons, List.not_mem_nil, or_false] at member
      rcases member with rfl | rfl | rfl <;> trivial
  | access type name link =>
      simp only [changes, List.mem_cons, List.not_mem_nil, or_false] at member
      rcases member with rfl | rfl
      · exact owning.field _ _
      · trivial
  | check link =>
      simp only [changes, List.mem_cons, List.not_mem_nil, or_false] at member
      rcases member with rfl | rfl <;> trivial
  | call type name parameterTypes returned link =>
      obtain ⟨⟨binding, part, named⟩, -⟩ := lawful
      simp only [changes, List.cons_append, List.nil_append, List.mem_cons, List.mem_append,
        Option.mem_toList, Option.map_eq_some_iff, List.not_mem_nil,
        or_false] at member
      rcases member with rfl | ⟨name, -, rfl⟩ | rfl
      · exact owning.bound part named
      · trivial
      · trivial

/-- What an event declares is known behind it. -/
theorem Event.knows_placed {event : Event}
    (applied : Change.applyAll facts event.changes = .ok after) :
    ∀ identity ∈ event.placed, after.Knows identity := by
  have known := Change.knows_applyAll applied
  intro identity member
  cases event with
  | method name anchor type returned modifiers parameterTypes =>
      rw [List.mem_singleton.mp member]
      exact known (.place _ anchor (.type, type)) List.mem_cons_self _ List.mem_cons_self
  | parameters owner listed =>
      obtain ⟨parameter, listed, rfl⟩ := List.mem_map.mp member
      exact known (.place _ parameter.anchor (.method, owner))
        (List.mem_flatMap.mpr ⟨parameter, listed, List.mem_cons_self⟩) _ List.mem_cons_self
  | field name anchor owner modifiers type signatureType =>
      rw [List.mem_singleton.mp member]
      exact known (.place _ anchor (.type, owner)) List.mem_cons_self _ List.mem_cons_self
  | localVariable name anchor owner =>
      rw [List.mem_singleton.mp member]
      exact known (.place _ anchor (.method, owner)) List.mem_cons_self _ List.mem_cons_self
  | _ => cases member

theorem Event.knows_entered (tracks : facts.Tracks setting may history) {event : Event}
    (lawful : event.Obeys setting history)
    (applied : Change.applyAll facts event.changes = .ok after) :
    ∀ method ∈ event.entered, after.Knows (.method, method) := by
  intro method member
  cases event with
  | parameters owner listed =>
      rw [List.mem_singleton.mp member]
      exact Change.retains_applyAll applied _ (tracks.placed _ lawful.1.mem)
  | host type marker =>
      rw [List.mem_singleton.mp member]
      exact Change.knows_applyAll applied (.adopt _ (.type, type)) List.mem_cons_self _
        List.mem_cons_self
  | _ => cases member

theorem Facts.Tracks.unchanged {request : Request} {answer : request.Answer}
    (tracks : facts.Tracks setting may history) (nothing : (Step.mk request answer).placed = [])
    (nowhere : (Step.mk request answer).entered = []) :
    facts.Tracks setting may (history ++ [⟨request, answer⟩]) where
  owned := tracks.owned
  home := tracks.home
  placed := by
    rw [placedBy_append_singleton, nothing, List.append_nil]
    exact tracks.placed
  entered := by
    rw [enteredBy_append_singleton, nowhere, List.append_nil]
    exact tracks.entered
  nested := by
    rw [placedBy_append_singleton, nothing, List.append_nil]
    exact tracks.nested

theorem Event.mem_placed_type {event : Event} {type : String} : (.type, type) ∉ event.placed := by
  cases event <;> simp [placed]

/-- The owner of a declared type is known, and the type may have it. -/
theorem place_type_fits (owning : setting.Owning may) (tracks : facts.Tracks setting may history)
    {naming : TypeNaming} {anchor : Anchor} {owner : Identity} {flags : Modifiers} {name : String}
    (lawful : (Request.declareType naming anchor owner flags).Obeys setting history)
    (gives : naming.Gives name) :
    (Change.place (.type, name) anchor owner).Fits may facts ∧ ∃ outer, setting.nests outer name := by
  rcases lawful name gives with ⟨rfl, nests⟩ | ⟨outer, placed, nests, rfl | ⟨method, rfl, entered, named⟩⟩
  · exact ⟨⟨owning.outermost nests, tracks.home⟩, none, nests⟩
  · exact ⟨⟨owning.inner nests, tracks.placed _ (mem_placedBy_of_dropLast placed)⟩, some outer, nests⟩
  · exact ⟨⟨owning.inMethod nests named, tracks.entered _ entered⟩, some outer, nests⟩

/-- One lawful request. -/
theorem Request.tracks_perform (owning : setting.Owning may)
    (tracks : facts.Tracks setting may history) {request : Request}
    (lawful : request.Obeys setting history) :
    match request.perform facts with
    | .ok (answer, after) => after.Tracks setting may (history ++ [⟨request, answer⟩])
    | .error refusal => refusal.facts.OwnedBy may := by
  cases request with
  | declareType naming anchor owner flags =>
      obtain ⟨fits, nested⟩ :=
        place_type_fits owning tracks lawful (facts.gives_chosenName anchor naming)
      have settled := Change.apply_owned owning.placeholder tracks.owned fits
      have grown := Change.retains_left facts (.place (.type, facts.chosenName anchor naming) anchor owner)
      rw [perform]
      cases applied : facts.placed (.type, facts.chosenName anchor naming) anchor owner with
      | error after =>
          rw [Change.apply, applied] at settled
          exact settled
      | ok placed =>
          rw [Change.apply, applied] at settled grown
          have applied : (Change.place (.type, facts.chosenName anchor naming) anchor owner).apply
              facts = .ok placed := applied
          have known := Change.knows_targets applied _ List.mem_cons_self
          refine ⟨settled.detailed _, ?_, ?_, ?_, ?_⟩
          · exact Facts.knows_detailed.mpr (grown _ tracks.home)
          · rw [placedBy_append_singleton]
            intro identity member
            rcases List.mem_append.mp member with before | new
            · exact Facts.knows_detailed.mpr (grown _ (tracks.placed identity before))
            · rw [List.mem_singleton.mp new]
              exact Facts.knows_detailed.mpr known
          · rw [enteredBy_append_singleton]
            intro method member
            rcases List.mem_append.mp member with before | new
            · exact Facts.knows_detailed.mpr (grown _ (tracks.entered method before))
            · cases new
          · rw [placedBy_append_singleton]
            intro type member
            rcases List.mem_append.mp member with before | new
            · exact tracks.nested type before
            · obtain rfl := (Prod.mk.inj (List.mem_singleton.mp new)).2
              exact nested
  | record event =>
      obtain ⟨settled, grown⟩ := Change.applyAll_owned owning.placeholder tracks.owned
        (event.changes_fit owning tracks lawful)
      rw [perform]
      cases applied : Change.applyAll facts event.changes with
      | error after =>
          rw [applied] at settled
          exact settled
      | ok after =>
          rw [applied] at settled grown
          refine ⟨settled, grown _ tracks.home, ?_, ?_, ?_⟩
          · rw [placedBy_append_singleton]
            intro identity member
            rcases List.mem_append.mp member with before | new
            · exact grown _ (tracks.placed identity before)
            · exact event.knows_placed applied identity new
          · rw [enteredBy_append_singleton]
            intro method member
            rcases List.mem_append.mp member with before | new
            · exact grown _ (tracks.entered method before)
            · exact event.knows_entered tracks lawful applied method new
          · rw [placedBy_append_singleton]
            intro type member
            rcases List.mem_append.mp member with before | new
            · exact tracks.nested type before
            · exact absurd new event.mem_placed_type
  | isInterface type => exact tracks.unchanged rfl rfl
  | superclass type => exact tracks.unchanged rfl rfl
  | visible method localBlocks limit blocks => exact tracks.unchanged rfl rfl

end

/-- A plan keeps every entity owned by one that may own it, whether it is refused or not. -/
theorem CompilationUnit.plan_owned (unit : CompilationUnit) (config : Config)
    {nests : Option String → String → Prop} {may : Identity → Identity → Prop}
    (sound : (unit.setting config nests).Sound) (owning : (unit.setting config nests).Owning may)
    {facts : Facts} (owned : facts.OwnedBy may) :
    (Facts.ofOutcome ((unit.plan config).run (facts.interned unit.home))).OwnedBy may := by
  have opened : (facts.interned unit.home).Tracks (unit.setting config nests) may [] :=
    ⟨owned.internedPackage _, Facts.knows_interned.mpr (.inr rfl), fun _ => (nomatch ·),
      fun _ => (nomatch ·), fun _ => (nomatch ·)⟩
  have ran := (unit.lawful_plan config sound).run
    (fun history facts => facts.Tracks (unit.setting config nests) may history) opened
    fun history facts request answer after tracks lawful performed => by
      have step := request.tracks_perform owning tracks lawful
      rwa [performed] at step
  rcases outcome : (unit.plan config).run (facts.interned unit.home) with refusal | ⟨result, after⟩ <;>
    rw [outcome] at ran
  · obtain ⟨history, middle, request, tracks, lawful, refused⟩ := ran
    have step := request.tracks_perform owning tracks lawful
    rwa [refused] at step
  · obtain ⟨history, tracks, -⟩ := ran
    exact tracks.owned

end JavaFacts
