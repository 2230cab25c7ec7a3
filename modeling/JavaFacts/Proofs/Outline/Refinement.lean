import JavaFacts.Proofs.Extraction.Balance
import JavaFacts.Proofs.Outline.Expressions
import JavaFacts.Proofs.Outline.Members

/-!
The walk over a unit follows the outline of the unit. What an extraction leaves behind is therefore
what its plan leaves behind, and the plan never sees a number of an entity.
-/

namespace JavaFacts

namespace Walk

mutual

theorem handle_follows (node : Node) {site : Site} {before : Progress} {standing : Standing} :
    Follows site before standing (handle node) (Outline.handle node) fun _ _ _ => True := by
  cases node with
  | type span header body =>
      rw [handle, Outline.handle]
      exact declareType_follows span header (visitAll_restoring body) fun _ _ =>
        visitAll_follows body
  | method span header body =>
      rw [handle, Outline.handle]
      exact declareMethod_follows span header (visitOption_restoring body) fun _ _ =>
        visitOption_follows body
  | fields span header declared =>
      rw [handle, Outline.handle]
      refine .bind currentType_follows fun frame type middle later _ means => ?_
      refine .bind (areStatic_follows means header.modifiers) fun isStatic named _ _ grown same => ?_
      subst same
      exact visitFields_follows (means.extended grown) header isStatic declared
  | initializer span isStatic body =>
      rw [handle, Outline.handle]
      exact .bind currentType_follows fun frame type middle later _ means =>
        insideInitializer_follows isStatic (.visiting (handle_restoring body)) means fun _ _ =>
          .visiting (handle_restoring body) (handle_follows body)
  | block span statements =>
      rw [handle, Outline.handle]
      exact insideBlock_follows (visitAll_restoring statements) fun _ _ => visitAll_follows statements
  | locals span header declared =>
      rw [handle, Outline.handle]
      exact visitLocals_follows header declared
  | call span header receiver arguments =>
      rw [handle, Outline.handle]
      exact .andThen (refer_follows span _ _ _ _ fun _ _ => receiverOf_follows receiver)
        (.andThen (visitOption_follows receiver) (visitAll_follows arguments))
  | superCall span header qualifier arguments =>
      rw [handle, Outline.handle]
      exact .andThen (refer_follows span _ _ _ _ fun _ _ => .pure rfl) (visitAll_follows arguments)
  | ownConstructor span binding arguments =>
      rw [handle, Outline.handle]
      exact .andThen (refer_follows span _ _ _ _ fun _ _ => ownReceiver_follows)
        (visitAll_follows arguments)
  | superConstructor span binding receiver arguments =>
      rw [handle, Outline.handle]
      exact .andThen (refer_follows span _ _ _ _ fun _ _ => .pure rfl)
        (.andThen (visitOption_follows receiver) (visitAll_follows arguments))
  | creation span created binding receiver arguments body =>
      cases body with
      | none =>
          rw [handle, Outline.handle]
          exact .andThen (refer_follows span _ _ _ _ fun _ _ => .pure rfl)
            (.andThen (visitOption_follows receiver) (visitAll_follows arguments))
      | some body =>
          obtain ⟨bodySpan, bodyBinding, members⟩ := body
          rw [handle, Outline.handle]
          refine .bind (createAnonymous_follows span created arguments bodySpan bodyBinding)
            fun frame name created _ _ means => ?_
          obtain ⟨rfl, named⟩ := means
          refine .bind (visitOption_follows receiver) fun _ _ first _ received _ => ?_
          refine .bind (visitAll_follows arguments) fun _ _ second _ passed _ => ?_
          exact typeBody_follows false (visitAll_restoring members)
            (passed.identity (received.identity named)) fun _ _ _ => visitAll_follows members
  | field span name binding receiver =>
      rw [handle, Outline.handle]
      exact .andThen (accessField_follows span name binding receiver)
        (.visiting (handle_restoring receiver) (handle_follows receiver))
  | superField span name binding qualifier =>
      rw [handle, Outline.handle]
      exact accessSuperField_follows span name binding
  | qualified span name binding qualifier =>
      rw [handle, Outline.handle]
      exact .andThen (accessIn_follows span name _)
        (.visiting (handle_restoring qualifier) (handle_follows qualifier))
  | simple span name binding =>
      rw [handle, Outline.handle]
      exact accessIn_follows span name _
  | this span qualifier type =>
      rw [handle, Outline.handle]
      exact .pure trivial
  | cast span target operand =>
      rw [handle, Outline.handle]
      exact .andThen (recordCheck_follows rfl rfl span target)
        (.visiting (handle_restoring operand) (handle_follows operand))
  | instanceCheck span tested type operand =>
      rw [handle, Outline.handle]
      exact .andThen (recordCheck_follows rfl rfl span tested)
        (.visiting (handle_restoring operand) (handle_follows operand))
  | expression span type declares children =>
      cases declares with
      | none => exact visitAll_follows children
      | some declared =>
          exact .andThen (declareInStatement_follows span declared.1 declared.2)
            (visitAll_follows children)
termination_by structural node

theorem visitAll_follows (nodes : List Node) {site : Site} {before : Progress}
    {standing : Standing} :
    Follows site before standing (visitAll nodes) (Outline.visitAll nodes) fun _ _ _ => True := by
  cases nodes with
  | nil =>
      rw [visitAll, Outline.visitAll]
      exact .pure trivial
  | cons node nodes =>
      rw [visitAll, Outline.visitAll]
      exact .andThen (.visiting (handle_restoring node) (handle_follows node)) (visitAll_follows nodes)
termination_by structural nodes

theorem visitOption_follows (node : Option Node) {site : Site} {before : Progress}
    {standing : Standing} :
    Follows site before standing (visitOption node) (Outline.visitOption node)
      fun _ _ _ => True := by
  cases node with
  | none =>
      rw [visitOption, Outline.visitOption]
      exact .pure trivial
  | some node =>
      rw [visitOption, Outline.visitOption]
      exact .visiting (handle_restoring node) (handle_follows node)
termination_by structural node

theorem visitFields_follows {type : TypeFrame} {name : String} {site : Site} {before : Progress}
    {standing : Standing} (means : type.Means before.store name) (header : VariablesHeader)
    (isStatic : Bool) (declared : List DeclaredVariable) :
    Follows site before standing (visitFields type header isStatic declared)
      (Outline.visitFields name header isStatic declared) fun _ _ _ => True := by
  cases declared with
  | nil =>
      rw [visitFields, Outline.visitFields]
      exact .pure trivial
  | cons first declared =>
      obtain ⟨declarator, initializer⟩ := first
      rw [visitFields, Outline.visitFields]
      refine .bind (declareField_follows means header declarator) fun _ _ middle _ placed _ => ?_
      have means := means.extended placed
      cases initializer with
      | none =>
          exact visitFields_follows means header isStatic declared
      | some node =>
          refine .bind (insideInitializer_follows isStatic (.visiting (handle_restoring node)) means
            fun _ _ => .visiting (handle_restoring node) (handle_follows node))
            fun _ _ later _ grown _ => ?_
          exact visitFields_follows (means.extended grown) header isStatic declared
termination_by structural declared

theorem visitLocals_follows (header : VariablesHeader) (declared : List DeclaredVariable)
    {site : Site} {before : Progress} {standing : Standing} :
    Follows site before standing (visitLocals header declared) (Outline.visitLocals header declared)
      fun _ _ _ => True := by
  cases declared with
  | nil =>
      rw [visitLocals, Outline.visitLocals]
      exact .pure trivial
  | cons first declared =>
      obtain ⟨declarator, initializer⟩ := first
      rw [visitLocals, Outline.visitLocals]
      exact .andThen (declareVariable_follows header declarator)
        (.andThen (visitOption_follows initializer) (visitLocals_follows header declared))
termination_by structural declared

end

theorem forM_visit (nodes : List Node) : nodes.forM visit = visitAll nodes := by
  induction nodes with
  | nil => rw [visitAll, List.forM_eq_forM, List.forM_nil]
  | cons node nodes ih =>
      rw [visitAll, ← ih]
      exact List.forM_cons

/-- A walk that has not begun stands at the beginning. -/
theorem stands_initial {site : Site} {start : Progress} (whole : start.store.Whole)
    (package : start.store.identity? site.packageEntity = some (.package, site.origin.packageName))
    (scopes : start.scopes = ∅) (calls : start.calls = #[]) (types : start.types = #[]) :
    start.Stands site .initial where
  store := whole
  package := package
  types := scopes ▸ .nil
  methods := scopes ▸ .nil
  blocks := scopes ▸ rfl
  block := scopes ▸ rfl
  anonymousCounts _ := by
    rw [scopes]
    exact Std.HashMap.getD_empty
  localBlocks id := by
    have nowhere : start.store.blockByName Standing.initial.localBlocks id = none := by
      unfold Store.blockByName
      split <;> rfl
    rw [scopes, nowhere]
    exact Std.HashMap.getElem?_empty
  placed _ somewhere := absurd rfl somewhere
  localCounts id name := by
    have nothing : start.store.countByName Standing.initial.localCounts id name = 0 := by
      unfold Store.countByName
      split <;> rfl
    rw [scopes, nothing]
    exact Std.HashMap.getD_empty
  counted _ _ something := absurd rfl something
  calls := calls ▸ .nil
  declaredTypes := types ▸ .nil
  violation := scopes ▸ rfl

end Walk

namespace CompilationUnit

def origin (unit : CompilationUnit) (config : Config) : Origin :=
  ⟨unit.path, SourceText.ofString unit.source, unit.package, config.recordStatements⟩

/-- Package that the types of a unit belong to. -/
def home (unit : CompilationUnit) : Identity :=
  (.package, unit.package.getD Naming.defaultPackage)

/-- The plan of an extraction, in a store that knows the package. -/
def plan (unit : CompilationUnit) (config : Config) : Plan (Option Unit × Standing) :=
  unit.outline (unit.origin config) .initial

/-- An extraction runs the plan of its unit, and where a request of the plan is refused it fails with
the error of that request. -/
theorem walk_follows (unit : CompilationUnit) (config : Config) {store : Store}
    (whole : store.Whole) :
    let after := (unit.walk config store).2
    store.Extends after.store ∧
      match (unit.walk config store).1, (unit.plan config).run (store.facts.interned unit.home) with
      | .ok _, .ok ((_, standing), facts) => after.store.facts = facts ∧
          ∃ site, site.origin = unit.origin config ∧ after.Stands site standing
      | .error fault, .error refusal =>
          after.store.facts = refusal.facts ∧ after.store.Whole ∧ fault = .facts refusal.error
      | _, _ => False := by
  obtain ⟨opened, grown, same, named⟩ :=
    Edit.intern_does .package (unit.package.getD Naming.defaultPackage) whole
  let site : Site := {
    path := unit.path, source := SourceText.ofString unit.source, package := unit.package
    packageEntity := (store.intern .package (unit.package.getD Naming.defaultPackage)).1
    recordStatements := config.recordStatements }
  let start : Progress := {
    store := (store.intern .package (unit.package.getD Naming.defaultPackage)).2
    scopes := ∅, calls := #[], types := #[], methods := #[], faults := 0, warnings := #[] }
  have walked : unit.walk config store = (Walk.visitAll unit.types).perform site start := by
    rw [← Walk.forM_visit]
    rfl
  have stands : start.Stands site .initial := Walk.stands_initial opened named rfl rfl rfl
  obtain ⟨later, outcome⟩ := Walk.visitAll_follows unit.types stands
  have facts : start.store.facts = store.facts.interned unit.home := same
  rw [walked]
  refine ⟨trans_of Store.Extends grown later, ?_⟩
  rw [facts] at outcome
  have planned : Outline.visitAll unit.types site.origin .initial = unit.plan config := rfl
  rw [planned] at outcome
  rcases performed : (Walk.visitAll unit.types).perform site start with ⟨fault | ⟨⟩, after⟩ <;>
    rw [performed] at outcome <;>
    rcases ran : (unit.plan config).run (store.facts.interned unit.home) with
      refusal | ⟨⟨none | ⟨⟨⟩⟩, standing⟩, facts⟩ <;>
    rw [ran] at outcome
  · exact ⟨outcome.1, outcome.2.1, outcome.2.2.1⟩
  · have clear : start.scopes.violation = none := rfl
    have fatal := Walk.isFatal_of_forM_visit_eq_error clear
      (by rw [Walk.forM_visit, performed] : ((unit.types.forM Walk.visit).perform site start).1 = .error fault)
    exact absurd fatal (by rw [outcome.2.2]; decide)
  · exact outcome.elim
  · exact outcome.elim
  · exact outcome.elim
  · exact ⟨outcome.1, site, rfl, outcome.2.1⟩

end CompilationUnit

end JavaFacts
