import JavaFacts.Extraction.Unit
import JavaFacts.Proofs.Extraction.Composition

/-!
Every scope that a walk enters is left again in order, whatever becomes of what happens inside it.
The stacks, the block that is open and the absence of a violation are therefore the same before and
behind a visit, and no scope fault arises.
-/

namespace JavaFacts

/-- Where a walk stands, as far as a later part of it can tell. Blocks may have been added. -/
structure Scopes.Restored (before after : Scopes) : Prop where
  types : after.types = before.types
  methods : after.methods = before.methods
  block : after.block = before.block
  violation : after.violation = none
  blocks : ∀ id block, before.block? id = some block → after.block? id = some block

namespace Scopes.Restored

variable {before middle after : Scopes}

theorem refl (clear : before.violation = none) : Restored before before :=
  ⟨rfl, rfl, rfl, clear, fun _ _ found => found⟩

theorem trans (first : Restored before middle) (second : Restored middle after) :
    Restored before after :=
  ⟨second.types.trans first.types, second.methods.trans first.methods,
    second.block.trans first.block, second.violation,
    fun id block found => second.blocks id block (first.blocks id block found)⟩

/-- The counters and tables of the scopes are nothing that a walk stands in. -/
theorem counters (clear : before.violation = none) (anonymousCounts : Std.HashMap String Nat)
    (localBlocks : Std.HashMap EntityId BlockId)
    (localCounts : Std.HashMap (EntityId × String) Nat) :
    Restored before { before with anonymousCounts, localBlocks, localCounts } :=
  ⟨rfl, rfl, rfl, clear, fun _ _ found => found⟩

end Scopes.Restored

theorem Scopes.CountsFrom.restored {before after : Scopes} (counts : before.CountsFrom after)
    (clear : before.violation = none) : before.Restored after := by
  obtain ⟨anonymousCounts, localBlocks, localCounts, rfl⟩ := counts
  exact .counters clear anonymousCounts localBlocks localCounts

namespace Walk

section Close

variable {before after : Scopes}

theorem restored_closeType {frame : TypeFrame} (within : (before.enterType frame).2.Restored after) :
    before.Restored (closeType (before.enterType frame).1 after) := by
  have types : after.types = frame :: before.types := within.types
  simp only [Scopes.enterType, closeType, Scopes.leaveType, types, BEq.rfl, ↓reduceIte,
    Except.map, closed]
  exact ⟨rfl, within.methods, within.block, within.violation, within.blocks⟩

theorem restored_closeMethod {entity : EntityId} {name : String} {declaringType : EntityId}
    (within : (before.enterMethod entity name declaringType).2.Restored after) :
    before.Restored (closeMethod (before.enterMethod entity name declaringType).1 after) := by
  have methods : after.methods = ⟨entity, name, declaringType, before.block⟩ :: before.methods :=
    within.methods
  simp only [Scopes.enterMethod, closeMethod, Scopes.leaveMethod, methods, BEq.rfl, ↓reduceIte,
    Except.map, closed]
  exact ⟨within.types, rfl, rfl, within.violation, within.blocks⟩

theorem restored_closeBlock {span : Span} (within : (before.enterBlock span).2.Restored after) :
    before.Restored (closeBlock (before.enterBlock span).1 after) := by
  obtain ⟨entered, stored, outer⟩ : ∃ entered,
      (before.enterBlock span).2.block? before.blocks.size = some entered ∧
        entered.outer = before.block :=
    ⟨_, Array.getElem?_push_size, rfl⟩
  have current : after.block = some before.blocks.size := within.block
  -- blocks are only added, so the one to leave is still as it was entered
  have left : closeBlock before.blocks.size after = { after with block := before.block } := by
    simp only [closeBlock, Scopes.leaveBlock, current, BEq.rfl, ↓reduceIte, closed,
      within.blocks _ _ stored, Option.bind_some, outer]
  show before.Restored (closeBlock before.blocks.size after)
  rw [left]
  refine ⟨within.types, within.methods, rfl, within.violation, fun id block found => ?_⟩
  refine within.blocks id block ?_
  have known : id ≠ before.blocks.size := Nat.ne_of_lt (Array.getElem?_eq_some_iff.mp found).1
  simp only [Scopes.block?, Scopes.enterBlock, Array.getElem?_push, if_neg known]
  exact found

end Close

/-- Whatever the outcome, the action leaves the walk where it found it and reports no scope
fault. -/
def Restoring (action : Walk α) : Prop :=
  ∀ site before, before.scopes.violation = none →
    before.scopes.Restored (action.perform site before).2.scopes ∧
      ∀ error, (action.perform site before).1 ≠ .error (.scope error)

namespace Restoring

theorem bind {action : Walk α} {next : α → Walk β} (first : Restoring action)
    (rest : ∀ result, Restoring (next result)) : Restoring (action >>= next) := by
  intro site before clear
  obtain ⟨restored, unscoped⟩ := first site before clear
  rw [perform_bind]
  rcases performed : action.perform site before with ⟨fault | result, middle⟩
  · rw [performed] at restored unscoped
    exact ⟨restored, fun error same => unscoped error (by rw [Except.error.inj same])⟩
  · rw [performed] at restored
    obtain ⟨later, unscoped⟩ := rest result site middle restored.violation
    exact ⟨restored.trans later, unscoped⟩

/-- An action that never touches the scopes. -/
theorem of_scopes_eq {action : Walk α}
    (same : ∀ site before, (action.perform site before).2.scopes = before.scopes)
    (unscoped : ∀ site before error, (action.perform site before).1 ≠ .error (.scope error)) :
    Restoring action := by
  intro site before clear
  rw [same site before]
  exact ⟨.refl clear, unscoped site before⟩

theorem pure (result : α) : Restoring (Pure.pure result) :=
  of_scopes_eq (fun _ _ => rfl) (by simp [perform_pure])

theorem get : Restoring (MonadState.get : Walk Progress) :=
  of_scopes_eq (fun _ _ => rfl) (by simp [perform_get])

theorem read : Restoring (MonadReader.read : Walk Site) :=
  of_scopes_eq (fun _ _ => rfl) (by simp [perform_read])

theorem fault (reason : String) : Restoring (Walk.fault reason : Walk α) :=
  of_scopes_eq (fun _ _ => rfl) (by simp [Walk.fault, perform_throw])

theorem modified {change : Progress → Progress}
    (same : ∀ before, (change before).scopes = before.scopes) :
    Restoring (modify change : Walk Unit) :=
  of_scopes_eq (fun _ before => same before) (by simp [perform_modify])

theorem edit (request : Edit α) : Restoring (Walk.edit request) := by
  refine of_scopes_eq (fun site before => by rw [perform_edit]) fun site before error => ?_
  rw [perform_edit]
  intro failed
  cases outcome : (request.perform before.store).1 with
  | ok result =>
      rw [outcome] at failed
      cases failed
  | error refused =>
      rw [outcome] at failed
      cases failed

/-- A change to the counters and tables of the scopes. -/
theorem modifiedScopes {change : Scopes → Scopes}
    (restored : ∀ before : Scopes, before.violation = none → before.Restored (change before)) :
    Restoring (modifyScopes change) := by
  intro site before clear
  rw [perform_modifyScopes]
  exact ⟨restored before.scopes clear, by simp⟩

theorem changedScopes {change : Scopes → α × Scopes}
    (restored : ∀ before : Scopes, before.violation = none → before.Restored (change before).2) :
    Restoring (modifyGetScopes change) := by
  intro site before clear
  rw [perform_modifyGetScopes]
  exact ⟨restored before.scopes clear, by simp⟩

/-- An action between entering and leaving a scope, if leaving undoes what entering did. -/
theorem inside {enter : Scopes → κ × Scopes} {leave : κ → Scopes → Scopes} {action : Walk α}
    (within : Restoring action)
    (clear : ∀ before, before.violation = none → (enter before).2.violation = none)
    (undone : ∀ before after, (enter before).2.Restored after →
      before.Restored (leave (enter before).1 after)) :
    Restoring (Walk.inside enter leave action) := by
  intro site before unviolated
  rw [perform_inside]
  obtain ⟨restored, unscoped⟩ :=
    within site { before with scopes := (enter before.scopes).2 } (clear _ unviolated)
  exact ⟨undone before.scopes _ restored, unscoped⟩

theorem insideType {action : Walk α} (entity : EntityId) (name : String)
    (within : Restoring action) : Restoring (Walk.insideType entity name action) :=
  within.inside (fun _ clear => clear) fun _ _ => restored_closeType

theorem insideMethod {action : Walk α} (entity : EntityId) (name : String)
    (declaringType : EntityId) (within : Restoring action) :
    Restoring (Walk.insideMethod entity name declaringType action) :=
  within.inside (fun _ clear => clear) fun _ _ => restored_closeMethod

theorem insideBlock {action : Walk α} (span : Span) (within : Restoring action) :
    Restoring (Walk.insideBlock span action) :=
  within.inside (fun _ clear => clear) fun _ _ => restored_closeBlock

theorem visiting {node : Node} {handle : Walk Unit} (handled : Restoring handle) :
    Restoring (Walk.visiting node handle) := by
  intro site before clear
  obtain ⟨restored, unscoped⟩ := handled site before clear
  rw [perform_visiting clear restored.violation]
  rcases performed : handle.perform site before with ⟨fault | ⟨⟩, after⟩
  · rw [performed] at restored unscoped
    by_cases fatal : fault.isFatal
    · simp only [fatal, ↓reduceIte]
      exact ⟨restored, unscoped⟩
    · simp only [fatal, Bool.false_eq_true, ↓reduceIte]
      exact ⟨restored, by simp [skip, perform_bind, anchor, perform_read,
        perform_modify]⟩
  · rw [performed] at restored
    exact ⟨restored, by simp⟩

theorem currentMethod : Restoring Walk.currentMethod := by
  refine bind get fun progress => ?_
  cases progress.scopes.method? with
  | some frame => exact pure frame
  | none => exact fault _

/-- The actions that a walk is made of restore the scopes. -/
theorem compositional : Compositional fun _ => @Restoring where
  bind := bind
  pure := pure
  get := get
  read := read
  fault := fault
  edit _ := edit _
  given _ _ := bind (edit _)
  hosted := bind currentMethod
  link _ _ _ _ := bind (bind read fun _ => pure _) fun _ => bind (bind read fun _ => pure _) fun _ =>
    bind (edit _) fun _ => pure ()
  keep _ _ _ _ _ := bind (bind read fun _ => pure _) fun _ => bind (bind read fun _ => pure _) fun _ =>
    modified fun _ => rfl
  addType _ := modified fun _ => rfl
  addMethod _ := modified fun _ => rfl
  modifiedScopes counts := modifiedScopes fun before clear => (counts before).restored clear
  changedScopes counts := changedScopes fun before clear => (counts before).restored clear
  insideType entity name _ := insideType entity name
  insideMethod name declaringType _ _ := insideMethod _ name declaringType
  insideBlock span _ := insideBlock span
  visiting := visiting

end Restoring

open Restoring (compositional)

theorem ensureInitializer_restoring (type : EntityId) (typeName marker : String) :
    Restoring (ensureInitializer type typeName marker) :=
  @Compositional.ensureInitializer _ compositional [] type typeName marker

theorem addDefaultConstructor_restoring (type : EntityId) (typeName : String) :
    Restoring (addDefaultConstructor type typeName) :=
  @Compositional.addDefaultConstructor _ compositional [] type typeName

theorem declareParameters_restoring (method : EntityId) (methodName : String) (position : Nat)
    (parameters : List (FormalParameter × String)) :
    Restoring (declareParameters method methodName position parameters) :=
  @Compositional.declareParameters _ compositional [] method methodName position parameters

theorem handle_restoring (node : Node) : Restoring (handle node) :=
  @Compositional.handle _ compositional [] node

theorem visitAll_restoring (nodes : List Node) : Restoring (visitAll nodes) :=
  @Compositional.visitAll _ compositional [] nodes

theorem visitOption_restoring (node : Option Node) : Restoring (visitOption node) :=
  @Compositional.visitOption _ compositional [] node

theorem visit_restoring (node : Node) : Restoring (visit node) :=
  @Compositional.visit _ compositional [] node

theorem forM_visit_restoring (nodes : List Node) : Restoring (nodes.forM visit) :=
  @Compositional.visitEach _ compositional [] nodes

/-- Only a fault that ends the walk comes out of a visit. -/
theorem isFatal_of_visit_eq_error {node : Node} {site : Site} {before : Progress} {fault : Fault}
    (clear : before.scopes.violation = none)
    (failed : ((visit node).perform site before).1 = .error fault) : fault.isFatal := by
  rw [visit, perform_visiting clear (handle_restoring node site before clear).1.violation] at failed
  rcases performed : (handle node).perform site before with ⟨reason | ⟨⟩, after⟩
  · rw [performed] at failed
    by_cases fatal : reason.isFatal
    · simp only [fatal, ↓reduceIte, Except.error.injEq] at failed
      exact failed ▸ fatal
    · simp only [fatal, Bool.false_eq_true, ↓reduceIte] at failed
      cases failed
  · rw [performed] at failed
    cases failed

theorem isFatal_of_forM_visit_eq_error {nodes : List Node} {site : Site} {before : Progress}
    {fault : Fault} (clear : before.scopes.violation = none)
    (failed : ((nodes.forM visit).perform site before).1 = .error fault) : fault.isFatal := by
  induction nodes generalizing before with
  | nil => cases failed
  | cons node nodes ih =>
      change ((visit node >>= fun _ => nodes.forM visit).perform site before).1 = _ at failed
      rw [perform_bind] at failed
      have restored := (visit_restoring node site before clear).1
      rcases performed : (visit node).perform site before with ⟨reason | ⟨⟩, middle⟩
      · rw [performed] at failed
        exact isFatal_of_visit_eq_error clear (by rw [performed]; exact failed)
      · rw [performed] at failed restored
        exact ih restored.violation failed

end Walk

/-- The report of a contradiction says in its first words which one it is. -/
theorem FactError.message_starts {error : FactError} (fatal : error.breaksInvariant) :
    ∃ rest, error.message = "Duplicate declaration of " ++ rest ∨
      error.message = "Invalid operation: " ++ rest := by
  cases error with
  | duplicateDeclaration kind name existing duplicate =>
      have written : (FactError.duplicateDeclaration kind name existing duplicate).message =
          "Duplicate declaration of " ++ kind ++ " '" ++ name ++ "': already declared at " ++
            existing ++ ", redeclared at " ++ duplicate := rfl
      simp only [String.append_assoc] at written
      exact ⟨_, .inl written⟩
  | invalidOperation reason => exact ⟨reason, .inr rfl⟩
  | _ => cases fatal

theorem FactError.message_ne_unbalanced {error : FactError} (fatal : error.breaksInvariant) :
    error.message ≠ "scope stacks not empty after traversal" := by
  intro same
  obtain ⟨rest, written | written⟩ := message_starts fatal
  all_goals
    have start := congrArg (fun text => text.toList.head?) (written.symm.trans same)
    simp at start

namespace CompilationUnit

/-- The walk over a unit starts outside of all scopes. -/
theorem walk_eq_perform (unit : CompilationUnit) (config : Config) (store : Store) :
    ∃ site start, start.scopes = ∅ ∧
      unit.walk config store = (unit.types.forM Walk.visit).perform site start :=
  ⟨_, _, rfl, rfl⟩

/-- What ends the walk over a unit is a contradiction among the facts. -/
theorem fault_of_walk_eq_error {unit : CompilationUnit} {config : Config} {store : Store}
    {fault : Fault} (failed : (unit.walk config store).1 = .error fault) :
    ∃ error, fault = .facts error ∧ error.breaksInvariant := by
  obtain ⟨site, start, outside, walked⟩ := unit.walk_eq_perform config store
  have clear : start.scopes.violation = none := by rw [outside]; rfl
  rw [walked] at failed
  have fatal := Walk.isFatal_of_forM_visit_eq_error clear failed
  cases fault with
  | node reason => cases fatal
  | scope error =>
      exact absurd failed ((Walk.forM_visit_restoring unit.types site start clear).2 error)
  | facts error => exact ⟨error, rfl, fatal⟩

theorem isBalanced_walk (unit : CompilationUnit) (config : Config) (store : Store) :
    (unit.walk config store).2.scopes.isBalanced := by
  obtain ⟨site, start, outside, walked⟩ := unit.walk_eq_perform config store
  have clear : start.scopes.violation = none := by rw [outside]; rfl
  have restored := (Walk.forM_visit_restoring unit.types site start clear).1
  rw [← walked, outside] at restored
  rw [Scopes.isBalanced, restored.types, restored.methods, restored.block]
  rfl

end CompilationUnit

/-- A visit of any node, from any state without a pending violation and whatever its outcome, leaves
the stacks and the block that is open as they were and records no violation. So no extraction ever
fails because of its scopes: the walk raises no scope fault, and what an extraction reports is a
contradiction among the facts, never that a scope was left open. -/
theorem visit_leaves_scopes_as_found :
    (∀ (node : Node) (site : Site) (before : Progress), before.scopes.violation = none →
      ((Walk.visit node).perform site before).2.scopes.types = before.scopes.types ∧
      ((Walk.visit node).perform site before).2.scopes.methods = before.scopes.methods ∧
      ((Walk.visit node).perform site before).2.scopes.block = before.scopes.block ∧
      ((Walk.visit node).perform site before).2.scopes.violation = none ∧
      ∀ error, ((Walk.visit node).perform site before).1 ≠ .error (.scope error)) ∧
    ∀ (unit : CompilationUnit) (config : Config) (store : Store),
      (∀ error, (unit.walk config store).1 ≠ .error (.scope error)) ∧
      (unit.walk config store).2.scopes.isBalanced ∧
      ∀ reason, (unit.extract config store).result = .error reason →
        (∃ error : FactError, error.breaksInvariant ∧ reason = .invariant unit.path error.message) ∧
        reason ≠ .invariant unit.path "scope stacks not empty after traversal" := by
  refine ⟨?_, fun unit config store => ⟨?_, unit.isBalanced_walk config store, ?_⟩⟩
  · intro node site before clear
    obtain ⟨restored, unscoped⟩ := Walk.visit_restoring node site before clear
    exact ⟨restored.types, restored.methods, restored.block, restored.violation, unscoped⟩
  · intro error failed
    obtain ⟨_, same, _⟩ := CompilationUnit.fault_of_walk_eq_error failed
    cases same
  · intro reason failed
    have balanced := unit.isBalanced_walk config store
    rw [CompilationUnit.extract] at failed
    rcases walked : unit.walk config store with ⟨fault | ⟨⟩, after⟩
    · obtain ⟨error, rfl, fatal⟩ :=
        CompilationUnit.fault_of_walk_eq_error (congrArg Prod.fst walked)
      simp only [walked, Except.error.injEq] at failed
      subst failed
      refine ⟨⟨error, fatal, rfl⟩, fun same => error.message_ne_unbalanced fatal ?_⟩
      exact (ExtractionError.invariant.inj same).2
    · rw [walked] at balanced
      simp only [walked, balanced, ↓reduceIte] at failed
      cases failed

/-- Inside of an open block of a method, around a block with a class of its own that contains a
variable outside of any method. -/
theorem visit_leaves_scopes_as_found_in_method :
    let stray : Node := .expression ⟨8, 3⟩ none (some ("x", TypeUse.unknown ⟨8, 3⟩)) []
    let node : Node := .block ⟨4, 16⟩ [.type ⟨6, 12⟩ default [stray]]
    let scopes : Scopes := { Scopes.empty with
      types := [⟨0, "A"⟩], methods := [⟨1, "A.m()", 0, none⟩], blocks := #[⟨⟨0, 30⟩, none, 0⟩]
      block := some 0 }
    let before : Progress := { (default : Progress) with scopes }
    before.scopes.violation = none ∧
      ((Walk.visit node).perform default before).2.scopes.types = before.scopes.types ∧
      ((Walk.visit node).perform default before).2.scopes.methods = before.scopes.methods ∧
      ((Walk.visit node).perform default before).2.scopes.block = before.scopes.block := by
  intro stray node scopes before
  have clear : before.scopes.violation = none := rfl
  obtain ⟨types, methods, block, _⟩ := visit_leaves_scopes_as_found.1 node default before clear
  exact ⟨clear, types, methods, block⟩

end JavaFacts
