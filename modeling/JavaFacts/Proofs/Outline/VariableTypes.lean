import JavaFacts.Proofs.Naming.Arrays
import JavaFacts.Proofs.Outline.Reached
import JavaFacts.Proofs.Outline.Variables

/-!
Types of fields and local variables. A declarator adds levels to the type that its declaration shares,
in the binding and in the written form alike; the variable gets them all, whichever of the two names it.
-/

namespace JavaFacts

namespace TypeUse

/-- A use of a type that is no array, neither as it is written nor by its binding. -/
structure IsElement (use : TypeUse) : Prop where
  written : use.written.isArray = false
  binding : ∀ type, use.binding = some type → type.isArray = false

/-- The use with nothing but its written form to name it. -/
def asWritten (use : TypeUse) : TypeUse :=
  { use with binding := none }

/-- Name of the type that is used in signatures. -/
def signatureName (use : TypeUse) : String :=
  Naming.signatureName use.binding use.written

theorem asWritten_withDimensions (use : TypeUse) (dimensions : Nat) :
    (use.withDimensions dimensions).asWritten = use.asWritten.withDimensions dimensions := by
  cases dimensions <;> rfl

theorem asWritten_arrays (element : TypeUse) (steps : List Nat) :
    (element.arrays steps).asWritten = element.asWritten.arrays steps := by
  rw [arrays_eq, arrays_eq, asWritten_withDimensions]

namespace IsElement

variable {element : TypeUse}

theorem asWritten (plain : element.IsElement) : element.asWritten.IsElement :=
  ⟨plain.written, fun _ => (nomatch ·)⟩

/-- With levels around it, an element is an array that bears its name. -/
theorem isArrayType (plain : element.IsElement) {dimensions : Nat} (positive : 0 < dimensions) :
    Naming.IsArrayType (element.withDimensions dimensions).binding
      (some (element.withDimensions dimensions).written) element.name dimensions := by
  have levels : AreLevels [dimensions] := ⟨List.cons_ne_nil _ _, List.forall_mem_singleton.mpr positive⟩
  have sum : [dimensions].sum = dimensions := List.sum_singleton
  have written : (element.withDimensions dimensions).written = element.written.arrays [dimensions] := by
    rw [WrittenType.arrays_eq, sum, written_withDimensions]
  obtain ⟨span, form, binding⟩ := element
  rw [binding_withDimensions _ positive, written, ← sum]
  cases binding with
  | none => exact .written rfl plain.written (sum.symm ▸ levels)
  | some type =>
      have flat := plain.binding type rfl
      have bound : type.array [dimensions].sum = type.arrays [dimensions] :=
        (TypeBinding.arrays_eq type levels.nonempty).symm
      rw [Option.map_some, bound]
      cases named : Naming.bindingName? type with
      | some name =>
          have same : (TypeUse.mk span form (some type)).name = name := by
            rw [TypeUse.name, Naming.typeName, Option.bind_some, named]
          rw [same]
          exact .bound _ flat levels named
      | none =>
          have same : (TypeUse.mk span form (some type)).name = Naming.writtenName form := by
            rw [TypeUse.name, Naming.typeName, Option.bind_some, named]
            rfl
          rw [same]
          exact .unnamed flat levels named plain.written levels

theorem name_withDimensions (plain : element.IsElement) (dimensions : Nat) :
    (element.withDimensions dimensions).name =
      if dimensions = 0 then element.name else Naming.arrayMarker := by
  split
  · rename_i none
    subst none
    rfl
  · rename_i some
    exact (plain.isArrayType (Nat.pos_of_ne_zero some)).typeName

theorem signatureName_withDimensions (plain : element.IsElement) (dimensions : Nat) :
    (element.withDimensions dimensions).signatureName = Naming.arrayName element.name dimensions := by
  cases dimensions with
  | zero =>
      have flat := Naming.signatureName_of_plain plain.binding
        fun type same => Option.some.inj same ▸ plain.written
      rw [Naming.arrayName, Text.repeated, String.append_empty]
      exact flat
  | succ dimensions => exact (plain.isArrayType (Nat.succ_pos _)).signatureName

end IsElement

end TypeUse

namespace Declarator

variable {element : TypeUse} {declarator : Declarator}

theorem typeBinding_arrays (unbound : declarator.binding.bind (·.type) = none) (steps : List Nat) :
    declarator.typeBinding (element.arrays steps) =
      (element.withDimensions (steps.sum + declarator.extraDimensions)).binding := by
  rw [typeBinding, unbound, TypeUse.arrays_eq, TypeUse.withDimensions_withDimensions]
  rfl

theorem writtenType_arrays (steps : List Nat) :
    declarator.writtenType (element.arrays steps) =
      some (element.withDimensions (steps.sum + declarator.extraDimensions)).written := by
  rw [writtenType, ← TypeUse.written_withDimensions, TypeUse.arrays_eq,
    TypeUse.withDimensions_withDimensions]

/-- Outside of signatures the levels of a variable show only in that there are some. -/
theorem typeName_arrays (plain : element.IsElement) (unbound : declarator.binding.bind (·.type) = none)
    (steps : List Nat) :
    declarator.typeName (element.arrays steps) =
      if steps.sum + declarator.extraDimensions = 0 then element.name else Naming.arrayMarker := by
  rw [typeName, typeBinding_arrays unbound, writtenType_arrays]
  exact plain.name_withDimensions _

theorem signatureType_arrays (plain : element.IsElement)
    (unbound : declarator.binding.bind (·.type) = none) (steps : List Nat) :
    declarator.signatureType (element.arrays steps) =
      Naming.arrayName element.name (steps.sum + declarator.extraDimensions) := by
  rw [signatureType, typeBinding_arrays unbound, writtenType_arrays]
  exact plain.signatureName_withDimensions _

end Declarator

namespace Declarator

variable {facts : Facts} {name owner : String} {origin : Origin}

/-- What the declarator of a field is recorded as. -/
def fieldEvent (declarator : Declarator) (header : VariablesHeader) (owner : String) (origin : Origin) :
    Event :=
  .field (Naming.fieldName owner declarator.name) (origin.anchor declarator.span) owner header.modifiers
    (declarator.typeName header.type) (declarator.signatureType header.type)

/-- What the declarator of a local variable is recorded as once the variable is known. -/
def typeEvent (declarator : Declarator) (header : VariablesHeader) (name : String) : Event :=
  .localType name header.modifiers (declarator.typeName header.type) (declarator.signatureType header.type)

/-- What is known of a variable behind its declarator. -/
def known (declarator : Declarator) (header : VariablesHeader) (origin : Origin) (identity : Identity)
    (isVariable : identity.1 = .field ∨ identity.1 = .localVariable) : KnownVariable :=
  ⟨identity, isVariable, origin.anchor declarator.span, declarator.typeName header.type,
    declarator.signatureType header.type⟩

theorem exists_fieldEvent {declarator : Declarator}
    (admits : facts.Admits (.field, Naming.fieldName owner declarator.name)
      (origin.anchor declarator.span)) (header : VariablesHeader) :
    ∃ after, Change.applyAll facts (declarator.fieldEvent header owner origin).changes = .ok after ∧
      after.Has
        (declarator.known header origin (.field, Naming.fieldName owner declarator.name) (.inl rfl)) := by
  have different : (.field, Naming.fieldName owner declarator.name) ≠ (EntityKind.type, owner) := by simp
  obtain ⟨placed, ok⟩ := (Facts.exists_placed_iff different).mpr admits
  obtain ⟨after, applied⟩ : ∃ after,
      Change.applyAll facts (declarator.fieldEvent header owner origin).changes = .ok after := by
    rw [fieldEvent, Event.changes, Change.applyAll, Change.apply, ok]
    exact ⟨_, rfl⟩
  have settled :
      ∀ change ∈ (declarator.fieldEvent header owner origin).changes, change.Settled after := by
    refine Change.settled_applyAll ?_ (Event.pairwise_spares ?_) applied
    · exact ⟨trivial, .inr List.mem_cons_self, trivial, .inl (.inl (.inr List.mem_cons_self)), trivial⟩
    · exact List.pairwise_singleton _ _
  simp only [fieldEvent, Event.changes, List.forall_mem_cons] at settled
  exact ⟨after, applied, settled.1.1, settled.2.2.2.1⟩

theorem exists_typeEvent {declarator : Declarator}
    (admits : facts.Admits (.localVariable, name) (origin.anchor declarator.span)) (owner : String)
    (header : VariablesHeader) :
    ∃ placed after,
      Change.applyAll facts (Event.localVariable name (origin.anchor declarator.span) owner).changes =
        .ok placed ∧
      Change.applyAll placed (declarator.typeEvent header name).changes = .ok after ∧
      after.Has (declarator.known header origin (.localVariable, name) (.inr rfl)) := by
  have different : (.localVariable, name) ≠ (EntityKind.method, owner) := by simp
  obtain ⟨placed, ok⟩ := (Facts.exists_placed_iff different).mpr admits
  obtain ⟨here, owned, -⟩ := Change.placed_eq_ok ok
  have known : (placed.owner? (.localVariable, name)).isSome := by
    rw [owned]
    rfl
  obtain ⟨after, applied⟩ : ∃ after,
      Change.applyAll placed (declarator.typeEvent header name).changes = .ok after := ⟨_, rfl⟩
  have settled : ∀ change ∈ (declarator.typeEvent header name).changes, change.Settled after := by
    refine Change.settled_applyAll ?_ (Event.pairwise_spares ?_) applied
    · exact ⟨known, trivial, .inl (.inl known), trivial⟩
    · exact .nil
  simp only [typeEvent, Event.changes, List.forall_mem_cons] at settled
  refine ⟨placed, after, ?_, applied, (Change.grows_applyAll applied).anchor? here, settled.2.2.1⟩
  rw [Event.changes, Change.applyAll, Change.apply, ok]
  rfl

end Declarator

namespace Outline

/-- Whether an action declares a variable, which it does unless the variable is declared at another
place. -/
structure Declares (known : KnownVariable) (plan : Plan (Option Unit × Standing)) (facts : Facts) :
    Prop where
  admitted : ∀ {result}, plan.run facts = .ok result → facts.Admits known.identity known.anchor
  declared : facts.Admits known.identity known.anchor →
    ∃ later after, plan.run facts = .ok ((some (), later), after) ∧ after.Has known

variable {origin : Origin} {standing : Standing} {facts : Facts}

theorem declareField_declares (owner : String) (header : VariablesHeader) (declarator : Declarator) :
    Declares (declarator.known header origin (.field, Naming.fieldName owner declarator.name) (.inl rfl))
      (declareField owner header declarator origin standing) facts where
  admitted ran := by
    obtain ⟨middle, applied⟩ := Plan.exists_applied ran
    exact Facts.admits_of_applyAll (by simp [Declarator.known]) applied
  declared admits := by
    obtain ⟨after, applied, has⟩ := declarator.exists_fieldEvent admits header
    exact ⟨standing, after, Plan.run_record applied, has⟩

theorem declareVariable_declares {method : MethodStanding} {around : List MethodStanding}
    (found : standing.methods = method :: around) (header : VariablesHeader) (declarator : Declarator) :
    let name := standing.localName method.name declarator.name
    Declares (declarator.known header origin (.localVariable, name) (.inr rfl))
      (declareVariable header declarator origin standing) facts := by
  intro name
  have planned : declareVariable header declarator origin standing =
      .ask (.record (.localVariable name (origin.anchor declarator.span) method.name)) fun _ =>
        .ask (.record (declarator.typeEvent header name)) fun _ =>
          .done (some (), (standing.countLocal method.name declarator.name).placeLocal name) := by
    show Plan.bind (declareLocal declarator.name declarator.span origin standing) _ = _
    rw [declareLocal_eq found]
    rfl
  rw [planned]
  refine ⟨fun ran => ?_, fun admits => ?_⟩
  · obtain ⟨middle, applied⟩ := Plan.exists_applied ran
    exact Facts.admits_of_applyAll (by simp [Declarator.known]) applied
  · obtain ⟨placed, after, first, second, has⟩ := Declarator.exists_typeEvent admits method.name header
    rw [Plan.run_record first]
    exact ⟨_, after, Plan.run_record second, has⟩

end Outline

namespace Walk

variable {site : Site} {before : Progress} {standing : Standing}

namespace Follows

variable {action : Walk Unit} {outline : Outline Unit} {agree : Unit → Unit → Progress → Prop}

/-- What an action leaves behind is what the plan leaves behind, however the two end, and the action
succeeds if the plan gets to its end and lacks nothing. -/
theorem outcome (follows : Follows site before standing action outline agree)
    (stands : before.Stands site standing) :
    ((action.perform site before).1 = .ok () ↔
        ∃ later facts, (outline site.origin standing).run before.store.facts =
          .ok ((some (), later), facts)) ∧
      (action.perform site before).2.store.Whole ∧ (action.perform site before).2.store.facts =
        .ofOutcome ((outline site.origin standing).run before.store.facts) := by
  obtain ⟨-, outcome⟩ := follows stands
  rcases performed : action.perform site before with ⟨fault | ⟨⟩, after⟩ <;>
    rw [performed] at outcome <;>
    rcases ran : (outline site.origin standing).run before.store.facts with
      facts | ⟨⟨none | ⟨⟨⟩⟩, later⟩, facts⟩ <;>
    rw [ran] at outcome
  · exact ⟨⟨nofun, nofun⟩, outcome.2.1, outcome.1⟩
  · exact ⟨⟨nofun, nofun⟩, outcome.2.1.store, outcome.1⟩
  · exact outcome.elim
  · exact outcome.elim
  · exact outcome.elim
  · exact ⟨⟨fun _ => ⟨later, facts, rfl⟩, fun _ => rfl⟩, outcome.2.1.store, outcome.1⟩

end Follows

/-- What comes of a declarator, from where the walk comes to it until all of its declaration is
traversed. The variable can be declared unless it is declared at another place. It has the two
types then, and if it stands alone at its place, it still has them at the end, however the traversal
ends. -/
structure GivesTypes (site : Site) (before : Progress) (identity : Identity) (anchor : Anchor)
    (type signature : String) (alone : Prop) (declare : Walk Unit) (after : Progress) : Prop where
  succeeds : (declare.perform site before).1 = .ok () ↔ before.store.facts.Admits identity anchor
  typed : before.store.facts.Admits identity anchor →
    (declare.perform site before).2.store.IsTyped identity type signature
  kept : alone → before.store.facts.Admits identity anchor → after.store.IsTyped identity type signature

theorem givesTypes (stands : before.Stands site standing) {known : KnownVariable} {alone : Prop}
    {declare traverse : Walk Unit} {declared traversed : Outline Unit}
    {agree agree' : Unit → Unit → Progress → Prop}
    (follows : Follows site before standing declare declared agree)
    (onward : Follows site before standing traverse traversed agree')
    (declares : Outline.Declares known (declared site.origin standing) before.store.facts)
    (begins : alone → ∃ rest, Outline.Leaves known site.origin rest ∧
      traversed = declared >>= fun _ => rest) :
    GivesTypes site before known.identity known.anchor known.type known.signature alone declare
      (traverse.perform site before).2 := by
  obtain ⟨succeeds, whole, same⟩ := follows.outcome stands
  refine ⟨succeeds.trans ⟨fun ⟨_, _, ran⟩ => declares.admitted ran, fun admits => ?_⟩,
    fun admits => ?_, fun alone admits => ?_⟩
  · obtain ⟨later, after, ran, -⟩ := declares.declared admits
    exact ⟨later, after, ran⟩
  · obtain ⟨later, after, ran, has⟩ := declares.declared admits
    rw [ran] at same
    exact whole.isTyped (same ▸ has.typed)
  · obtain ⟨later, after, ran, has⟩ := declares.declared admits
    obtain ⟨rest, leaves, rfl⟩ := begins alone
    obtain ⟨-, whole, same⟩ := onward.outcome stands
    have planned : ((declared >>= fun _ => rest) site.origin standing).run before.store.facts = _ :=
      Plan.run_bind (declared site.origin standing) _ _
    rw [planned, ran] at same
    have still := leaves later after has
    exact whole.isTyped (same ▸ still.typed)

/-- Declarators are visited one after the other. -/
theorem visitFields_append (frame : TypeFrame) (header : VariablesHeader) (isStatic : Bool)
    (earlier later : List DeclaredVariable) :
    visitFields frame header isStatic (earlier ++ later) =
      visitFields frame header isStatic earlier >>= fun _ =>
        visitFields frame header isStatic later := by
  induction earlier with
  | nil =>
      rw [visitFields, pure_bind]
      rfl
  | cons first earlier ih =>
      obtain ⟨declarator, initializer⟩ := first
      rw [List.cons_append, visitFields, visitFields]
      cases initializer <;> simp only [ih, bind_assoc]

theorem visitLocals_append (header : VariablesHeader) (earlier later : List DeclaredVariable) :
    visitLocals header (earlier ++ later) =
      visitLocals header earlier >>= fun _ => visitLocals header later := by
  induction earlier with
  | nil =>
      rw [visitLocals, pure_bind]
      rfl
  | cons first earlier ih =>
      obtain ⟨declarator, initializer⟩ := first
      rw [List.cons_append, visitLocals, visitLocals]
      simp only [ih, bind_assoc]

variable (header : VariablesHeader) (declarator : Declarator) (initializer : Option Node)
  (later : List DeclaredVariable)

theorem givesTypes_field (stands : before.Stands site standing) {frame : TypeFrame}
    (named : before.store.identity? frame.entity = some (.type, frame.name)) (isStatic : Bool) :
    GivesTypes site before (.field, Naming.fieldName frame.name declarator.name)
      (site.origin.anchor declarator.span) (declarator.typeName header.type)
      (declarator.signatureType header.type)
      (declarator.span ∉ DeclaredVariable.spansBehind initializer later)
      (declareField frame header declarator)
      ((visitFields frame header isStatic (.mk declarator initializer :: later)).perform site before).2 := by
  have means : frame.Means before.store frame.name := ⟨rfl, named⟩
  exact givesTypes stands (declareField_follows means header declarator)
    (visitFields_follows means header isStatic (.mk declarator initializer :: later))
    (Outline.declareField_declares frame.name header declarator)
    fun alone => Outline.visitFields_cons header declarator frame.name isStatic rfl alone

/-- The next local variable of a name has the same name in the scopes and in the standing. -/
theorem exists_nextLocalName (stands : before.Stands site standing) {frame : MethodFrame}
    (current : before.scopes.method? = some frame) (name : String) :
    ∃ method around, standing.methods = method :: around ∧
      (before.scopes.nextLocalName frame.entity frame.name name).1 =
        standing.localName method.name name := by
  have methods := stands.methods
  rw [Scopes.method?, List.head?_eq_some_iff] at current
  obtain ⟨frames, current⟩ := current
  rw [current, List.forall₂_cons_left_iff] at methods
  obtain ⟨method, around, means, -, found⟩ := methods
  refine ⟨method, around, found, ?_⟩
  rw [Scopes.nextLocalName, Standing.localName, stands.localCounts, Store.countByName, means.entity,
    means.named]

theorem givesTypes_local (stands : before.Stands site standing) {frame : MethodFrame}
    (current : before.scopes.method? = some frame) :
    GivesTypes site before
      (.localVariable, (before.scopes.nextLocalName frame.entity frame.name declarator.name).1)
      (site.origin.anchor declarator.span) (declarator.typeName header.type)
      (declarator.signatureType header.type)
      (declarator.span ∉ DeclaredVariable.spansBehind initializer later)
      (declareVariable header declarator)
      ((visitLocals header (.mk declarator initializer :: later)).perform site before).2 := by
  obtain ⟨method, around, found, unique⟩ := exists_nextLocalName stands current declarator.name
  rw [unique]
  exact givesTypes stands (declareVariable_follows header declarator)
    (visitLocals_follows header (.mk declarator initializer :: later))
    (Outline.declareVariable_declares found header declarator)
    fun alone => Outline.visitLocals_cons header declarator rfl alone

/-- Of the type of a declaration, only the two names have an influence. -/
theorem recordType_congr {use other : TypeUse} (type : declarator.typeName use = declarator.typeName other)
    (signature : declarator.signatureType use = declarator.signatureType other) (entity : EntityId) :
    recordType entity use declarator = recordType entity other declarator := by
  show (do
    let type ← Edit.ensureType (declarator.typeName use)
    Edit.update entity fun entity => { entity with
      declaredType := some type, signatureType := some (declarator.signatureType use) }) = _
  rw [type, signature]
  rfl

/-- However many levels the type of a declaration has and a declarator adds to them, a field or a local
variable without a type of its own gets them all. In signatures its type is the name of the element
with a pair of brackets for each level. Its declared type is the class of arrays if there are levels
and that of the element otherwise. It has these types right behind its declarator. At the end of the
whole declaration it still has them if it is `alone`: no later declarator, and nothing its initializer
or the later ones declare, covers the very same characters. That is what could write to the same
variable once more. A type without its binding leads to the same, provided that the written form
names the element like the binding does. -/
theorem declared_variables_have_all_levels {element : TypeUse} (plain : element.IsElement)
    {steps : List Nat} {header : VariablesHeader} (typed : header.type = element.arrays steps)
    {declarator : Declarator} (unbound : declarator.binding.bind (·.type) = none)
    (stands : before.Stands site standing) (initializer : Option Node) (later : List DeclaredVariable) :
    let levels := steps.sum + declarator.extraDimensions
    let type := if levels = 0 then element.name else Naming.arrayMarker
    let signature := element.name ++ Text.repeated "[]" levels
    let anchor := Anchor.ofSpan site.path declarator.span
    let rest := .mk declarator initializer :: later
    let alone := declarator.span ∉ DeclaredVariable.spansBehind initializer later
    (∀ {start : Progress} {frame : TypeFrame} {isStatic : Bool} {earlier : List DeclaredVariable},
      before.store.identity? frame.entity = some (.type, frame.name) →
      (visitFields frame header isStatic earlier).perform site start = (.ok (), before) →
        GivesTypes site before (.field, Naming.fieldName frame.name declarator.name) anchor type signature
          alone (declareField frame header declarator)
          ((visitFields frame header isStatic (earlier ++ rest)).perform site start).2) ∧
    (∀ {start : Progress} {frame : MethodFrame} {earlier : List DeclaredVariable},
      before.scopes.method? = some frame →
      (visitLocals header earlier).perform site start = (.ok (), before) →
        GivesTypes site before
          (.localVariable, (before.scopes.nextLocalName frame.entity frame.name declarator.name).1)
          anchor type signature alone (declareVariable header declarator)
          ((visitLocals header (earlier ++ rest)).perform site start).2) ∧
    (element.name = Naming.writtenName element.written →
      let written := { header with type := header.type.asWritten }
      (∀ frame, declareField frame written declarator = declareField frame header declarator) ∧
        declareVariable written declarator = declareVariable header declarator) := by
  intro levels type signature anchor rest alone
  have typeName : declarator.typeName header.type = type :=
    typed ▸ declarator.typeName_arrays plain unbound steps
  have signatureType : declarator.signatureType header.type = signature :=
    typed ▸ declarator.signatureType_arrays plain unbound steps
  refine ⟨fun {_ _ isStatic _} named visited => ?_, fun current visited => ?_, fun alike => ?_⟩
  · have given := givesTypes_field header declarator initializer later stands named isStatic
    rw [visitFields_append, perform_bind, visited]
    rwa [typeName, signatureType] at given
  · have given := givesTypes_local header declarator initializer later stands current
    rw [visitLocals_append, perform_bind, visited]
    rwa [typeName, signatureType] at given
  · have same : element.asWritten.name = element.name := alike.symm
    have recorded (entity : EntityId) :
        recordType entity header.type.asWritten declarator = recordType entity header.type declarator := by
      refine recordType_congr declarator ?_ ?_ entity
      · rw [typeName, typed, TypeUse.asWritten_arrays,
          declarator.typeName_arrays plain.asWritten unbound, same]
      · rw [signatureType, typed, TypeUse.asWritten_arrays,
          declarator.signatureType_arrays plain.asWritten unbound, same]
        rfl
    intro written
    refine ⟨fun frame => ?_, ?_⟩
    · simp only [declareField, recorded, written]
    · simp only [declareVariable, recorded, written]

/-- The declaration `int[] grid[], row`, once of fields and once of local variables. -/
theorem declared_variables_have_all_levels_of_two :
    let element : TypeUse := ⟨⟨0, 3⟩, .primitive "int", some (.primitive "int")⟩
    let header : VariablesHeader := ⟨∅, element.arrays [1]⟩
    let grid : Declarator := ⟨⟨6, 12⟩, "grid", 1, none⟩
    let row : Declarator := ⟨⟨14, 17⟩, "row", 0, none⟩
    let package := (∅ : Store).intern .package "<default>"
    let type := package.2.intern .type "Board"
    let method := type.2.intern .method "Board.run()"
    let scopes : Scopes := { (∅ : Scopes) with methods := [⟨method.1, "Board.run()", type.1, none⟩] }
    let before : Progress := ⟨method.2, scopes, #[], #[], #[], 0, #[]⟩
    let site : Site := ⟨"Board.java", .ofString "", none, package.1, false⟩
    ((visitFields ⟨type.1, "Board"⟩ header false [.mk grid none, .mk row none]).perform site
        before).2.store.IsTyped (.field, "Board.grid") Naming.arrayMarker "int[][]" ∧
      ((visitLocals header [.mk grid none, .mk row none]).perform site before).2.store.IsTyped
        (.localVariable, "Board.run().grid") Naming.arrayMarker "int[][]" := by
  intro element header grid row package type method scopes before site
  have interned {store : Store} (whole : store.Whole) (kind : EntityKind) (name : String) :
      (store.intern kind name).2.Whole ∧ store.Extends (store.intern kind name).2 ∧
        (store.intern kind name).2.facts = store.facts.interned (kind, name) ∧
        (store.intern kind name).2.identity? (store.intern kind name).1 = some (kind, name) :=
    Edit.intern_does kind name whole
  obtain ⟨packaged, -, packageFacts, packageNamed⟩ := interned .empty .package "<default>"
  obtain ⟨typed, opened, typeFacts, typeNamed⟩ := interned packaged .type "Board"
  obtain ⟨whole, grown, methodFacts, methodNamed⟩ := interned typed .method "Board.run()"
  have facts : before.store.facts = (((⟨[], fun _ => none, []⟩ : Facts).interned
      (.package, "<default>")).interned (.type, "Board")).interned (.method, "Board.run()") := by
    show method.2.facts = _
    rw [methodFacts, typeFacts, packageFacts, Store.facts_empty]
  have started : Progress.Stands site { before with scopes := ∅ } .initial :=
    stands_initial whole (grown.identity (opened.identity packageNamed)) rfl rfl rfl
  have stands : before.Stands site (Standing.initial.enterMethod "Board.run()" "Board") :=
    { started with methods := .cons ⟨rfl, methodNamed, grown.identity typeNamed, rfl⟩ .nil }
  have plain : element.IsElement := ⟨rfl, fun type same => Option.some.inj same ▸ rfl⟩
  obtain ⟨fields, locals, -⟩ :=
    declared_variables_have_all_levels plain (rfl : header.type = element.arrays [1])
      (rfl : grid.binding.bind (·.type) = none) stands none [.mk row none]
  have signature : element.name ++ Text.repeated "[]" ([1].sum + grid.extraDimensions) = "int[][]" := by
    decide
  have several : [1].sum + grid.extraDimensions ≠ 0 := by decide
  have fieldName : Naming.fieldName "Board" "grid" = "Board.grid" := by decide
  have counted : before.scopes.localCounts.getD (method.1, "grid") 0 = 0 := Std.HashMap.getD_empty
  have localName : (before.scopes.nextLocalName method.1 "Board.run()" "grid").1 = "Board.run().grid" := by
    rw [Scopes.nextLocalName, counted]
    decide
  have field : GivesTypes site before (.field, Naming.fieldName "Board" "grid") _ _ _ _ _ _ :=
    @fields before ⟨type.1, "Board"⟩ false [] (grown.identity typeNamed) (by rw [visitFields]; rfl)
  have localVariable :=
    @locals before ⟨method.1, "Board.run()", type.1, none⟩ [] rfl (by rw [visitLocals]; rfl)
  rw [signature, if_neg several, fieldName, List.nil_append] at field
  rw [signature, if_neg several, localName, List.nil_append] at localVariable
  have fieldKept := field.kept (by decide)
  have localKept := localVariable.kept (by decide)
  rw [facts] at fieldKept localKept
  exact ⟨fieldKept (fun _ known => by cases known), localKept (fun _ known => by cases known)⟩

end Walk

end JavaFacts
