import JavaFacts.Proofs.Lowering.Closing
import JavaFacts.Proofs.Lowering.Superclasses

/-!
Fields by name, which are found in two ways: one at a time on the way up the superclasses, and all of
them at once for the body of a type. Both ways end, also where types extend each other in a circle,
and both lead to the field of the first type on the way that declares one of the name.
-/

namespace JavaFacts

namespace TypeTable

variable {table : TypeTable} {type name : String} {remaining : List (String × DeclaredType)}

/-- The first type on the way up from a type that declares a field of the name, and the type that
this field has. In a circle the way does not end, so there may be no first type. -/
inductive FirstField (table : TypeTable) (name : String) :
    String → DeclaredType → Option TypeBinding → Prop where
  | own {type : String} {declared : DeclaredType} {written : Option TypeBinding} :
      table.find? type = some declared → declared.fields.lookup name = some written →
      FirstField table name type declared written
  | inherited {type superclass : String} {declared owner : DeclaredType}
      {written : Option TypeBinding} : table.find? type = some declared →
      declared.fields.lookup name = none → declared.superclass = some superclass →
      FirstField table name superclass owner written → FirstField table name type owner written

/-- What is left to look at is what the table has for the types that were not passed yet. -/
def IsPartOf (remaining : List (String × DeclaredType)) (table : TypeTable) : Prop :=
  ∀ type declared, remaining.lookup type = some declared → table.find? type = some declared

theorem IsPartOf.without (part : IsPartOf remaining table) (passed : String) :
    IsPartOf (without passed remaining) table := by
  intro type declared found
  by_cases same : type = passed
  · rw [same, lookup_without_self] at found
    cases found
  · exact part type declared ((lookup_without same).symm.trans found)

theorem field?_own {declared : DeclaredType} {written : Option TypeBinding}
    (found : table.find? type = some declared) (own : declared.fields.lookup name = some written) :
    table.field? type name = some (VariableBinding.field declared.binding name written) := by
  have listed : table.declared.lookup type = some declared := found
  obtain ⟨steps, many⟩ :=
    Nat.exists_eq_add_one_of_ne_zero (Nat.ne_zero_of_lt (length_without_lt listed))
  rw [field?, many, fieldAmong, listed]
  simp only [own]

/-- Every way up that finds a field has come to the first type with one. -/
theorem exists_firstField_of_fieldAmong (part : IsPartOf remaining table) {steps : Nat}
    {binding : VariableBinding} (found : fieldAmong name steps remaining type = some binding) :
    ∃ owner written, table.FirstField name type owner written ∧
      binding = VariableBinding.field owner.binding name written := by
  induction steps generalizing remaining type with
  | zero => cases found
  | succ steps ih =>
      rw [fieldAmong] at found
      cases entry : remaining.lookup type with
      | none =>
          rw [entry] at found
          cases found
      | some declared =>
          have known := part type declared entry
          rw [entry] at found
          cases own : declared.fields.lookup name with
          | some written =>
              simp only [own] at found
              exact ⟨declared, written, .own known own, (Option.some.inj found).symm⟩
          | none =>
              cases above : declared.superclass with
              | none => simp [own, above] at found
              | some superclass =>
                  simp only [own, above] at found
                  obtain ⟨owner, written, first, same⟩ := ih (part.without type) found
                  exact ⟨owner, written, .inherited known own above first, same⟩

theorem FirstField.field?_eq {owner : DeclaredType} {written : Option TypeBinding}
    (first : table.FirstField name type owner written) :
    table.field? type name = some (VariableBinding.field owner.binding name written) := by
  induction first with
  | own known own => exact field?_own known own
  | inherited known missing above _ ih => exact (field?_inherited known missing above).trans ih

theorem field?_eq_some_iff {binding : VariableBinding} :
    table.field? type name = some binding ↔ ∃ owner written,
      table.FirstField name type owner written ∧
        binding = VariableBinding.field owner.binding name written := by
  constructor
  · exact exists_firstField_of_fieldAmong fun _ _ => id
  · rintro ⟨owner, written, first, rfl⟩
    exact first.field?_eq

theorem lookup_foldl_fields (name : String) (found : String → Option VariableBinding)
    (fields : List (String × Option TypeBinding)) (visible : VariableLevel) :
    (fields.foldl (fun visible entry => if (visible.lookup entry.1).isSome then visible
      else visible ++ [(entry.1, found entry.1)]) visible).lookup name =
      (visible.lookup name).or ((fields.lookup name).map fun _ => found name) := by
  induction fields generalizing visible with
  | nil => rw [List.foldl_nil, List.lookup_nil, Option.map_none, Option.or_none]
  | cons entry fields ih =>
      rw [List.foldl_cons, ih, List.lookup_cons]
      by_cases here : name = entry.1
      · -- the name is visible behind this field, and nothing that comes later replaces it
        subst here
        cases seen : visible.lookup entry.1 with
        | some known => simp [seen]
        | none => simp [seen, List.lookup_append]
      · have missed : (name == entry.1) = false := beq_eq_false_iff_ne.mpr here
        rw [missed]
        split
        · rfl
        · rw [List.lookup_append, List.lookup_cons, missed, List.lookup_nil, Option.or_none]

/-- On the way up, a name that is not visible yet becomes visible as the field that the way to a
single field leads to. -/
theorem lookup_visibleAmong (part : IsPartOf remaining table) (steps : Nat) (visible : VariableLevel) :
    (table.visibleAmong steps remaining visible type).lookup name =
      (visible.lookup name).or ((fieldAmong name steps remaining type).map some) := by
  induction steps generalizing remaining visible type with
  | zero => rw [visibleAmong, fieldAmong, Option.map_none, Option.or_none]
  | succ steps ih =>
      rw [visibleAmong, fieldAmong]
      cases entry : remaining.lookup type with
      | none => rw [Option.map_none, Option.or_none]
      | some declared =>
          have inherited := lookup_foldl_fields name (table.field? type) declared.fields visible
          have rest (superclass : String) (visible : VariableLevel) :
              (table.visibleAmong steps (without type remaining) visible superclass).lookup name =
                (visible.lookup name).or
                  ((fieldAmong name steps (without type remaining) superclass).map some) :=
            ih (part.without type) visible
          dsimp only
          cases own : declared.fields.lookup name with
          | some written =>
              rw [own, Option.map_some, field?_own (part type declared entry) own] at inherited
              cases declared.superclass with
              | none => exact inherited
              | some superclass =>
                  refine (rest superclass _).trans ?_
                  rw [inherited, Option.or_assoc, Option.some_or]
                  rfl
          | none =>
              rw [own, Option.map_none, Option.or_none] at inherited
              cases declared.superclass with
              | none => rw [inherited, Option.map_none, Option.or_none]
              | some superclass =>
                  refine (rest superclass _).trans ?_
                  rw [inherited]
                  rfl

theorem lookup_visibleFields (table : TypeTable) (type name : String) :
    (table.visibleFields type).lookup name = (table.field? type name).map some := by
  rw [visibleFields, lookup_visibleAmong fun _ _ => id, List.lookup_nil, Option.none_or]
  rfl

section

variable {steps more : Nat}

/-- A way that may look at every type that is left ends for another reason than its length. -/
theorem fieldAmong_of_enough (enough : remaining.length ≤ steps) (other : remaining.length ≤ more) :
    fieldAmong name steps remaining type = fieldAmong name more remaining type := by
  induction steps generalizing remaining more type with
  | zero =>
      obtain rfl := List.length_eq_zero_iff.mp (Nat.le_zero.mp enough)
      exact (fieldAmong_of_missing rfl).symm
  | succ steps ih =>
      cases entry : remaining.lookup type with
      | none => rw [fieldAmong_of_missing entry, fieldAmong_of_missing entry]
      | some declared =>
          have shorter := length_without_lt entry
          obtain ⟨more, rfl⟩ :=
            Nat.exists_eq_add_one_of_ne_zero (Nat.ne_zero_of_lt (shorter.trans_le other))
          have rest (superclass : String) : fieldAmong name steps (without type remaining) superclass =
              fieldAmong name more (without type remaining) superclass := ih (by omega) (by omega)
          unfold without at rest
          simp only [fieldAmong, entry, rest]

theorem visibleAmong_of_missing {visible : VariableLevel} (missing : remaining.lookup type = none) :
    table.visibleAmong steps remaining visible type = visible := by
  cases steps with
  | zero => rfl
  | succ steps => rw [visibleAmong, missing]

theorem visibleAmong_of_enough (enough : remaining.length ≤ steps) (other : remaining.length ≤ more)
    (visible : VariableLevel) : table.visibleAmong steps remaining visible type =
      table.visibleAmong more remaining visible type := by
  induction steps generalizing remaining more type visible with
  | zero =>
      obtain rfl := List.length_eq_zero_iff.mp (Nat.le_zero.mp enough)
      exact (visibleAmong_of_missing rfl).symm
  | succ steps ih =>
      cases entry : remaining.lookup type with
      | none => rw [visibleAmong_of_missing entry, visibleAmong_of_missing entry]
      | some declared =>
          have shorter := length_without_lt entry
          obtain ⟨more, rfl⟩ :=
            Nat.exists_eq_add_one_of_ne_zero (Nat.ne_zero_of_lt (shorter.trans_le other))
          have rest (superclass : String) (visible : VariableLevel) :
              table.visibleAmong steps (without type remaining) visible superclass =
                table.visibleAmong more (without type remaining) visible superclass :=
            ih (by omega) (by omega) visible
          unfold without at rest
          simp only [visibleAmong, entry, rest]

end

end TypeTable

namespace Lowering

variable {table : TypeTable} {names : Names} {head : ConcreteHead} {children : Forest}

/-- The scope in which the members of a type are lowered. -/
def bodyScope (table : TypeTable) (placement : Placement) (head : ConcreteHead) (children : Forest)
    (names : Names) : Names :=
  let binding := declaredBinding? table names placement (table.source.childText .name children)
  let fields := match binding with
    | some own => table.visibleFields own.name
    | none =>
        match children.child? .body with
        | some body => unboundFields table.source body.children
        | none => []
  let entered := ((withParameters table children names).pushType binding).pushLevel fields
  { entered with components :=
      if head.kind == .recordDeclaration then formalParameters table entered.scope children else [] }

section

variable {action other : Lowering α}

theorem run_bind_congr (same : action.run names = other.run names) (next : α → Lowering β) :
    (action >>= next).run names = (other >>= next).run names :=
  congrArg (fun result : α × Names => (next result.1).run result.2) same

theorem run_bind_of_closes (closes : Closes action) (next : α → Lowering β) :
    (action >>= next).run names = (next (action.run names).1).run names :=
  congrArg (fun behind => (next (action.run names).1).run behind) (closes names)

theorem inLevel_congr {level : VariableLevel}
    (same : action.run (names.pushLevel level) = other.run (names.pushLevel level)) :
    (inLevel level action).run names = (inLevel level other).run names :=
  congrArg (fun result : α × Names => (result.1, result.2.popLevel)) same

theorem inType_congr {binding : Option TypeBinding} {fields : VariableLevel}
    (same : action.run ((names.pushType binding).pushLevel fields) =
      other.run ((names.pushType binding).pushLevel fields)) :
    (inType binding fields action).run names = (inType binding fields other).run names :=
  congrArg (fun result : α × Names => (result.1, result.2.popType binding)) (inLevel_congr same)

theorem withComponents_congr {components : List FormalParameter}
    (same : action.run { names with components } = other.run { names with components }) :
    (withComponents components action).run names = (withComponents components other).run names := by
  let close (result : α × Names) : α × Names :=
    (result.1, { result.2 with components := names.components })
  exact congrArg close same

theorem withTypeParameters_congr
    (same : action.run (withParameters table children names) =
      other.run (withParameters table children names)) :
    (withTypeParameters table children action).run names =
      (withTypeParameters table children other).run names := by
  let close (result : α × Names) : α × Names := (result.1, { result.2 with
    typeVariables := result.2.typeVariables.drop
      (result.2.typeVariables.length - names.typeVariables.length) })
  exact congrArg close same

theorem get_congr {next others : Names → Lowering α}
    (same : (next names).run names = (others names).run names) :
    (MonadState.get >>= next).run names = (MonadState.get >>= others).run names :=
  same

end

/-- What a type is lowered to depends on its members in that scope only. -/
theorem typeDeclaration_congr {placement : Placement}
    {members others : Option TypeUse → Lowering (List Node)}
    (same : ∀ created, (members created).run (bodyScope table placement head children names) =
      (others created).run (bodyScope table placement head children names)) :
    (typeDeclaration table placement head children members).run names =
      (typeDeclaration table placement head children others).run names := by
  refine get_congr (withTypeParameters_congr ?_)
  rw [run_bind_of_closes (optionUse_closes _), run_bind_of_closes (optionUse_closes _),
    run_bind_of_closes (.mapM typeUse_closes), run_bind_of_closes (.mapM typeUse_closes)]
  refine run_bind_congr (inType_congr (get_congr (run_bind_congr (withComponents_congr ?_) _))) _
  exact same _

/-- A type that is bound where it stands is one that the table declares. -/
theorem exists_binding?_of_declaredBinding? {placement : Placement} {name : String} {own : TypeBinding}
    (bound : declaredBinding? table names placement name = some own) :
    ∃ key, table.binding? key = some own := by
  cases placement with
  | topLevel => exact ⟨_, bound⟩
  | member =>
      obtain ⟨outer, -, found⟩ := Option.bind_eq_some_iff.mp bound
      exact ⟨_, found⟩
  | localType => cases bound

/-- The type of an expression that is a declared one has the fields that the table finds. -/
theorem fieldOf?_declared (indexed : table.IsIndexed) {key : String} {own : TypeBinding}
    (found : table.binding? key = some own) (name : String) :
    fieldOf? table (some own) name = table.field? own.name name := by
  obtain ⟨-, kind, shape⟩ := indexed key own found
  have kinds : own.kind = TypeTable.declaredKind kind := congrArg TypeBinding.kind shape
  rw [fieldOf?, Option.bind_eq_bind, Option.bind_some, kinds]
  cases kind <;> rfl

/-- In every table, circles of superclasses included, the fields that are visible by their names in a
type are those that are looked up one at a time, and both are the field of the first type on the way
up that declares one of the name. Neither way is cut short: further steps would lead no further. In
the body of a type of a file the innermost level of variables and `this` therefore have the same
fields. -/
theorem field_lookups_agree (table : TypeTable) (type name : String) :
    (table.visibleFields type).lookup name = (table.field? type name).map some ∧
    (∀ binding, table.field? type name = some binding ↔ ∃ owner written,
      table.FirstField name type owner written ∧
        binding = VariableBinding.field owner.binding name written) ∧
    (∀ more : Nat,
      let steps := table.declared.length + more
      TypeTable.fieldAmong name steps table.declared type = table.field? type name ∧
        table.visibleAmong steps table.declared [] type = table.visibleFields type) ∧
    ∀ (top : Forest) (placement : Placement) (head : ConcreteHead) (children : Forest)
      (names : Names) (own : TypeBinding),
      let file := table.declareAll top
      let inside := bodyScope file placement head children names
      declaredBinding? file names placement (file.source.childText .name children) = some own →
        inside.self? = some own ∧
        inside.levels = file.visibleFields own.name :: names.levels ∧
        (file.visibleFields own.name).lookup name = (fieldOf? file inside.self? name).map some ∧
        ∀ members others,
          (∀ created, (members created).run inside = (others created).run inside) →
          (typeDeclaration file placement head children members).run names =
            (typeDeclaration file placement head children others).run names := by
  refine ⟨table.lookup_visibleFields type name, fun binding => TypeTable.field?_eq_some_iff,
    fun more => ⟨TypeTable.fieldAmong_of_enough (Nat.le_add_right _ _) le_rfl,
      TypeTable.visibleAmong_of_enough (Nat.le_add_right _ _) le_rfl []⟩, ?_⟩
  intro top placement head children names own file inside bound
  obtain ⟨key, found⟩ := exists_binding?_of_declaredBinding? bound
  have self : inside.self? = some own := by
    simp only [inside, bodyScope, bound]
    rfl
  refine ⟨self, ?_, ?_, fun members others => typeDeclaration_congr⟩
  · simp only [inside, bodyScope, bound]
    rfl
  · rw [self, fieldOf?_declared (TypeTable.isIndexed_declareAll top) found, file.lookup_visibleFields]

/-- Two types that extend each other. Each sees the field of the other one, and neither way up goes
round for a field that none of them has. -/
theorem field_lookups_agree_of_circle :
    let head (role : Option Role) (kind : ConcreteKind) (start stop : Nat) : ConcreteHead :=
      ⟨role, kind, true, false, false, false, start, stop⟩
    let parts (start : Nat) : Forest := [
      .node (head (some .name) .identifier (start + 6) (start + 7)) [],
      .node (head (some .superclass) .other (start + 8) (start + 17))
        [.node (head none .typeIdentifier (start + 16) (start + 17)) []],
      .node (head (some .body) .classBody (start + 18) (start + 28))
        [.node (head none .fieldDeclaration (start + 20) (start + 26))
          [.node (head (some .type) .primitiveType (start + 20) (start + 23)) [],
            .node (head (some .declarator) .variableDeclarator (start + 24) (start + 25))
              [.node (head (some .name) .identifier (start + 24) (start + 25)) []]]]]
    let type (start : Nat) : Concrete :=
      .node (head none .classDeclaration start (start + 28)) (parts start)
    let table : TypeTable :=
      ⟨SourceText.ofString "class A extends B { int x; } class B extends A { int y; }", none, [], []⟩
    let file := table.declareAll [type 0, type 29]
    (file.field? "A" "y").map (·.declaringClass.map (·.name)) = some (some "B") ∧
      (file.visibleFields "A").lookup "y" = (file.field? "A" "y").map some ∧
      file.field? "A" "z" = none ∧ (file.visibleFields "A").lookup "z" = none ∧
      ∃ own, declaredBinding? file .empty .topLevel (file.source.childText .name (parts 0)) = some own ∧
        own.name = "A" ∧
        let inside := bodyScope file .topLevel (type 0).head (parts 0) .empty
        inside.self? = some own ∧ inside.levels = [file.visibleFields "A"] ∧
          (file.visibleFields "A").lookup "y" = (fieldOf? file inside.self? "y").map some := by
  intro head parts type table file
  have found : (file.field? "A" "y").map (·.declaringClass.map (·.name)) = some (some "B") := by
    decide +kernel
  have missing : file.field? "A" "z" = none := by
    rw [← Option.isNone_iff_eq_none]
    decide +kernel
  have bound : (declaredBinding? file .empty .topLevel (file.source.childText .name (parts 0))).map
      (·.name) = some "A" := by
    decide +kernel
  obtain ⟨own, bound, named⟩ := Option.map_eq_some_iff.mp bound
  obtain ⟨visible, -, -, entered⟩ := field_lookups_agree file "A" "y"
  obtain ⟨invisible, -, -, -⟩ := field_lookups_agree file "A" "z"
  obtain ⟨-, -, -, entered⟩ := field_lookups_agree table "A" "y"
  obtain ⟨self, levels, same, -⟩ :=
    entered [type 0, type 29] .topLevel (type 0).head (parts 0) .empty own bound
  rw [named] at levels same
  exact ⟨found, visible, missing, invisible.trans (by rw [missing]; rfl), own, bound, named, self,
    levels, same⟩

end Lowering

end JavaFacts
