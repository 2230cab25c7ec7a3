import JavaFacts.Proofs.Lowering.Lexical

/-!
What is left in scope behind a construct. Whatever is lowered, the types around it, their type
parameters and components and all levels of variables but the innermost are the same behind it, and
behind a construct that closes its scopes nothing has changed at all.
-/

namespace JavaFacts

/-- Scopes that differ in the variables of the innermost level at most. -/
structure Names.SameAround (before after : Names) : Prop where
  enclosing : after.enclosing = before.enclosing
  typeVariables : after.typeVariables = before.typeVariables
  selves : after.selves = before.selves
  components : after.components = before.components
  depth : after.levels.length = before.levels.length
  outer : after.levels.tail = before.levels.tail

theorem Names.sameAround_add (names : Names) (added : VariableLevel) :
    names.SameAround (names.add added) where
  enclosing := add_enclosing
  typeVariables := add_typeVariables
  selves := add_selves
  components := add_components
  depth := by
    unfold add
    split
    · next levels => rw [levels, List.length_cons, List.length_cons]
    · rfl
  outer := by
    unfold add
    split
    · next levels => rw [levels, List.tail_cons, List.tail_cons]
    · rfl

/-- The kinds of constructs that close all scopes that they open. The other ones may leave variables
in scope, such as that of a declaration or of a type check. -/
def ConcreteKind.closesScopes : ConcreteKind → Bool
  | .block | .constructorBody | .ownScope | .lambda | .catchClause => true
  | kind => kind.isTypeDeclaration

/-- The kinds of members that close all scopes that they open. The initializers of fields and the
arguments of enum constants are lowered in the body of the type itself. -/
def ConcreteKind.closesAsMember : ConcreteKind → Bool
  | .fieldDeclaration | .enumConstant => false
  | _ => true

namespace Lowering

/-- The action leaves nothing in scope but variables in the innermost level. -/
def Leaves (action : Lowering α) : Prop :=
  Keeps (fun _ => True) (fun _ => True) action fun _ => True

/-- Behind the action everything in scope is as it was. -/
def Closes (action : Lowering α) : Prop :=
  ∀ names, (action.run names).2 = names

variable {table : TypeTable} {action : Lowering α} {head : ConcreteHead} {children : Forest}

theorem Leaves.exists_add (leaves : Leaves action) (names : Names) :
    ∃ added, (action.run names).2 = names.add added := by
  obtain ⟨⟨added, after, -⟩, -⟩ := leaves names trivial
  exact ⟨added, after⟩

theorem Leaves.sameAround (leaves : Leaves action) (names : Names) :
    names.SameAround (action.run names).2 := by
  obtain ⟨added, after⟩ := leaves.exists_add names
  exact after ▸ names.sameAround_add added

namespace Closes

/-- Where no name at all is allowed, nothing can be left in scope. -/
theorem of_keeps {good : α → Prop} (keeps : Keeps (fun _ => True) (fun _ => False) action good) :
    Closes action := by
  intro names
  obtain ⟨⟨added, after, none⟩, -⟩ := keeps names trivial
  obtain rfl := List.eq_nil_iff_forall_not_mem.mpr none
  exact after.trans Names.add_nil

theorem keeps (closes : Closes action) {allowed : String → Prop} :
    Keeps (fun _ => True) allowed action fun _ => True :=
  .unchanged fun names _ => ⟨closes names, trivial⟩

theorem pure (value : α) : Closes (Pure.pure value) :=
  fun _ => rfl

theorem map (closes : Closes action) (change : α → β) : Closes (change <$> action) :=
  closes

theorem bind {next : α → Lowering β} (first : Closes action) (rest : ∀ value, Closes (next value)) :
    Closes (action >>= next) :=
  fun names => (rest _ _).trans (first names)

theorem get {next : Names → Lowering α} (rest : ∀ names, Closes (next names)) :
    Closes (MonadState.get >>= next) :=
  fun names => rest names names

theorem mapM {items : List α} {action : α → Lowering β} (each : ∀ item, Closes (action item)) :
    Closes (items.mapM action) := by
  induction items with
  | nil => exact .pure _
  | cons item items ih =>
      rw [List.mapM_cons]
      exact .bind (each item) fun _ => .bind ih fun _ => .pure _

end Closes

theorem typeUse_closes (tree : Concrete) : Closes (typeUse table tree) :=
  fun _ => rfl

theorem optionUse_closes (tree : Option Concrete) : Closes (tree.mapM (typeUse table)) := by
  cases tree with
  | none => exact .pure _
  | some tree => exact .bind (typeUse_closes tree) fun _ => .pure _

theorem inLevel_closes (level : VariableLevel) (leaves : Leaves action) :
    Closes (inLevel level action) :=
  .of_keeps (inLevel_keeps (steady_any default) (fun _ _ => trivial) leaves)

theorem inType_closes (binding : Option TypeBinding) (fields : VariableLevel)
    (leaves : Leaves action) : Closes (inType binding fields action) :=
  .of_keeps (inType_keeps (steady_any default) (fun _ _ => trivial) (fun _ _ => trivial) leaves)

theorem withTypeParameters_closes (closes : Closes action) :
    Closes (withTypeParameters table children action) :=
  .of_keeps (withTypeParameters_keeps (fun _ _ => trivial) closes.keeps)

theorem typeDeclaration_closes (placement : Placement)
    {members : Option TypeUse → Lowering (List Node)}
    (leaves : ∀ created, Leaves (members created)) :
    Closes (typeDeclaration table placement head children members) := by
  have steady := steady_any table
  refine .get fun names => withTypeParameters_closes (.bind (optionUse_closes _) fun _ =>
    .bind (.mapM typeUse_closes) fun _ => .bind (inType_closes _ _ ?_) fun _ => .pure _)
  refine .get fun _ _ => .bind steady (withComponents_keeps steady (fun _ _ => ⟨trivial, trivial⟩)
    (leaves _)) fun _ _ => .pure trivial

theorem methodDeclaration_closes (isConstructor : Bool) {body : Lowering (Option Node)}
    (leaves : Leaves body) : Closes (methodDeclaration table isConstructor head children body) := by
  have steady := steady_any table
  refine withTypeParameters_closes (.get fun names => .bind (inLevel_closes [] ?_) fun _ => .pure _)
  exact .andThen steady (.forM steady fun parameter _ => declareLocal_keeps trivial _) fun _ => leaves

theorem anonymousClass_closes {members : Lowering (List Node)} (leaves : Leaves members) :
    Closes (anonymousClass table head children members) :=
  .bind (inType_closes none _ leaves) fun _ => .pure _

theorem inBlock_closes (span : Span) {statements : Lowering (List Node)} (leaves : Leaves statements) :
    Closes (inBlock span statements) :=
  .map (inLevel_closes [] leaves) _

theorem lambda_closes (kind : head.kind = .lambda) {body : Lowering (Option Node)}
    (leaves : Leaves body) : Closes (lambda table head children body) := by
  have steady := steady_any table
  have declared : Leaves (declareLambdaParameters table children) :=
    declareLambdaParameters_keeps steady kind (allows_any _ _)
  exact .bind (inLevel_closes [] (.andThen steady declared fun _ => leaves)) fun _ => .pure _

/-- A body with one variable in scope. -/
theorem withLocal_closes (name : String) (type : TypeUse) {body : Lowering (Option Node)}
    (leaves : Leaves body) :
    Closes (inLevel [] do
      declareLocal name type
      body) :=
  inLevel_closes [] (.andThen (steady_any default) (declareLocal_keeps trivial type) fun _ => leaves)

theorem catchClause_closes {body : Lowering (Option Node)} (leaves : Leaves body) :
    Closes (catchClause table head children body) := by
  unfold catchClause
  dsimp only
  split
  · exact .bind (typeUse_closes _) fun _ => .bind (withLocal_closes _ _ leaves) fun _ => .pure _
  · exact .bind (.pure _) fun _ => .bind (withLocal_closes _ _ leaves) fun _ => .pure _

/-- Behind a loop over a collection there is what the collection itself leaves in scope. -/
theorem run_enhancedFor {collection body : Lowering (Option Node)} (leaves : Leaves body)
    (names : Names) :
    ((enhancedFor table head children collection body).run names).2 = (collection.run names).2 :=
  withLocal_closes _ _ leaves _

section

variable (table)

theorem lower_leaves (tree : Concrete) : Leaves (lower table tree) :=
  (lower_keeps (steady_any table) tree (allows_any _ _)).forget

theorem lowerNamed_leaves (forest : Forest) : Leaves (lowerNamed table forest) :=
  (lowerNamed_keeps (steady_any table) forest fun _ _ => allows_any _ _).forget

theorem lowerFirst_leaves (accepts : ConcreteHead → Bool) (forest : Forest) :
    Leaves (lowerFirst table accepts forest) :=
  (lowerFirst_keeps (steady_any table) forest (fun _ _ => allows_any _ _) accepts).forget

theorem member_leaves (created : Option TypeUse) (tree : Concrete) :
    Leaves (member table created tree) :=
  (member_keeps (steady_any table) (fun _ => enters_any table _) (allows_any _ tree)
    fun _ _ (_ : _ ∈ created) => trivial).forget

theorem membersIn_leaves (created : Option TypeUse) (atTop : Bool) (forest : Forest) :
    Leaves (membersIn table created atTop forest) :=
  (membersIn_keeps (steady_any table) (enters_any table _) forest (fun _ _ => allows_any _ _)
    (fun _ (_ : _ ∈ created) => trivial) atTop).forget

theorem membersOfBody_leaves (created : Option TypeUse) (forest : Forest) :
    Leaves (membersOfBody table created forest) :=
  (membersOfBody_keeps (steady_any table) (enters_any table _) forest (fun _ _ => allows_any _ _)
    fun _ (_ : _ ∈ created) => trivial).forget

theorem blockFirst_closes (accepts : ConcreteHead → Bool) (forest : Forest) :
    Closes (blockFirst table accepts forest) := by
  induction forest with
  | nil => exact .pure none
  | cons tree forest ih =>
      cases tree with
      | node head children =>
          rw [blockFirst]
          split
          · exact .map (inBlock_closes _ (lowerNamed_leaves table children)) some
          · exact ih

theorem anonymousFirst_closes (accepts : ConcreteHead → Bool) (forest : Forest) :
    Closes (anonymousFirst table accepts forest) := by
  induction forest with
  | nil => exact .pure none
  | cons tree forest ih =>
      cases tree with
      | node head children =>
          rw [anonymousFirst]
          split
          · exact .map (anonymousClass_closes (membersIn_leaves table none true children)) some
          · exact ih

theorem topLevel_closes (tree : Concrete) : Closes (topLevel table tree) :=
  typeDeclaration_closes .topLevel fun created => membersOfBody_leaves table created tree.children

theorem member_closes (created : Option TypeUse) {tree : Concrete}
    (closing : tree.kind.closesAsMember) : Closes (member table created tree) := by
  cases tree with
  | node head children =>
      have inside := fun created => membersOfBody_leaves table created children
      have block (accepts : ConcreteHead → Bool) := blockFirst_closes table accepts children
      rw [Concrete.kind, Concrete.head] at closing
      rw [member.eq_def]
      dsimp only
      split
      case h_1 | h_7 => simp_all [ConcreteKind.closesAsMember]
      case h_2 | h_3 | h_4 => exact .map (methodDeclaration_closes _ (block _).keeps) some
      case h_5 => exact .bind (inBlock_closes _ (lowerNamed_leaves table children)) fun _ => .pure _
      case h_6 => exact .bind (block _) fun _ => .pure _
      case h_8 | h_9 | h_10 | h_11 => exact .map (typeDeclaration_closes .member inside) some
      case h_12 => exact .pure none

theorem lower_closes {tree : Concrete} (closing : tree.kind.closesScopes) :
    Closes (lower table tree) := by
  cases tree with
  | node head children =>
      have nodes := lowerNamed_leaves table children
      have inside := fun created => membersOfBody_leaves table created children
      rw [Concrete.kind, Concrete.head] at closing
      rw [lower]
      split
      · exact .pure _
      · split
        case h_1 | h_2 => exact .map (inBlock_closes _ nodes) some
        case h_16 | h_17 | h_18 | h_19 => exact .map (typeDeclaration_closes .localType inside) some
        case h_29 kind => exact .map (lambda_closes kind (lowerFirst_leaves table _ children)) some
        case h_31 => exact .map (catchClause_closes (blockFirst_closes table _ children).keeps) some
        case h_34 => exact inLevel_closes [] (generic_keeps (steady_any table)
            (lowerNamed_keeps (steady_any table) children fun _ _ => allows_any _ _)).forget
        all_goals simp_all [ConcreteKind.closesScopes, ConcreteKind.isTypeDeclaration]

theorem run_lower_enhancedFor {tree : Concrete} (kind : tree.kind = .enhancedFor) (names : Names) :
    ((lower table tree).run names).2 =
      ((lowerFirst table (·.hasRole .value) tree.children).run names).2 := by
  cases tree with
  | node head children =>
      rw [Concrete.kind, Concrete.head] at kind
      have literal : literalType? table.source head = none := by simp [literalType?, kind]
      rw [lower, literal]
      simp only [kind]
      exact run_enhancedFor (lowerFirst_leaves table _ children) names

/-- Statements are lowered one after the other. -/
theorem run_lowerNamed_append (front rest : Forest) (names : Names) :
    (lowerNamed table (front ++ rest)).run names =
      let ahead := (lowerNamed table front).run names
      let later := (lowerNamed table rest).run ahead.2
      (ahead.1 ++ later.1, later.2) := by
  have appended : lowerNamed table (front ++ rest) = (do
      let ahead ← lowerNamed table front
      let later ← lowerNamed table rest
      pure (ahead ++ later)) := by
    induction front with
    | nil => simp [lowerNamed]
    | cons tree front ih =>
        rw [List.cons_append, lowerNamed, lowerNamed]
        split
        · simp only [ih, bind_assoc, pure_bind, List.append_assoc]
        · exact ih
  rw [appended]
  rfl

/-- What follows a construct that leaves nothing in scope is lowered as if it came first. -/
theorem run_lowerNamed_cons {tree : Concrete} (closes : Closes (lower table tree)) (rest : Forest)
    (names : Names) : (lowerNamed table (tree :: rest)).run names =
      let own := if tree.head.isNamed then ((lower table tree).run names).1.toList else []
      let later := (lowerNamed table rest).run names
      (own ++ later.1, later.2) := by
  rw [lowerNamed]
  by_cases named : tree.head.isNamed
  · have same := congrArg (fun inside => (lowerNamed table rest).run inside) (closes names)
    rw [if_pos named, if_pos named]
    exact congrArg (fun later : List Node × Names =>
      (((lower table tree).run names).1.toList ++ later.1, later.2)) same
  · rw [if_neg named, if_neg named]
    rfl

/-- Whatever is lowered, only variables of the innermost level are left in scope. Blocks and other
bodies, `for` statements, `try` statements with resources, `switch` blocks, lambda expressions,
`catch` clauses, types and anonymous classes leave nothing at all, nor do members other than fields
and enum constants; a loop over a collection leaves what its collection does. So the statements in
front of a construct that leaves nothing and behind it are lowered as they are without it. -/
theorem lowering_leaks_no_names (names : Names) (tree : Concrete) :
    names.SameAround ((lower table tree).run names).2 ∧
    (∀ created, names.SameAround ((member table created tree).run names).2) ∧
    (tree.kind.closesScopes → ((lower table tree).run names).2 = names) ∧
    (tree.kind.closesAsMember → ∀ created, ((member table created tree).run names).2 = names) ∧
    ((topLevel table tree).run names).2 = names ∧
    (∀ accepts forest, ((blockFirst table accepts forest).run names).2 = names ∧
      ((anonymousFirst table accepts forest).run names).2 = names) ∧
    (tree.kind = .enhancedFor → ((lower table tree).run names).2 =
      ((lowerFirst table (·.hasRole .value) tree.children).run names).2) ∧
    (tree.kind.closesScopes → ∀ front rest,
      let ahead := (lowerNamed table front).run names
      let own := if tree.head.isNamed then ((lower table tree).run ahead.2).1.toList else []
      let later := (lowerNamed table rest).run ahead.2
      (lowerNamed table (front ++ rest)).run names = (ahead.1 ++ later.1, later.2) ∧
      (lowerNamed table (front ++ tree :: rest)).run names =
        (ahead.1 ++ (own ++ later.1), later.2)) := by
  refine ⟨(lower_leaves table tree).sameAround names,
    fun created => (member_leaves table created tree).sameAround names,
    fun closing => lower_closes table closing names,
    fun closing created => member_closes table created closing names,
    topLevel_closes table tree names,
    fun accepts forest => ⟨blockFirst_closes table accepts forest names,
      anonymousFirst_closes table accepts forest names⟩,
    fun kind => run_lower_enhancedFor table kind names, fun closing front rest => ⟨?_, ?_⟩⟩
  · exact run_lowerNamed_append table front rest names
  · refine (run_lowerNamed_append table front (tree :: rest) names).trans ?_
    dsimp only
    rw [run_lowerNamed_cons table (lower_closes table closing)]

end

/-- A class in code that has a field `x`, with an `x` behind it and a loop over this `x`: neither of
them knows the field, nor does anything behind the loop know its variable. -/
theorem lowering_leaks_no_names_of_class_and_loop :
    let head (role : Option Role) (kind : ConcreteKind) (start stop : Nat) : ConcreteHead :=
      ⟨role, kind, true, false, false, false, start, stop⟩
    let table : TypeTable :=
      ⟨SourceText.ofString "class L { int x; } x; for (int y : x) y;", none, [], []⟩
    let declarator : Concrete := .node (head (some .declarator) .variableDeclarator 14 15)
      [.node (head (some .name) .identifier 14 15) []]
    let body : Concrete := .node (head (some .body) .classBody 8 18)
      [.node (head none .fieldDeclaration 10 16)
        [.node (head (some .type) .primitiveType 10 13) [], declarator]]
    let type : Concrete := .node (head none .classDeclaration 0 18)
      [.node (head (some .name) .identifier 6 7) [], body]
    let name : Concrete := .node (head none .identifier 19 20) []
    let loop : Concrete := .node (head none .enhancedFor 22 40)
      [.node (head (some .type) .primitiveType 27 30) [],
        .node (head (some .name) .identifier 31 32) [],
        .node (head (some .value) .identifier 35 36) [],
        .node (head (some .body) .wrapping 38 40) [.node (head none .identifier 38 39) []]]
    let names : Names := ⟨["A"], [], [none], [[("x", none)]], []⟩
    let lowered := ((lower table type).run names).1.toList
    let later := (lowerNamed table [name, loop]).run names
    (type.kind.closesScopes ∧ type.kind.closesAsMember ∧ loop.kind = .enhancedFor) ∧
      ((lower table type).run names).2 = names ∧
      ((member table none type).run names).2 = names ∧
      ((lower table loop).run names).2 = names ∧
      (lowerNamed table [type, name, loop]).run names = (lowered ++ later.1, later.2) := by
  intro head table declarator body type name loop names lowered later
  obtain ⟨-, -, same, asMember, -, -, -, inserted⟩ := lowering_leaks_no_names table names type
  obtain ⟨-, -, -, -, -, -, behind, -⟩ := lowering_leaks_no_names table names loop
  exact ⟨⟨rfl, rfl, rfl⟩, same rfl, asMember rfl none, (behind rfl).trans rfl,
    (inserted rfl [] [name, loop]).2⟩

end Lowering

end JavaFacts
