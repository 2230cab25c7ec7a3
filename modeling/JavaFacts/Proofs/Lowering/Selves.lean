import JavaFacts.Lowering.Names

/-!
What lowering makes of a tree where `this` is known. Whatever types a tree enters it leaves again, so
that `this` is the same behind it.
-/

namespace JavaFacts.Lowering

/-- Where `this` is `self` the action gives good results only, and `this` is the same behind it. -/
def Gives (self : Option TypeBinding) (action : Lowering α) (good : α → Prop) : Prop :=
  ∀ names : Names, names.self? = self →
    (action.run names).2.selves = names.selves ∧ good (action.run names).1

namespace Gives

variable {self : Option TypeBinding}

theorem bind {action : Lowering α} {next : α → Lowering β} {good : α → Prop} {better : β → Prop}
    (first : Gives self action good) (rest : ∀ value, good value → Gives self (next value) better) :
    Gives self (action >>= next) better := by
  intro names here
  obtain ⟨same, value⟩ := first names here
  have there : (action.run names).2.self? = self := by rw [Names.self?, same]; exact here
  obtain ⟨still, result⟩ := rest _ value _ there
  exact ⟨still.trans same, result⟩

theorem andThen {action : Lowering α} {next : α → Lowering β} {good : β → Prop}
    (first : Gives self action fun _ => True) (rest : ∀ value, Gives self (next value) good) :
    Gives self (action >>= next) good :=
  .bind first fun value _ => rest value

theorem pure {value : α} {good : α → Prop} (here : good value) : Gives self (Pure.pure value) good :=
  fun _ _ => ⟨rfl, here⟩

theorem map {action : Lowering α} {change : α → β} {good : α → Prop} {better : β → Prop}
    (gives : Gives self action good) (enough : ∀ value, good value → better (change value)) :
    Gives self (change <$> action) better := fun names here =>
  ⟨(gives names here).1, enough _ (gives names here).2⟩

theorem weaken {action : Lowering α} {good better : α → Prop} (gives : Gives self action good)
    (enough : ∀ value, good value → better value) : Gives self action better := fun names here =>
  ⟨(gives names here).1, enough _ (gives names here).2⟩

/-- What an action does with the names in scope may depend on what `this` is in them. -/
theorem get {next : Names → Lowering α} {good : α → Prop}
    (rest : ∀ names : Names, names.self? = self → Gives self (next names) good) :
    Gives self (MonadState.get >>= next) good :=
  fun names here => rest names here names here

theorem modify {change : Names → Names} (same : ∀ names, (change names).selves = names.selves) :
    Gives self (modify change : Lowering PUnit) fun _ => True :=
  fun names _ => ⟨same names, trivial⟩

theorem read {reading : Names → α} :
    Gives self (do return reading (← MonadState.get) : Lowering α) fun _ => True :=
  fun _ _ => ⟨rfl, trivial⟩

theorem forM {items : List α} {action : α → Lowering Unit}
    (each : ∀ item ∈ items, Gives self (action item) fun _ => True) :
    Gives self (items.forM action) fun _ => True := by
  induction items with
  | nil => exact .pure trivial
  | cons item items ih =>
      rw [List.forM]
      exact .andThen (each item List.mem_cons_self) fun _ =>
        ih fun other member => each other (List.mem_cons_of_mem _ member)

theorem mapM {items : List α} {action : α → Lowering β} {good : β → Prop}
    (each : ∀ item ∈ items, Gives self (action item) good) :
    Gives self (items.mapM action) fun results => ∀ result ∈ results, good result := by
  induction items with
  | nil => exact .pure fun _ => (nomatch ·)
  | cons item items ih =>
      rw [List.mapM_cons]
      exact .bind (each item List.mem_cons_self) fun first good =>
        .bind (ih fun other member => each other (List.mem_cons_of_mem _ member)) fun _ rest =>
          .pure (List.forall_mem_cons.mpr ⟨good, rest⟩)

end Gives

section

variable {self : Option TypeBinding} {α : Type} {action : Lowering α} {good : α → Prop}

theorem selves_declare (names : Names) (name : String) (binding : Option VariableBinding) :
    (names.declare name binding).selves = names.selves := by
  unfold Names.declare
  split <;> rfl

theorem declareLocal_gives (name : String) (type : TypeUse) :
    Gives self (declareLocal name type) fun _ => True :=
  .modify fun names => selves_declare names _ _

theorem declareHidden_gives (name : String) : Gives self (declareHidden name) fun _ => True :=
  .modify fun names => selves_declare names _ _

theorem inLevel_gives {level : VariableLevel} (gives : Gives self action good) :
    Gives self (inLevel level action) good :=
  .andThen (.modify fun _ => rfl) fun _ => .bind gives fun _ result =>
    .andThen (.modify fun _ => rfl) fun _ => .pure result

/-- Inside a type `this` is another. -/
theorem inType_gives {binding : Option TypeBinding} {fields : VariableLevel}
    (gives : Gives binding action good) : Gives self (inType binding fields action) good := by
  intro names here
  obtain ⟨same, result⟩ := (inLevel_gives gives : Gives binding (inLevel fields action) good) (names.pushType binding) rfl
  exact ⟨congrArg (List.drop 1) same, result⟩

theorem withTypeParameters_gives {table : TypeTable} {declaration : Forest}
    (gives : Gives self action good) : Gives self (withTypeParameters table declaration action) good :=
  .get fun _ _ => .andThen (.modify fun _ => rfl) fun _ => .bind gives fun _ result =>
    .andThen (.modify fun _ => rfl) fun _ => .pure result

theorem withComponents_gives {components : List FormalParameter} (gives : Gives self action good) :
    Gives self (withComponents components action) good :=
  .get fun _ _ => .andThen (.modify fun _ => rfl) fun _ => .bind gives fun _ result =>
    .andThen (.modify fun _ => rfl) fun _ => .pure result

theorem typeUse_gives (table : TypeTable) (tree : Concrete) :
    Gives self (typeUse table tree) fun _ => True :=
  .read

theorem optionUse_gives (table : TypeTable) (tree : Option Concrete) :
    Gives self (tree.mapM (typeUse table)) fun _ => True := by
  cases tree with
  | none => exact .pure trivial
  | some tree => exact .andThen (typeUse_gives table tree) fun _ => .pure trivial

theorem typeOf_gives (table : TypeTable) (head : ConcreteHead) (children : Forest) :
    Gives self (typeOf table head children) fun _ => True :=
  .read

end

end JavaFacts.Lowering
