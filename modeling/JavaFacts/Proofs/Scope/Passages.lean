import JavaFacts.Scope.Tracker

/-!
Sequences of passages into scopes and out of them, by themselves. An entry is known by its number among
all entries, and a leave names the entry that it belongs to. Types are left in the reverse order of their
entries, and so are methods and blocks, except that a method takes the blocks with it that are open in
it; what such a sequence leaves open is told by what it enters and leaves.
-/

namespace JavaFacts.Scopes

inductive ScopeKind where
  | type
  | method
  | block
deriving DecidableEq

/-- Entering a scope, or leaving the one that an entry opened. -/
inductive Passage where
  | enterType (frame : TypeFrame)
  | enterMethod (entity : EntityId) (name : String) (declaringType : EntityId)
  | enterBlock (span : Span)
  | leave (entry : Nat)
deriving DecidableEq

def Passage.entered? : Passage → Option ScopeKind
  | .enterType _ => some .type
  | .enterMethod .. => some .method
  | .enterBlock _ => some .block
  | .leave _ => none

/-- The kinds of the entries, in order. -/
def entered (passages : List Passage) : List ScopeKind :=
  passages.filterMap Passage.entered?

def IsEntry (passages : List Passage) (kind : ScopeKind) (entry : Nat) : Prop :=
  (entered passages)[entry]? = some kind

def IsOpen (passages : List Passage) (kind : ScopeKind) (entry : Nat) : Prop :=
  IsEntry passages kind entry ∧ .leave entry ∉ passages

/-- Which method is the last one that is open, if one is. -/
def IsInnermost (passages : List Passage) : Option Nat → Prop
  | some method => IsOpen passages .method method ∧
      ∀ entry, IsOpen passages .method entry → entry ≤ method
  | none => ∀ entry, ¬IsOpen passages .method entry

/-- The entry is that of a block, and the innermost method was open then. -/
def EnteredIn (passages : List Passage) (method : Option Nat) (entry : Nat) : Prop :=
  ∃ before span behind, passages = before ++ .enterBlock span :: behind ∧
    (entered before).length = entry ∧ IsInnermost before method

/-- Every entry is left once, and not while a later one is open, of whatever kinds they are. -/
structure ProperlyNested (passages : List Passage) : Prop where
  left_once : ∀ entry < (entered passages).length, passages.count (.leave entry) = 1
  inside : ∀ before entry behind, passages = before ++ .leave entry :: behind →
    ∀ later, entry < later → later < (entered before).length → .leave later ∈ before

variable {passages before behind : List Passage} {passage : Passage} {kind other : ScopeKind}
  {entry later : Nat} {method : Option Nat}

theorem IsInnermost.unique {one other : Option Nat} (first : IsInnermost passages one)
    (second : IsInnermost passages other) : one = other := by
  match one, other with
  | none, none => rfl
  | none, some method => exact absurd second.1 (first method)
  | some method, none => exact absurd first.1 (second method)
  | some method, some another =>
      exact congrArg some (Nat.le_antisymm (second.2 method first.1) (first.2 another second.1))

section Snoc

theorem entered_append : entered (before ++ behind) = entered before ++ entered behind :=
  List.filterMap_append

theorem entered_snoc : entered (passages ++ [passage]) = entered passages ++ passage.entered?.toList := by
  rw [entered_append]
  cases found : passage.entered? <;> simp [entered, found]

theorem IsEntry.lt (isEntry : IsEntry passages kind entry) : entry < (entered passages).length :=
  (List.getElem?_eq_some_iff.mp isEntry).1

theorem IsEntry.kind_unique (isEntry : IsEntry passages kind entry)
    (isOther : IsEntry passages other entry) : kind = other :=
  Option.some.inj (isEntry.symm.trans isOther)

theorem isEntry_append_iff (known : entry < (entered before).length) :
    IsEntry (before ++ behind) kind entry ↔ IsEntry before kind entry := by
  rw [IsEntry, entered_append, List.getElem?_append_left known, IsEntry]

theorem IsEntry.append (isEntry : IsEntry before kind entry) : IsEntry (before ++ behind) kind entry :=
  (isEntry_append_iff isEntry.lt).mpr isEntry

theorem isEntry_enter (enters : passage.entered? = some other) :
    IsEntry (passages ++ [passage]) kind entry ↔
      IsEntry passages kind entry ∨ kind = other ∧ entry = (entered passages).length := by
  rw [IsEntry, IsEntry, entered_snoc, enters, Option.toList_some, List.getElem?_append]
  split
  · rename_i known
    exact (or_iff_left fun new => Nat.ne_of_lt known new.2).symm
  · rename_i unknown
    rw [List.getElem?_eq_none (Nat.not_lt.mp unknown), List.getElem?_singleton]
    split
    · rename_i first
      have new : entry = (entered passages).length := by omega
      simp [new, eq_comm]
    · rename_i beyond
      have apart : entry ≠ (entered passages).length := by omega
      simp [apart]

theorem isEntry_leave : IsEntry (passages ++ [.leave later]) kind entry ↔ IsEntry passages kind entry := by
  rw [IsEntry, entered_snoc]
  exact iff_of_eq (by rw [Passage.entered?, Option.toList_none, List.append_nil, IsEntry])

theorem leave_mem_enter (enters : passage.entered? = some other) :
    .leave entry ∈ passages ++ [passage] ↔ .leave entry ∈ passages := by
  rw [List.mem_append, List.mem_singleton]
  refine or_iff_left fun same => ?_
  rw [← same] at enters
  cases enters

theorem leave_mem_leave :
    .leave entry ∈ passages ++ [.leave later] ↔ .leave entry ∈ passages ∨ entry = later := by
  rw [List.mem_append, List.mem_singleton, Passage.leave.injEq]

theorem isOpen_enter (enters : passage.entered? = some other)
    (unleft : .leave (entered passages).length ∉ passages) :
    IsOpen (passages ++ [passage]) kind entry ↔
      IsOpen passages kind entry ∨ kind = other ∧ entry = (entered passages).length := by
  rw [IsOpen, isEntry_enter enters, leave_mem_enter enters, or_and_right, IsOpen]
  refine or_congr_right (and_iff_left_of_imp fun new => ?_)
  rwa [new.2]

theorem isOpen_leave :
    IsOpen (passages ++ [.leave later]) kind entry ↔ IsOpen passages kind entry ∧ entry ≠ later := by
  rw [IsOpen, isEntry_leave, leave_mem_leave, IsOpen, not_or, and_assoc]

theorem enteredIn_snoc :
    EnteredIn (passages ++ [passage]) method entry ↔
      EnteredIn passages method entry ∨
        passage.entered? = some .block ∧ entry = (entered passages).length ∧
          IsInnermost passages method := by
  constructor
  · rintro ⟨before, span, behind, split, number, innermost⟩
    rcases List.eq_nil_or_concat behind with rfl | ⟨shorter, last, rfl⟩
    · obtain ⟨rfl, same⟩ := List.append_inj' split rfl
      obtain rfl := (List.cons.inj same).1
      exact .inr ⟨rfl, number.symm, innermost⟩
    · rw [List.concat_eq_append, ← List.cons_append, ← List.append_assoc] at split
      exact .inl ⟨before, span, shorter, (List.append_inj' split rfl).1, number, innermost⟩
  · rintro (⟨before, span, behind, rfl, number, innermost⟩ | ⟨enters, number, innermost⟩)
    · exact ⟨before, span, behind ++ [passage], by simp, number, innermost⟩
    · cases passage <;> cases enters
      exact ⟨passages, _, [], rfl, number.symm, innermost⟩

theorem enteredIn_leave :
    EnteredIn (passages ++ [.leave later]) method entry ↔ EnteredIn passages method entry := by
  rw [enteredIn_snoc]
  exact or_iff_left fun new => nomatch new.1

end Snoc

theorem EnteredIn.isEntry (enteredIn : EnteredIn passages method entry) :
    IsEntry passages .block entry := by
  obtain ⟨before, span, behind, rfl, rfl, -⟩ := enteredIn
  rw [List.append_cons]
  exact IsEntry.append ((isEntry_enter rfl).mpr (.inr ⟨rfl, rfl⟩))

theorem EnteredIn.method_lt {method : Nat} (enteredIn : EnteredIn passages (some method) entry) :
    method < entry := by
  obtain ⟨before, span, behind, rfl, rfl, innermost⟩ := enteredIn
  exact innermost.1.1.lt

/-- The open methods, the last one first, each with the blocks that are open in it, and the blocks that
are open outside of methods. -/
inductive Visits where
  | outside (blocks : List Nat)
  | inside (method : Nat) (blocks : List Nat) (around : Visits)

namespace Visits

variable {visits : Visits}

def push (entry : Nat) : Visits → Visits
  | outside blocks => outside (entry :: blocks)
  | inside method blocks around => inside method (entry :: blocks) around

def innermost? : Visits → Option Nat
  | outside _ => none
  | inside method _ _ => some method

def methods : Visits → List Nat
  | outside _ => []
  | inside method _ around => method :: around.methods

/-- The blocks that are open in a method, or outside of all. -/
inductive Holds : Visits → Option Nat → List Nat → Prop
  | outside (blocks : List Nat) : Holds (outside blocks) none blocks
  | inside (method : Nat) (blocks : List Nat) (around : Visits) :
      Holds (inside method blocks around) (some method) blocks
  | around (inner : Nat) (within : List Nat) {around : Visits} {method : Option Nat} {blocks : List Nat} :
      Holds around method blocks → Holds (inside inner within around) method blocks

/-- All methods and blocks that are open, the last one first. -/
def stack : Visits → List Nat
  | outside blocks => blocks
  | inside method blocks around => blocks ++ method :: around.stack

theorem mem_stack_iff : entry ∈ visits.stack ↔
    entry ∈ visits.methods ∨ ∃ method blocks, visits.Holds method blocks ∧ entry ∈ blocks := by
  induction visits with
  | outside blocks =>
      simp only [stack, methods, List.not_mem_nil, false_or]
      refine ⟨fun member => ⟨none, blocks, .outside blocks, member⟩, ?_⟩
      rintro ⟨_, _, ⟨⟩, member⟩
      exact member
  | inside method blocks around ih =>
      simp only [stack, methods, List.mem_append, List.mem_cons, ih]
      constructor
      · rintro (member | rfl | member | ⟨_, _, holds, member⟩)
        · exact .inr ⟨_, _, .inside method blocks around, member⟩
        · exact .inl (.inl rfl)
        · exact .inl (.inr member)
        · exact .inr ⟨_, _, .around method blocks holds, member⟩
      · rintro ((rfl | member) | ⟨_, _, holds, member⟩)
        · exact .inr (.inl rfl)
        · exact .inr (.inr (.inl member))
        · cases holds with
          | inside => exact .inl member
          | around _ _ holds => exact .inr (.inr (.inr ⟨_, _, holds, member⟩))

theorem stack_push : (visits.push entry).stack = entry :: visits.stack := by
  cases visits <;> rfl

theorem methods_push : (visits.push entry).methods = visits.methods := by
  cases visits <;> rfl

/-- A block that is entered is held by the innermost method, and else nothing changes. -/
theorem holds_of_push {blocks : List Nat} (holds : (visits.push entry).Holds method blocks) :
    (∃ earlier, blocks = entry :: earlier ∧ method = visits.innermost? ∧ visits.Holds method earlier) ∨
      ∃ inner within around, visits = .inside inner within around ∧ around.Holds method blocks := by
  cases visits with
  | outside earlier =>
      cases holds
      exact .inl ⟨earlier, rfl, rfl, .outside earlier⟩
  | inside inner earlier around =>
      cases holds with
      | inside => exact .inl ⟨earlier, rfl, rfl, .inside inner earlier around⟩
      | around _ _ holds => exact .inr ⟨inner, earlier, around, rfl, holds⟩

theorem Holds.push {blocks : List Nat} (holds : visits.Holds method blocks) (entry : Nat) :
    (visits.push entry).Holds method blocks ∨ (visits.push entry).Holds method (entry :: blocks) := by
  cases holds with
  | outside => exact .inr (.outside _)
  | inside => exact .inr (.inside _ _ _)
  | around _ _ holds => exact .inl (.around _ _ holds)

theorem exists_holds_push (entry : Nat) (visits : Visits) :
    ∃ blocks, (visits.push entry).Holds visits.innermost? (entry :: blocks) := by
  cases visits with
  | outside blocks => exact ⟨blocks, .outside _⟩
  | inside method blocks around => exact ⟨blocks, .inside _ _ _⟩

theorem mem_methods_of_holds {method : Nat} {blocks : List Nat}
    (holds : visits.Holds (some method) blocks) : method ∈ visits.methods := by
  induction visits with
  | outside => cases holds
  | inside inner within around ih =>
      cases holds with
      | inside => exact List.mem_cons_self
      | around _ _ holds => exact List.mem_cons_of_mem _ (ih holds)

end Visits

/-- Entries in order are each held once. -/
theorem mem_tail_iff_of_ordered {first : Nat} {rest : List Nat}
    (ordered : (first :: rest).Pairwise (· > ·)) :
    entry ∈ rest ↔ entry ∈ first :: rest ∧ entry ≠ first := by
  rw [List.mem_cons]
  constructor
  · intro member
    exact ⟨.inr member, Nat.ne_of_lt (List.rel_of_pairwise_cons ordered member)⟩
  · rintro ⟨same | member, apart⟩
    · exact absurd same apart
    · exact member

/-- Leaving the last one of the open types, methods or blocks. -/
inductive Closes (entry : Nat) : List Nat → Visits → List Nat → Visits → Prop where
  | type (types : List Nat) (visits : Visits) : Closes entry (entry :: types) visits types visits
  | method (types blocks : List Nat) (around : Visits) :
      Closes entry types (.inside entry blocks around) types around
  | block (types : List Nat) (visits : Visits) : Closes entry types (visits.push entry) types visits

/-- A passage that leaves nothing but the last one of its kind; what is entered gets the number
`next`. -/
inductive Passes (next : Nat) : Passage → List Nat → Visits → List Nat → Visits → Prop where
  | enterType (frame : TypeFrame) (types : List Nat) (visits : Visits) :
      Passes next (.enterType frame) types visits (next :: types) visits
  | enterMethod (entity : EntityId) (name : String) (declaringType : EntityId) (types : List Nat)
      (visits : Visits) :
      Passes next (.enterMethod entity name declaringType) types visits types (.inside next [] visits)
  | enterBlock (span : Span) (types : List Nat) (visits : Visits) :
      Passes next (.enterBlock span) types visits types (visits.push next)
  | leave {types fewer : List Nat} {visits left : Visits} {entry : Nat} :
      Closes entry types visits fewer left → Passes next (.leave entry) types visits fewer left

/-- The types, and the methods and blocks, that are open behind passages which leave types, methods and
blocks in the reverse order of their entries. -/
inductive Opened : List Passage → List Nat → Visits → Prop where
  | start : Opened [] [] (.outside [])
  | pass {passages : List Passage} {passage : Passage} {types later : List Nat} {visits after : Visits} :
      Opened passages types visits →
      Passes (entered passages).length passage types visits later after →
      Opened (passages ++ [passage]) later after

/-- What is open is what was entered and not left, in the order of entries. -/
structure Records (passages : List Passage) (types : List Nat) (visits : Visits) : Prop where
  lt_of_left : ∀ entry, .leave entry ∈ passages → entry < (entered passages).length
  mem_types : ∀ entry, entry ∈ types ↔ IsOpen passages .type entry
  mem_methods : ∀ entry, entry ∈ visits.methods ↔ IsOpen passages .method entry
  mem_blocks : ∀ method blocks, visits.Holds method blocks → ∀ entry,
    entry ∈ blocks ↔ EnteredIn passages method entry ∧ .leave entry ∉ passages
  types_ordered : types.Pairwise (· > ·)
  stack_ordered : visits.stack.Pairwise (· > ·)

namespace Records

variable {types fewer : List Nat} {visits left : Visits}

theorem isOpen_of_mem_stack (records : Records passages types visits) (member : entry ∈ visits.stack) :
    IsOpen passages .method entry ∨ IsOpen passages .block entry := by
  rcases Visits.mem_stack_iff.mp member with member | ⟨method, blocks, holds, member⟩
  · exact .inl ((records.mem_methods entry).mp member)
  · obtain ⟨enteredIn, unleft⟩ := (records.mem_blocks method blocks holds entry).mp member
    exact .inr ⟨enteredIn.isEntry, unleft⟩

theorem lt_of_mem_stack (records : Records passages types visits) (member : entry ∈ visits.stack) :
    entry < (entered passages).length :=
  (records.isOpen_of_mem_stack member).elim (·.1.lt) (·.1.lt)

theorem isInnermost (records : Records passages types visits) :
    IsInnermost passages visits.innermost? := by
  cases visits with
  | outside blocks =>
      intro entry isOpen
      exact List.not_mem_nil ((records.mem_methods entry).mpr isOpen)
  | inside method blocks around =>
      refine ⟨(records.mem_methods method).mp List.mem_cons_self, fun entry isOpen => ?_⟩
      rcases List.mem_cons.mp ((records.mem_methods entry).mpr isOpen) with rfl | outer
      · exact Nat.le_refl _
      · have below := List.rel_of_pairwise_cons (List.pairwise_append.mp records.stack_ordered).2.1
          (Visits.mem_stack_iff.mpr (.inl outer))
        exact Nat.le_of_lt below

theorem unleft (records : Records passages types visits) : .leave (entered passages).length ∉ passages :=
  fun member => Nat.lt_irrefl _ (records.lt_of_left _ member)

theorem lt_of_left_enter (records : Records passages types visits)
    (enters : passage.entered? = some other) (entry : Nat) (member : .leave entry ∈ passages ++ [passage]) :
    entry < (entered (passages ++ [passage])).length := by
  rw [entered_snoc, enters, Option.toList_some, List.length_append]
  exact Nat.lt_add_right _ (records.lt_of_left entry ((leave_mem_enter enters).mp member))

/-- What is open of another kind than the one entered. -/
theorem isOpen_enter_other (records : Records passages types visits)
    (enters : passage.entered? = some other) (apart : passage.entered? ≠ some kind) :
    IsOpen (passages ++ [passage]) kind entry ↔ IsOpen passages kind entry := by
  rw [isOpen_enter enters records.unleft]
  refine or_iff_left fun new => apart ?_
  rw [new.1, enters]

theorem mem_blocks_enter_other (records : Records passages types visits)
    (enters : passage.entered? = some other) (apart : passage.entered? ≠ some .block)
    (method : Option Nat) (blocks : List Nat) (holds : visits.Holds method blocks) (entry : Nat) :
    entry ∈ blocks ↔
      EnteredIn (passages ++ [passage]) method entry ∧ .leave entry ∉ passages ++ [passage] := by
  rw [enteredIn_snoc, leave_mem_enter enters, records.mem_blocks method blocks holds]
  exact and_congr_left' (or_iff_left fun new => apart new.1).symm

theorem enterType (records : Records passages types visits) (frame : TypeFrame) :
    Records (passages ++ [.enterType frame]) ((entered passages).length :: types) visits where
  lt_of_left := records.lt_of_left_enter rfl
  mem_types entry := by
    rw [isOpen_enter rfl records.unleft, List.mem_cons, records.mem_types, or_comm]
    simp
  mem_methods entry := by
    rw [records.isOpen_enter_other rfl (by simp [Passage.entered?]), records.mem_methods]
  mem_blocks := records.mem_blocks_enter_other rfl (by simp [Passage.entered?])
  types_ordered := List.pairwise_cons.mpr
    ⟨fun entry member => ((records.mem_types entry).mp member).1.lt, records.types_ordered⟩
  stack_ordered := records.stack_ordered

theorem enterMethod (records : Records passages types visits) (entity : EntityId) (name : String)
    (declaringType : EntityId) :
    Records (passages ++ [.enterMethod entity name declaringType]) types
      (.inside (entered passages).length [] visits) where
  lt_of_left := records.lt_of_left_enter rfl
  mem_types entry := by
    rw [records.isOpen_enter_other rfl (by simp [Passage.entered?]), records.mem_types]
  mem_methods entry := by
    rw [isOpen_enter rfl records.unleft, Visits.methods, List.mem_cons, records.mem_methods, or_comm]
    simp
  mem_blocks method blocks holds entry := by
    cases holds with
    | inside =>
        -- no block was entered in a method that is entered only now
        refine iff_of_false List.not_mem_nil fun ⟨enteredIn, _⟩ => ?_
        rcases enteredIn_snoc.mp enteredIn with earlier | ⟨enters, -⟩
        · exact Nat.lt_asymm earlier.method_lt earlier.isEntry.lt
        · cases enters
    | around _ _ holds =>
        exact records.mem_blocks_enter_other rfl (by simp [Passage.entered?]) method blocks holds entry
  types_ordered := records.types_ordered
  stack_ordered := List.pairwise_cons.mpr
    ⟨fun _ => records.lt_of_mem_stack, records.stack_ordered⟩

theorem not_isInnermost_of_around {inner : Nat} {within blocks : List Nat} {around : Visits}
    (records : Records passages types (.inside inner within around)) (holds : around.Holds method blocks) :
    ¬IsInnermost passages method := by
  intro innermost
  obtain rfl := records.isInnermost.unique innermost
  have below := List.rel_of_pairwise_cons (List.pairwise_append.mp records.stack_ordered).2.1
    (Visits.mem_stack_iff.mpr (.inl (Visits.mem_methods_of_holds holds)))
  exact Nat.lt_irrefl _ below

theorem enterBlock (records : Records passages types visits) (span : Span) :
    Records (passages ++ [.enterBlock span]) types (visits.push (entered passages).length) where
  lt_of_left := records.lt_of_left_enter rfl
  mem_types entry := by
    rw [records.isOpen_enter_other rfl (by simp [Passage.entered?]), records.mem_types]
  mem_methods entry := by
    rw [records.isOpen_enter_other rfl (by simp [Passage.entered?]), Visits.methods_push,
      records.mem_methods]
  mem_blocks method blocks holds entry := by
    rw [enteredIn_snoc, leave_mem_enter rfl]
    rcases Visits.holds_of_push holds with
      ⟨earlier, rfl, rfl, held⟩ | ⟨inner, within, around, rfl, held⟩
    · have innermost := records.isInnermost
      rw [List.mem_cons, records.mem_blocks _ _ held]
      constructor
      · rintro (rfl | ⟨enteredIn, unleft⟩)
        · exact ⟨.inr ⟨rfl, rfl, innermost⟩, records.unleft⟩
        · exact ⟨.inl enteredIn, unleft⟩
      · rintro ⟨enteredIn | ⟨-, new, -⟩, unleft⟩
        · exact .inr ⟨enteredIn, unleft⟩
        · exact .inl new
    · rw [records.mem_blocks _ _ (.around inner within held)]
      exact and_congr_left' (or_iff_left fun new =>
        records.not_isInnermost_of_around held new.2.2).symm
  types_ordered := records.types_ordered
  stack_ordered := by
    rw [Visits.stack_push]
    exact List.pairwise_cons.mpr ⟨fun _ => records.lt_of_mem_stack, records.stack_ordered⟩

theorem lt_of_left_leave (records : Records passages types visits) (isEntry : IsEntry passages kind entry)
    (left : Nat) (member : .leave left ∈ passages ++ [.leave entry]) :
    left < (entered (passages ++ [.leave entry])).length := by
  rw [entered_snoc, Passage.entered?, Option.toList_none, List.append_nil]
  rcases leave_mem_leave.mp member with earlier | rfl
  · exact records.lt_of_left left earlier
  · exact isEntry.lt

/-- What is open of another kind than the one left. -/
theorem isOpen_leave_other (isEntry : IsEntry passages other later) (apart : other ≠ kind) :
    IsOpen (passages ++ [.leave later]) kind entry ↔ IsOpen passages kind entry := by
  rw [isOpen_leave]
  refine and_iff_left_of_imp fun isOpen same => apart ?_
  exact isEntry.kind_unique (same ▸ isOpen.1)

theorem mem_blocks_leave_other (records : Records passages types visits)
    (isEntry : IsEntry passages other later) (apart : other ≠ .block) {method : Option Nat}
    {blocks : List Nat} (holds : visits.Holds method blocks) (entry : Nat) :
    entry ∈ blocks ↔ EnteredIn (passages ++ [.leave later]) method entry ∧
      .leave entry ∉ passages ++ [.leave later] := by
  rw [enteredIn_leave, leave_mem_leave, records.mem_blocks method blocks holds, not_or]
  refine and_congr_right fun enteredIn => (and_iff_left_of_imp fun _ same => apart ?_).symm
  exact isEntry.kind_unique (same ▸ enteredIn.isEntry)

theorem leave (records : Records passages types visits) (closes : Closes entry types visits fewer left) :
    Records (passages ++ [.leave entry]) fewer left := by
  cases closes with
  | type =>
      have isOpen := (records.mem_types entry).mp List.mem_cons_self
      exact {
        lt_of_left := records.lt_of_left_leave isOpen.1
        mem_types := fun other => by
          rw [isOpen_leave, ← records.mem_types, mem_tail_iff_of_ordered records.types_ordered]
        mem_methods := fun other =>
          (records.mem_methods other).trans (isOpen_leave_other isOpen.1 (by decide)).symm
        mem_blocks := fun _ _ => records.mem_blocks_leave_other isOpen.1 (by decide)
        types_ordered := records.types_ordered.of_cons
        stack_ordered := records.stack_ordered }
  | method _ blocks =>
      have isOpen := (records.mem_methods entry).mp List.mem_cons_self
      have ordered := (List.pairwise_append.mp records.stack_ordered).2.1
      have unlike {other : Nat} (member : other ∈ left.methods) : other ≠ entry :=
        Nat.ne_of_lt (List.rel_of_pairwise_cons ordered (Visits.mem_stack_iff.mpr (.inl member)))
      exact {
        lt_of_left := records.lt_of_left_leave isOpen.1
        mem_types := fun other =>
          (records.mem_types other).trans (isOpen_leave_other isOpen.1 (by decide)).symm
        mem_methods := fun other => by
          rw [isOpen_leave, ← records.mem_methods, Visits.methods, List.mem_cons]
          exact ⟨fun member => ⟨.inr member, unlike member⟩,
            fun ⟨held, apart⟩ => held.resolve_left apart⟩
        mem_blocks := fun _ _ holds =>
          records.mem_blocks_leave_other isOpen.1 (by decide) (.around entry blocks holds)
        types_ordered := records.types_ordered
        stack_ordered := ordered.of_cons }
  | block =>
      have ordered := records.stack_ordered
      rw [Visits.stack_push] at ordered
      obtain ⟨_, here⟩ := Visits.exists_holds_push entry left
      have isEntry : IsEntry passages .block entry :=
        ((records.mem_blocks _ _ here entry).mp List.mem_cons_self).1.isEntry
      exact {
        lt_of_left := records.lt_of_left_leave isEntry
        mem_types := fun other =>
          (records.mem_types other).trans (isOpen_leave_other isEntry (by decide)).symm
        mem_methods := fun other => by
          rw [isOpen_leave_other isEntry (by decide), ← records.mem_methods, Visits.methods_push]
        mem_blocks := fun method blocks holds other => by
          have unlike (member : other ∈ blocks) : other ≠ entry := Nat.ne_of_lt
            (List.rel_of_pairwise_cons ordered (Visits.mem_stack_iff.mpr (.inr ⟨_, _, holds, member⟩)))
          rw [enteredIn_leave, leave_mem_leave, not_or, ← and_assoc]
          rcases holds.push entry with same | more
          · rw [← records.mem_blocks _ _ same]
            exact (and_iff_left_of_imp unlike).symm
          · rw [← records.mem_blocks _ _ more, List.mem_cons]
            exact ⟨fun member => ⟨.inr member, unlike member⟩,
              fun ⟨held, apart⟩ => held.resolve_left apart⟩
        types_ordered := records.types_ordered
        stack_ordered := ordered.of_cons }

end Records

end JavaFacts.Scopes
