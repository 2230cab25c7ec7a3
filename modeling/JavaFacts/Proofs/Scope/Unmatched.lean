import JavaFacts.Proofs.Scope.Blocks
import JavaFacts.Proofs.Scope.Nesting
import Mathlib.Data.List.Nodup

/-!
How far accepted leaves guarantee that scopes are nested. A leave of a type only looks at the types, a
leave of a method only at the methods, and a leave of a block only at the block that is open; a method
that is left takes along what is open in it.
-/

namespace JavaFacts.Scopes

/-- What entering a scope returned: a depth for a type or a method, an id for a block. -/
structure Key where
  kind : ScopeKind
  number : Nat

def leaveBy? (scopes : Scopes) (key : Key) : Option Scopes :=
  match key.kind with
  | .type => (scopes.leaveType key.number).toOption.map (·.2)
  | .method => (scopes.leaveMethod key.number).toOption.map (·.2)
  | .block => (scopes.leaveBlock key.number).toOption

structure Passing where
  scopes : Scopes
  /-- What the entries returned, in their order. -/
  keys : List Key

namespace Passing

def start : Passing := ⟨∅, []⟩

def enter (passing : Passing) (kind : ScopeKind) (entered : Nat × Scopes) : Passing :=
  ⟨entered.2, passing.keys ++ [⟨kind, entered.1⟩]⟩

/-- A scope is left with what its own entry returned. -/
def pass (passing : Passing) : Passage → Option Passing
  | .enterType frame => some (passing.enter .type (passing.scopes.enterType frame))
  | .enterMethod entity name declaringType =>
      some (passing.enter .method (passing.scopes.enterMethod entity name declaringType))
  | .enterBlock span => some (passing.enter .block (passing.scopes.enterBlock span))
  | .leave entry => do
      let key ← passing.keys[entry]?
      let scopes ← passing.scopes.leaveBy? key
      return { passing with scopes }

/-- The state behind passages of which none is refused. -/
def passAll (passages : List Passage) : Option Passing :=
  passages.foldlM pass start

end Passing

/-- The depth returned for an open type or method counts those around it. -/
def Levels (keys : List Key) (kind : ScopeKind) : List Nat → Prop
  | [] => True
  | entry :: around => keys[entry]? = some ⟨kind, around.length + 1⟩ ∧ Levels keys kind around

/-- From the block that is open outwards to the outermost one of the same method. -/
inductive BlockChain (passing : Passing) : Option BlockId → List Nat → Prop
  | ended : BlockChain passing none []
  | inside {entry : Nat} {id : BlockId} {block : Block} {around : List Nat} :
      passing.keys[entry]? = some ⟨.block, id⟩ → passing.scopes.block? id = some block →
      BlockChain passing block.outer around → BlockChain passing (some id) (entry :: around)

/-- The block that is open in each method, and outside of all, heads the blocks that are open there. -/
inductive VisitChain (passing : Passing) : Option BlockId → List MethodFrame → Visits → Prop
  | outside {current : Option BlockId} {blocks : List Nat} :
      BlockChain passing current blocks → VisitChain passing current [] (.outside blocks)
  | inside {current : Option BlockId} {frame : MethodFrame} {frames : List MethodFrame} {method : Nat}
      {blocks : List Nat} {around : Visits} :
      BlockChain passing current blocks → VisitChain passing frame.hidden frames around →
      VisitChain passing current (frame :: frames) (.inside method blocks around)

/-- Blocks have ids below `size`, each its own. -/
structure BlockKeys (keys : List Key) (size : Nat) : Prop where
  known : ∀ (entry : Nat) (id : BlockId), keys[entry]? = some ⟨.block, id⟩ → id < size
  distinct : ∀ (entry other : Nat) (id : BlockId), keys[entry]? = some ⟨.block, id⟩ →
    keys[other]? = some ⟨.block, id⟩ → entry = other

/-- The stacks hold what is open, in order, each under the key that its entry returned. -/
structure Follows (passages : List Passage) (passing : Passing) (types : List Nat) (visits : Visits) :
    Prop where
  kinds : passing.keys.map (·.kind) = entered passages
  types_length : passing.scopes.types.length = types.length
  type_levels : Levels passing.keys .type types
  method_levels : Levels passing.keys .method visits.methods
  visits : VisitChain passing passing.scopes.block passing.scopes.methods visits
  blocks : BlockKeys passing.keys passing.scopes.blocks.size

section Levels

variable {keys : List Key} {kind : ScopeKind} {entries around : List Nat} {entry first : Nat}

theorem Levels.append (levels : Levels keys kind entries) (more : List Key) :
    Levels (keys ++ more) kind entries := by
  induction entries with
  | nil => trivial
  | cons entry around ih =>
      have known := (List.getElem?_eq_some_iff.mp levels.1).1
      exact ⟨(List.getElem?_append_left known).trans levels.1, ih levels.2⟩

theorem Levels.enter {number : Nat} (levels : Levels keys kind entries)
    (counts : number = entries.length + 1) :
    Levels (keys ++ [⟨kind, number⟩]) kind (keys.length :: entries) :=
  ⟨counts ▸ List.getElem?_concat_length, levels.append _⟩

theorem Levels.key (levels : Levels keys kind entries) (member : entry ∈ entries) :
    ∃ depth ≤ entries.length, keys[entry]? = some ⟨kind, depth⟩ := by
  induction entries with
  | nil => exact absurd member List.not_mem_nil
  | cons first around ih =>
      rcases List.mem_cons.mp member with rfl | member
      · exact ⟨_, Nat.le_refl _, levels.1⟩
      · obtain ⟨depth, within, found⟩ := ih levels.2 member
        exact ⟨depth, Nat.le_succ_of_le within, found⟩

/-- Only the last one has the full depth. -/
theorem Levels.eq_head (levels : Levels keys kind (first :: around)) (member : entry ∈ first :: around)
    (key : keys[entry]? = some ⟨kind, around.length + 1⟩) : entry = first := by
  rcases List.mem_cons.mp member with same | below
  · exact same
  · obtain ⟨depth, within, found⟩ := levels.2.key below
    have same : depth = around.length + 1 := congrArg Key.number (Option.some.inj (found.symm.trans key))
    exact absurd within (by omega)

end Levels

section Chains

variable {passing later : Passing} {current : Option BlockId} {frames : List MethodFrame}
  {blocks : List Nat} {visits : Visits}

/-- Entries keep their keys, and blocks stay as they are. -/
structure Grown (passing later : Passing) : Prop where
  keys : ∀ (entry : Nat) (key : Key), passing.keys[entry]? = some key → later.keys[entry]? = some key
  blocks : ∀ (id : BlockId) (block : Block),
    passing.scopes.block? id = some block → later.scopes.block? id = some block

theorem BlockChain.mono (grown : Grown passing later) (chain : BlockChain passing current blocks) :
    BlockChain later current blocks := by
  induction chain with
  | ended => exact .ended
  | inside key found _ ih => exact .inside (grown.keys _ _ key) (grown.blocks _ _ found) ih

theorem VisitChain.mono (grown : Grown passing later) (chain : VisitChain passing current frames visits) :
    VisitChain later current frames visits := by
  induction chain with
  | outside blocks => exact .outside (blocks.mono grown)
  | inside blocks _ ih => exact .inside (blocks.mono grown) ih

/-- Leaving a scope keeps all blocks. -/
theorem VisitChain.leave {scopes : Scopes} (chain : VisitChain passing current frames visits)
    (same : scopes.blocks = passing.scopes.blocks) :
    VisitChain { passing with scopes } current frames visits := by
  have grown : Grown passing { passing with scopes } := by
    refine ⟨fun _ _ => id, fun id block found => ?_⟩
    rw [block?, same]
    exact found
  exact chain.mono grown

theorem VisitChain.length_methods (chain : VisitChain passing current frames visits) :
    frames.length = visits.methods.length := by
  induction chain with
  | outside => rfl
  | inside _ _ ih => exact congrArg Nat.succ ih

theorem VisitChain.push {entry : Nat} {id : BlockId} {block : Block}
    (chain : VisitChain passing block.outer frames visits)
    (key : passing.keys[entry]? = some ⟨.block, id⟩) (found : passing.scopes.block? id = some block) :
    VisitChain passing (some id) frames (visits.push entry) := by
  generalize around : block.outer = outer at chain
  cases chain with
  | outside blocks => exact .outside (.inside key found (around ▸ blocks))
  | inside blocks rest => exact .inside (.inside key found (around ▸ blocks)) rest

theorem VisitChain.pop {id : BlockId} (chain : VisitChain passing (some id) frames visits) :
    ∃ entry block left, visits = left.push entry ∧ passing.keys[entry]? = some ⟨.block, id⟩ ∧
      passing.scopes.block? id = some block ∧ VisitChain passing block.outer frames left := by
  cases chain with
  | outside blocks =>
      obtain _ | ⟨key, found, around⟩ := blocks
      exact ⟨_, _, .outside _, rfl, key, found, .outside around⟩
  | inside blocks rest =>
      obtain _ | ⟨key, found, around⟩ := blocks
      exact ⟨_, _, .inside _ _ _, rfl, key, found, .inside around rest⟩

end Chains

variable {passages : List Passage} {passage : Passage} {passing later : Passing} {types : List Nat}
  {visits : Visits} {kind : ScopeKind} {entry : Nat} {scopes after : Scopes} {number : Nat}

theorem leaveBy?_type : scopes.leaveBy? ⟨.type, number⟩ = some after ↔
    ∃ frame, scopes.leaveType number = .ok (frame, after) := by
  cases left : scopes.leaveType number <;> simp [leaveBy?, left, Except.toOption, Prod.ext_iff]

theorem leaveBy?_method : scopes.leaveBy? ⟨.method, number⟩ = some after ↔
    ∃ frame, scopes.leaveMethod number = .ok (frame, after) := by
  cases left : scopes.leaveMethod number <;> simp [leaveBy?, left, Except.toOption, Prod.ext_iff]

theorem leaveBy?_block : scopes.leaveBy? ⟨.block, number⟩ = some after ↔
    scopes.leaveBlock number = .ok after := by
  cases left : scopes.leaveBlock number <;> simp [leaveBy?, left, Except.toOption]

theorem pass_leave_eq_some_iff :
    passing.pass (.leave entry) = some later ↔
      ∃ key scopes, passing.keys[entry]? = some key ∧ passing.scopes.leaveBy? key = some scopes ∧
        { passing with scopes } = later := by
  simp only [Passing.pass, Option.bind_eq_bind, Option.bind_eq_some_iff, Option.pure_def,
    Option.some.injEq, exists_and_left]

theorem Passing.grown_enter {returned : Nat × Scopes} (kind : ScopeKind)
    (kept : ∀ (id : BlockId) (block : Block),
      passing.scopes.block? id = some block → returned.2.block? id = some block) :
    Grown passing (passing.enter kind returned) where
  keys entry key found := by
    have known := (List.getElem?_eq_some_iff.mp found).1
    exact (List.getElem?_append_left known).trans found
  blocks := kept

section Keys

variable {keys : List Key} {key new : Key} {id : BlockId} {size : Nat}

theorem key_of_concat (found : (keys ++ [new])[entry]? = some key) :
    keys[entry]? = some key ∨ entry = keys.length ∧ key = new := by
  rw [List.getElem?_append] at found
  split at found
  · exact .inl found
  · rename_i beyond
    obtain ⟨last, same⟩ := List.getElem?_eq_some_iff.mp found
    rw [List.length_singleton] at last
    exact .inr ⟨by omega, by rw [← same, List.getElem_singleton]⟩

theorem BlockKeys.enter_other (blocks : BlockKeys keys size) (apart : new.kind ≠ .block) :
    BlockKeys (keys ++ [new]) size := by
  have old {entry : Nat} {id : BlockId} (key : (keys ++ [new])[entry]? = some ⟨.block, id⟩) :
      keys[entry]? = some ⟨.block, id⟩ :=
    (key_of_concat key).resolve_right fun last => apart (congrArg Key.kind last.2).symm
  exact ⟨fun entry id key => blocks.known entry id (old key),
    fun entry other id key another => blocks.distinct entry other id (old key) (old another)⟩

theorem BlockKeys.enter_block (blocks : BlockKeys keys size) :
    BlockKeys (keys ++ [⟨.block, size⟩]) (size + 1) where
  known entry id key := by
    rcases key_of_concat key with old | ⟨-, same⟩
    · exact Nat.lt_succ_of_lt (blocks.known entry id old)
    · cases same
      exact Nat.lt_succ_self _
  distinct entry other id key another := by
    have fresh {entry : Nat} (old : keys[entry]? = some ⟨.block, size⟩) : False :=
      Nat.lt_irrefl _ (blocks.known entry _ old)
    rcases key_of_concat key with old | ⟨rfl, same⟩
    · rcases key_of_concat another with older | ⟨-, same⟩
      · exact blocks.distinct entry other id old older
      · cases same
        exact (fresh old).elim
    · cases same
      rcases key_of_concat another with older | ⟨rfl, -⟩
      · exact (fresh older).elim
      · rfl

end Keys

namespace Follows

theorem start : Follows [] Passing.start [] (.outside []) where
  kinds := rfl
  types_length := rfl
  type_levels := trivial
  method_levels := trivial
  visits := .outside .ended
  blocks := ⟨nofun, nofun⟩

theorem keys_length (follows : Follows passages passing types visits) :
    passing.keys.length = (entered passages).length := by
  rw [← follows.kinds, List.length_map]

theorem isEntry (follows : Follows passages passing types visits)
    (key : passing.keys[entry]? = some ⟨kind, number⟩) : IsEntry passages kind entry := by
  rw [IsEntry, ← follows.kinds, List.getElem?_map, key, Option.map_some]

theorem kinds_enter (follows : Follows passages passing types visits)
    (enters : passage.entered? = some kind) (returned : Nat × Scopes) :
    (passing.enter kind returned).keys.map (·.kind) = entered (passages ++ [passage]) := by
  rw [Passing.enter, List.map_append, follows.kinds, entered_snoc, enters]
  rfl

theorem enterType (follows : Follows passages passing types visits) (frame : TypeFrame) :
    Follows (passages ++ [.enterType frame]) (passing.enter .type (passing.scopes.enterType frame))
      ((entered passages).length :: types) visits where
  kinds := follows.kinds_enter rfl _
  types_length := congrArg Nat.succ follows.types_length
  type_levels := by
    rw [← follows.keys_length]
    exact follows.type_levels.enter (congrArg Nat.succ follows.types_length)
  method_levels := follows.method_levels.append _
  visits := follows.visits.mono (Passing.grown_enter .type fun _ _ => id)
  blocks := follows.blocks.enter_other nofun

theorem enterMethod (follows : Follows passages passing types visits) (entity : EntityId)
    (name : String) (declaringType : EntityId) :
    Follows (passages ++ [.enterMethod entity name declaringType])
      (passing.enter .method (passing.scopes.enterMethod entity name declaringType)) types
      (.inside (entered passages).length [] visits) where
  kinds := follows.kinds_enter rfl _
  types_length := follows.types_length
  type_levels := follows.type_levels.append _
  method_levels := by
    rw [← follows.keys_length]
    exact follows.method_levels.enter (congrArg Nat.succ follows.visits.length_methods)
  visits := .inside .ended (follows.visits.mono (Passing.grown_enter .method fun _ _ => id))
  blocks := follows.blocks.enter_other nofun

theorem enterBlock (follows : Follows passages passing types visits) (span : Span) :
    Follows (passages ++ [.enterBlock span]) (passing.enter .block (passing.scopes.enterBlock span))
      types (visits.push (entered passages).length) where
  kinds := follows.kinds_enter rfl _
  types_length := follows.types_length
  type_levels := follows.type_levels.append _
  method_levels := by
    rw [Visits.methods_push]
    exact follows.method_levels.append _
  visits := by
    have grown : Grown passing (passing.enter .block (passing.scopes.enterBlock span)) :=
      Passing.grown_enter .block fun _ _ => block?_enterBlock_of_block? span
    have new : (passing.scopes.enterBlock span).2.block? passing.scopes.blocks.size = some _ :=
      Array.getElem?_push_size
    rw [← follows.keys_length]
    exact (follows.visits.mono grown).push List.getElem?_concat_length new
  blocks := by
    have size : (passing.scopes.enterBlock span).2.blocks.size = passing.scopes.blocks.size + 1 :=
      Array.size_push _
    rw [Passing.enter, size]
    exact follows.blocks.enter_block

/-- A type or method that is left is the last one of its kind that is open, because its depth is that of
the whole stack; a block because ids are not given twice. -/
theorem leave (follows : Follows passages passing types visits) (records : Records passages types visits)
    (unleft : .leave entry ∉ passages) (accepted : passing.pass (.leave entry) = some later) :
    ∃ fewer left, Closes entry types visits fewer left ∧
      Follows (passages ++ [.leave entry]) later fewer left := by
  obtain ⟨⟨kind, number⟩, scopes, key, leaves, rfl⟩ := pass_leave_eq_some_iff.mp accepted
  have kinds : passing.keys.map (·.kind) = entered (passages ++ [.leave entry]) := by
    rw [follows.kinds, entered_snoc]
    exact (List.append_nil _).symm
  have isOpen : IsOpen passages kind entry := ⟨follows.isEntry key, unleft⟩
  cases kind with
  | type =>
      obtain ⟨frame, leaves⟩ := leaveBy?_type.mp leaves
      obtain ⟨frames, stack, rfl, rfl⟩ := leaveType_eq_ok_iff.mp leaves
      have length := follows.types_length
      have levels := follows.type_levels
      have member := (records.mem_types entry).mpr isOpen
      rw [stack, List.length_cons] at length
      cases types with
      | nil => exact absurd member List.not_mem_nil
      | cons first fewer =>
          have shorter := Nat.succ.inj length
          obtain rfl := levels.eq_head member (shorter ▸ key)
          exact ⟨fewer, visits, .type fewer visits, {
            follows with
            kinds
            types_length := shorter
            type_levels := levels.2
            visits := follows.visits.leave rfl }⟩
  | method =>
      obtain ⟨frame, leaves⟩ := leaveBy?_method.mp leaves
      obtain ⟨frames, stack, rfl, rfl⟩ := leaveMethod_eq_ok_iff.mp leaves
      have chain := follows.visits
      have levels := follows.method_levels
      have member := (records.mem_methods entry).mpr isOpen
      rw [stack] at chain
      cases chain with
      | @inside _ _ _ method blocks around _ rest =>
          obtain rfl := levels.eq_head member (rest.length_methods ▸ key)
          exact ⟨types, around, .method types blocks around, {
            follows with
            kinds
            method_levels := levels.2
            visits := rest.leave rfl }⟩
  | block =>
      obtain ⟨current, rfl⟩ := leaveBlock_eq_ok_iff.mp (leaveBy?_block.mp leaves)
      have chain := follows.visits
      have levels := follows.method_levels
      rw [current] at chain
      obtain ⟨head, block, left, rfl, headKey, found, rest⟩ := chain.pop
      obtain rfl := follows.blocks.distinct entry head number key headKey
      rw [Visits.methods_push] at levels
      exact ⟨types, left, .block types left, {
        follows with
        kinds
        method_levels := levels
        visits := by
          rw [outer?, found, Option.bind_some]
          exact rest.leave rfl }⟩

theorem pass (follows : Follows passages passing types visits) (records : Records passages types visits)
    (unleft : ∀ entry, passage = .leave entry → .leave entry ∉ passages)
    (accepted : passing.pass passage = some later) :
    ∃ fewer left, Passes (entered passages).length passage types visits fewer left ∧
      Follows (passages ++ [passage]) later fewer left := by
  cases passage with
  | enterType frame =>
      cases accepted
      exact ⟨_, _, .enterType frame types visits, follows.enterType frame⟩
  | enterMethod entity name declaringType =>
      cases accepted
      exact ⟨_, _, .enterMethod entity name declaringType types visits,
        follows.enterMethod entity name declaringType⟩
  | enterBlock span =>
      cases accepted
      exact ⟨_, _, .enterBlock span types visits, follows.enterBlock span⟩
  | leave entry =>
      obtain ⟨fewer, left, closes, next⟩ := follows.leave records (unleft entry rfl) accepted
      exact ⟨fewer, left, .leave closes, next⟩

/-- Balanced stacks hold nothing. -/
theorem eq_nil_of_isBalanced (follows : Follows passages passing types visits)
    (balanced : passing.scopes.isBalanced) : types = [] ∧ visits = .outside [] := by
  simp only [isBalanced, Bool.and_eq_true, List.isEmpty_iff, Option.isNone_iff_eq_none] at balanced
  obtain ⟨⟨noTypes, noMethods⟩, noBlock⟩ := balanced
  have length := follows.types_length
  have chain := follows.visits
  rw [noTypes] at length
  rw [noMethods, noBlock] at chain
  obtain ⟨⟨⟩⟩ := chain
  exact ⟨List.eq_nil_of_length_eq_zero length.symm, rfl⟩

end Follows

theorem passAll_snoc :
    Passing.passAll (passages ++ [passage]) = (Passing.passAll passages).bind (·.pass passage) := by
  rw [Passing.passAll, List.foldlM_append]
  simp [Passing.passAll]

/-- As long as no scope is left twice, accepted leaves are in the reverse order of the entries of their
kind. -/
theorem opened_of_passAll (accepted : Passing.passAll passages = some passing)
    (once : ∀ entry, passages.count (.leave entry) ≤ 1) :
    ∃ types visits, Opened passages types visits ∧ Follows passages passing types visits := by
  induction passages using List.reverseRecOn generalizing passing with
  | nil =>
      cases accepted
      exact ⟨[], .outside [], .start, .start⟩
  | append_singleton passages passage ih =>
      rw [passAll_snoc] at accepted
      obtain ⟨before, earlier, accepted⟩ := Option.bind_eq_some_iff.mp accepted
      have fewer (entry : Nat) : passages.count (.leave entry) ≤ 1 :=
        Nat.le_trans ((List.sublist_append_left _ _).count_le _) (once entry)
      obtain ⟨types, visits, opened, follows⟩ := ih earlier fewer
      have unleft (entry : Nat) (same : passage = .leave entry) : .leave entry ∉ passages := by
        intro member
        have twice := once entry
        rw [same, List.count_append, List.count_singleton_self] at twice
        exact absurd (List.count_pos_iff.mpr member) (by omega)
      obtain ⟨remaining, left, passes, next⟩ := follows.pass opened.records unleft accepted
      exact ⟨remaining, left, opened.pass passes, next⟩

/-- Every leave is accepted and nothing is left over, but the scopes are not nested. -/
def Undetected (passages : List Passage) : Prop :=
  (∃ passing, Passing.passAll passages = some passing ∧ passing.scopes.isBalanced = true) ∧
    ¬ProperlyNested passages

/-- A type and a method that overlap. -/
def crossed : List Passage :=
  [.enterType ⟨1, "A"⟩, .enterMethod 2 "A.m()" 1, .leave 0, .leave 1]

/-- A block that is never left, in a method that is. -/
def abandoned : List Passage :=
  [.enterMethod 2 "A.m()" 1, .enterBlock ⟨10, 20⟩, .leave 0]

/-- The depth of a type that was left, used for the next type. -/
def reused : List Passage :=
  [.enterType ⟨1, "A"⟩, .leave 0, .enterType ⟨2, "B"⟩, .leave 0]

theorem unmatched_scopes_undetected : Undetected crossed ∧ Undetected abandoned ∧ Undetected reused := by
  refine ⟨⟨⟨_, rfl, rfl⟩, fun nested => ?_⟩, ⟨⟨_, rfl, rfl⟩, fun nested => ?_⟩,
    ⟨⟨_, rfl, rfl⟩, fun nested => ?_⟩⟩
  · have left := nested.inside (crossed.take 2) 0 [.leave 1] rfl 1 (by decide) (by decide)
    exact absurd left (by decide)
  · exact absurd (nested.left_once 1 (by decide)) (by decide)
  · exact absurd (nested.left_once 1 (by decide)) (by decide)

theorem accepted_passages_nest_by_kind (accepted : Passing.passAll passages = some passing)
    (balanced : passing.scopes.isBalanced = true)
    (once : ∀ entry, passages.count (.leave entry) ≤ 1) : NestedByKind passages := by
  obtain ⟨types, visits, opened, follows⟩ := opened_of_passAll accepted once
  obtain ⟨rfl, rfl⟩ := follows.eq_nil_of_isBalanced balanced
  exact opened.nestedByKind once

/-- A block around a type, whose method is left after the type; in the method a block, in which another
method leaves a block behind. -/
def interleaved : List Passage :=
  [.enterBlock ⟨0, 90⟩, .enterType ⟨1, "A"⟩, .enterMethod 2 "A.m()" 1, .enterBlock ⟨10, 80⟩,
    .enterMethod 3 "A.n()" 1, .enterBlock ⟨20, 70⟩, .leave 4, .leave 3, .leave 1, .leave 2, .leave 0]

theorem interleaved_passages_nest_by_kind :
    (∃ passing, Passing.passAll interleaved = some passing ∧ passing.scopes.isBalanced = true) ∧
      (∀ entry, interleaved.count (.leave entry) ≤ 1) ∧ NestedByKind interleaved := by
  have once (entry : Nat) : interleaved.count (.leave entry) ≤ 1 :=
    List.nodup_iff_count_le_one.mp (by decide) _
  exact ⟨⟨_, rfl, rfl⟩, once, accepted_passages_nest_by_kind rfl rfl once⟩

end JavaFacts.Scopes
