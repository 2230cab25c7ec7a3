import JavaFacts.Proofs.Scope.Blocks
import JavaFacts.Scope.Snapshot
import Mathlib.Data.List.Perm.Subperm

/-!
What a snapshot of the visible variables means. The variables around a place form levels, from the
blocks outwards to the parameters and on to the fields of the types around; a name denotes its
variables in the narrowest level that has one.
-/

namespace JavaFacts.Snapshot

/-- The variables of that name in the first of the levels that has some. -/
def narrowest (name : String) : List (List Entity) → List EntityId
  | [] => []
  | level :: wider =>
      match level.filter (·.simpleName == name) with
      | [] => narrowest name wider
      | found => found.map (·.id)

/-- The types met on the way outwards from an entity. The way leads through owners, and ends at
whatever is neither a type nor a method and at what was visited before. -/
inductive OutwardTypes (store : Store) : List EntityId → Option EntityId → List EntityId → Prop where
  | outermost {visited : List EntityId} : OutwardTypes store visited none []
  | visited {visited : List EntityId} {id : EntityId} :
      id ∈ visited → OutwardTypes store visited (some id) []
  | unknown {visited : List EntityId} {id : EntityId} :
      store.entity? id = none → OutwardTypes store visited (some id) []
  | other {visited : List EntityId} {id : EntityId} {entity : Entity} :
      store.entity? id = some entity → entity.kind ≠ .type → entity.kind ≠ .method →
      OutwardTypes store visited (some id) []
  | type {visited around : List EntityId} {id : EntityId} {entity : Entity} :
      id ∉ visited → store.entity? id = some entity → entity.kind = .type →
      OutwardTypes store (id :: visited) entity.owner around →
      OutwardTypes store visited (some id) (id :: around)
  | method {visited around : List EntityId} {id : EntityId} {entity : Entity} :
      id ∉ visited → store.entity? id = some entity → entity.kind = .method →
      OutwardTypes store (id :: visited) entity.owner around →
      OutwardTypes store visited (some id) around

/-- The local variables of a method that a block declares and that end no later than `limit`. -/
def localsOf (store : Store) (scopes : Scopes) (method : EntityId) (limit : Nat) (block : BlockId) :
    List Entity :=
  (store.membersOfKind method .localVariable).filter fun entity =>
    scopes.blockOfLocal? entity.id == some block && entity.anchor.any (·.stop ≤ limit)

/-- The levels around a place in a method, narrowest first. -/
def levels (store : Store) (scopes : Scopes) (method : EntityId) (block : Option BlockId)
    (blocks types : List EntityId) : List (List Entity) :=
  let limit := ((block.bind scopes.block?).map (·.span.stop)).getD 0
  blocks.map (localsOf store scopes method limit) ++ [store.membersOfKind method .parameter] ++
    types.map (store.membersOfKind · .field)

variable {snapshot : Snapshot} {level : Level} {name : String}

/-- Looking a name up in a table of all values of a function. -/
theorem lookup_table (names : List String) (values : String → List EntityId) (name : String) :
    (names.map fun name => (name, values name)).lookup name =
      if name ∈ names then some (values name) else none := by
  induction names with
  | nil => rfl
  | cons first names ih =>
      by_cases same : name = first
      · simp [same]
      · simp [List.lookup_cons, beq_eq_false_iff_ne.mpr same, ih, same]

theorem lookup_grouped :
    (grouped level).lookup name =
      if level.any (·.1 == name) then some ((level.filter (·.1 == name)).map (·.2)) else none := by
  have present : (name ∈ (level.map (·.1)).eraseDups) = (level.any (·.1 == name) = true) := by
    simp
  have table := lookup_table (level.map (·.1)).eraseDups
    (fun name => (level.filter (·.1 == name)).map (·.2)) name
  rw [grouped, table]
  simp only [present]

theorem contains_eq_isSome : snapshot.contains name = (snapshot.entries.lookup name).isSome := by
  rw [Bool.eq_iff_iff, List.lookup_isSome_iff, contains, List.any_eq_true]
  simp only [beq_iff_eq, @eq_comm _ name]

/-- The entries of a hidden name are left out, all others stay. -/
theorem filter_visible (visible : snapshot.contains name = false) :
    (level.filter fun entry => !snapshot.contains entry.1).filter (·.1 == name) =
      level.filter (·.1 == name) := by
  rw [List.filter_filter]
  refine List.filter_congr fun entry _ => ?_
  by_cases same : entry.1 = name
  · simp [same, visible]
  · simp [same]

theorem any_visible (visible : snapshot.contains name = false) :
    (level.filter fun entry => !snapshot.contains entry.1).any (·.1 == name) =
      level.any (·.1 == name) := by
  rw [List.any_filter]
  refine List.any_congr rfl fun entry => ?_
  by_cases same : entry.1 = name
  · simp [same, visible]
  · simp [same]

theorem lookup_addLevel :
    (snapshot.addLevel level).entries.lookup name =
      if snapshot.contains name then snapshot.entries.lookup name
      else if level.any (·.1 == name) then some ((level.filter (·.1 == name)).map (·.2))
      else none := by
  rw [addLevel, List.lookup_append, lookup_grouped]
  by_cases hidden : snapshot.contains name
  · obtain ⟨found, looked⟩ := Option.isSome_iff_exists.mp (contains_eq_isSome ▸ hidden)
    simp only [hidden, ↓reduceIte, looked, Option.some_or]
  · have visible := Bool.not_eq_true _ ▸ hidden
    have absent : snapshot.entries.lookup name = none := by
      rw [← Option.not_isSome_iff_eq_none, ← contains_eq_isSome]
      exact hidden
    simp only [hidden, Bool.false_eq_true, ↓reduceIte, absent, Option.none_or,
      filter_visible visible, any_visible visible]

theorem any_levelOf (entities : List Entity) :
    (levelOf entities).any (·.1 == name) = entities.any (·.simpleName == name) := by
  rw [levelOf, List.any_map]
  rfl

theorem filter_levelOf (entities : List Entity) :
    ((levelOf entities).filter (·.1 == name)).map (·.2) =
      (entities.filter (·.simpleName == name)).map (·.id) := by
  rw [levelOf, List.filter_map, List.map_map]
  rfl

theorem narrowest_cons_of_any {entities : List Entity} (wider : List (List Entity))
    (named : entities.any (·.simpleName == name)) :
    narrowest name (entities :: wider) = (entities.filter (·.simpleName == name)).map (·.id) := by
  obtain ⟨entity, member, same⟩ := List.any_eq_true.mp named
  have kept : entity ∈ entities.filter (·.simpleName == name) :=
    List.mem_filter.mpr ⟨member, same⟩
  rw [narrowest]
  split
  · rename_i nothing
    rw [nothing] at kept
    cases kept
  · rfl

theorem narrowest_cons_of_not_any {entities : List Entity} (wider : List (List Entity))
    (unnamed : entities.any (·.simpleName == name) = false) :
    narrowest name (entities :: wider) = narrowest name wider := by
  have nothing : entities.filter (·.simpleName == name) = [] :=
    List.filter_eq_nil_iff.mpr (List.any_eq_false.mp unnamed)
  simp only [narrowest, nothing]

/-- Adding levels one by one finds a name in the first of them, unless it was known before. -/
theorem lookup_addLevels (levels : List (List Entity)) :
    ((levels.map levelOf).foldl addLevel snapshot).lookup name =
      if snapshot.contains name then snapshot.lookup name else narrowest name levels := by
  induction levels generalizing snapshot with
  | nil =>
      by_cases known : snapshot.contains name
      · simp [known]
      · rw [contains_eq_isSome, Option.not_isSome_iff_eq_none] at known
        simp [lookup, contains_eq_isSome, known, narrowest]
  | cons entities wider ih =>
      rw [List.map_cons, List.foldl_cons, ih]
      simp only [contains_eq_isSome, lookup, lookup_addLevel, any_levelOf, filter_levelOf]
      by_cases known : (snapshot.entries.lookup name).isSome
      · simp only [known, ↓reduceIte]
      · by_cases named : entities.any (·.simpleName == name)
        · simp only [known, named, Bool.false_eq_true, ↓reduceIte, Option.isSome_some,
            Option.getD_some, narrowest_cons_of_any wider named]
        · simp only [known, named, Bool.false_eq_true, ↓reduceIte, Option.isSome_none,
            narrowest_cons_of_not_any wider (Bool.not_eq_true _ ▸ named)]

/-- The way outwards from an entity goes on at its owner, if it has one. -/
theorem outwardTypes_owner {store : Store} {steps : Nat} {visited : List EntityId}
    (owner : Option EntityId) (each : ∀ id,
      OutwardTypes store visited (some id) (enclosingTypesFrom store steps visited id)) :
    OutwardTypes store visited owner
      (match owner with
        | some id => enclosingTypesFrom store steps visited id
        | none => []) := by
  cases owner with
  | none => exact .outermost
  | some id => exact each id

/-- No entity is visited twice, so the bound on the number of steps never ends the search. -/
theorem outwardTypes_enclosingTypesFrom {store : Store} {steps : Nat} {visited : List EntityId}
    (enough : store.entities.size < steps + visited.length) (distinct : visited.Nodup)
    (known : ∀ id ∈ visited, id < store.entities.size) (id : EntityId) :
    OutwardTypes store visited (some id) (enclosingTypesFrom store steps visited id) := by
  induction steps generalizing visited id with
  | zero =>
      -- no entity is visited twice, so there are no more visits than entities
      have within : visited ⊆ List.range store.entities.size :=
        fun id member => List.mem_range.mpr (known id member)
      have bounded := (distinct.subperm within).length_le
      rw [List.length_range] at bounded
      omega
  | succ steps ih =>
      rw [enclosingTypesFrom]
      by_cases seen : id ∈ visited
      · simp only [List.contains_iff_mem.mpr seen, ↓reduceIte]
        exact .visited seen
      · simp only [List.contains_iff_mem, seen, ↓reduceIte]
        cases found : store.entity? id with
        | none => exact .unknown found
        | some entity =>
            have further : ∀ other ∈ id :: visited, other < store.entities.size := by
              intro other member
              rcases List.mem_cons.mp member with rfl | member
              · exact (Array.getElem?_eq_some_iff.mp found).1
              · exact known other member
            have room : store.entities.size < steps + (id :: visited).length := by
              rw [List.length_cons]
              omega
            have outward := outwardTypes_owner entity.owner
              (ih room (List.nodup_cons.mpr ⟨seen, distinct⟩) further)
            dsimp only
            split
            · rename_i kind
              exact .type seen found kind outward
            · rename_i kind
              exact .method seen found kind outward
            · rename_i type method
              exact .other found type method

theorem outwardTypes_enclosingTypes (store : Store) (type : EntityId) :
    OutwardTypes store [] (some type) (enclosingTypes store type) :=
  outwardTypes_enclosingTypesFrom (by simp) List.nodup_nil (by simp) type

/-- The blocks that a snapshot of a place takes local variables from. -/
def blocksAround (scopes : Scopes) (block : Option BlockId) : List BlockId :=
  match block.bind fun id => (scopes.block? id).map fun block => (id, block) with
  | some (id, _) => scopes.ancestry id
  | none => []

theorem outwardBlocks_blocksAround {scopes : Scopes} (nested : scopes.Nested)
    (block : Option BlockId) : scopes.OutwardBlocks block (blocksAround scopes block) := by
  cases block with
  | none => exact .outermost
  | some id =>
      cases found : scopes.block? id with
      | none =>
          simp only [blocksAround, Option.bind_some, found, Option.map_none]
          exact .unknown found
      | some entered =>
          simp only [blocksAround, Option.bind_some, found, Option.map_some]
          exact nested.outwardBlocks_ancestry found

/-- The levels that a snapshot of a place is built from. -/
theorem capture_eq_levels (store : Store) (scopes : Scopes) (method : EntityId)
    (block : Option BlockId) :
    capture store scopes method block =
      ((levels store scopes method block (blocksAround scopes block) []).map levelOf).foldl
        addLevel ∅ := by
  rw [capture, levels, blocksAround]
  simp only [List.map_append, List.map_map, List.map_cons, List.map_nil, List.append_nil]
  congr 2
  cases block with
  | none => rfl
  | some id =>
      cases found : scopes.block? id with
      | none => simp only [Option.bind_some, found, Option.map_none, List.map_nil]
      | some entered =>
          simp only [Option.bind_some, found, Option.map_some, Option.getD_some]
          rfl

/-- The types around add their fields as further levels. -/
theorem addEnclosingFields_capture (store : Store) (scopes : Scopes) (method : EntityId)
    (block : Option BlockId) (type : EntityId) :
    (capture store scopes method block).addEnclosingFields store type =
      ((levels store scopes method block (blocksAround scopes block)
        (enclosingTypes store type)).map levelOf).foldl addLevel ∅ := by
  rw [addEnclosingFields, capture_eq_levels, ← List.foldl_append, levels, levels]
  simp only [List.map_append, List.map_map, List.map_nil, List.append_nil]
  rfl

theorem contains_empty : (∅ : Snapshot).contains name = false := rfl

theorem unique?_eq_some_iff {id : EntityId} :
    snapshot.unique? name = some id ↔ snapshot.lookup name = [id] := by
  rw [unique?]
  split
  · rename_i only found
    rw [found, Option.some.injEq, List.cons.injEq, and_iff_left rfl]
  · rename_i several
    exact ⟨(nomatch ·), fun found => absurd found (several id)⟩

/-- A name denotes all its variables in the narrowest level that has one, and just one variable if
that level has just one. The levels lead from the block through the blocks around it in the same
method to the parameters, and from the type through the types around it. -/
theorem lookup_is_narrowest_level (store : Store) {scopes : Scopes} (reachable : scopes.Reachable)
    (method : EntityId) (block : Option BlockId) (type : EntityId) :
    ∃ blocks types,
      scopes.OutwardBlocks block blocks ∧
      OutwardTypes store [] (some type) types ∧
      ∀ name,
        let found := narrowest name (levels store scopes method block blocks types)
        let snapshot := (capture store scopes method block).addEnclosingFields store type
        snapshot.lookup name = found ∧
        ∀ id, snapshot.unique? name = some id ↔ found = [id] := by
  refine ⟨blocksAround scopes block, enclosingTypes store type,
    outwardBlocks_blocksAround reachable.nested block, outwardTypes_enclosingTypes store type,
    fun name => ?_⟩
  have looked : ((capture store scopes method block).addEnclosingFields store type).lookup name =
      narrowest name (levels store scopes method block (blocksAround scopes block)
        (enclosingTypes store type)) := by
    rw [addEnclosingFields_capture, lookup_addLevels, contains_empty]
    rfl
  exact ⟨looked, fun id => by rw [unique?_eq_some_iff, looked]⟩

/-- In a block inside of another one, with a variable in the outer block. -/
theorem lookup_is_narrowest_level_in_inner_block :
    let method := { Entity.new 0 .method "T.m()" with members := #[1] }
    let inside := { Entity.new 1 .localVariable "T.m().x" with owner := some 0 }
    let store : Store := { (∅ : Store) with entities := #[method, inside] }
    let scopes := (((((∅ : Scopes).enterMethod 0 "T.m()" 7).2.enterBlock default).2.placeLocal 1 0
      ).enterBlock default).2
    ∃ types, OutwardTypes store [] (some 7) types ∧
      ∀ name, ((capture store scopes 0 (some 1)).addEnclosingFields store 7).lookup name =
        narrowest name (levels store scopes 0 (some 1) [1, 0] types) := by
  intro method inside store scopes
  have reachable : scopes.Reachable :=
    (((Scopes.Reachable.empty.enterMethod 0 "T.m()" 7).enterBlock default).placeLocal 1 0).enterBlock
      default
  obtain ⟨blocks, types, outwardBlocks, outwardTypes, found⟩ :=
    lookup_is_narrowest_level store reachable 0 (some 1) 7
  have inner : scopes.block? 1 = some ⟨default, some 0, 1⟩ := rfl
  have outer : scopes.block? 0 = some ⟨default, none, 0⟩ := rfl
  obtain rfl : blocks = [1, 0] := by
    cases outwardBlocks with
    | unknown missing => rw [inner] at missing; cases missing
    | inside first around =>
        rw [inner] at first
        cases first
        cases around with
        | unknown missing => rw [outer] at missing; cases missing
        | inside second around =>
            rw [outer] at second
            cases second
            cases around
            rfl
  exact ⟨types, outwardTypes, fun name => (found name).1⟩

end JavaFacts.Snapshot
