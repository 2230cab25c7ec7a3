import JavaFacts.Extraction.Types
import JavaFacts.Proofs.Facts.Identities
import Mathlib.Data.List.Nodup

/-!
Names of the types that are declared inside of methods. Such a type bears a number, and a number is taken
if a type of that name is declared at another place. No more numbers are taken than types are declared,
so the search for a free one ends, and the declaration behind it is not refused.
-/

namespace JavaFacts

/-- A search that goes from one number to the next until one is not taken. It starts at the first
number, looks at as many as the second says, and ends at the third. -/
inductive NumberSearch (taken : Nat → Bool) : Nat → Nat → Nat → Prop where
  | free {ordinal : Nat} : taken ordinal = false → NumberSearch taken ordinal 1 ordinal
  | next {ordinal looked chosen : Nat} : taken ordinal = true →
      NumberSearch taken (ordinal + 1) looked chosen → NumberSearch taken ordinal (looked + 1) chosen

namespace NumberSearch

variable {taken : Nat → Bool} {ordinal looked chosen more : Nat}

theorem chosen_eq (search : NumberSearch taken ordinal looked chosen) : ordinal + looked = chosen + 1 := by
  induction search with
  | free => rfl
  | next _ _ ih => omega

theorem not_taken (search : NumberSearch taken ordinal looked chosen) : taken chosen = false := by
  induction search with
  | free idle => exact idle
  | next _ _ ih => exact ih

theorem le_chosen (search : NumberSearch taken ordinal looked chosen) : ordinal ≤ chosen := by
  induction search with
  | free => exact Nat.le_refl _
  | next _ _ ih => exact Nat.le_of_succ_le ih

/-- No number before the one at which the search ends is free. -/
theorem taken_before (search : NumberSearch taken ordinal looked chosen) {smaller : Nat}
    (from_ordinal : ordinal ≤ smaller) (before : smaller < chosen) : taken smaller = true := by
  induction search with
  | free => omega
  | next busy _ ih =>
      rcases Nat.eq_or_lt_of_le from_ordinal with rfl | later
      · exact busy
      · exact ih later before

/-- Where a search ends is settled by what is taken. -/
theorem chosen_unique (search : NumberSearch taken ordinal looked chosen) {number : Nat}
    (from_ordinal : ordinal ≤ number) (idle : taken number = false)
    (busy : ∀ smaller, ordinal ≤ smaller → smaller < number → taken smaller = true) : chosen = number := by
  rcases Nat.lt_trichotomy chosen number with before | same | behind
  · exact absurd (busy chosen search.le_chosen before) (by rw [search.not_taken]; exact Bool.false_ne_true)
  · exact same
  · exact absurd (search.taken_before from_ordinal behind) (by rw [idle]; exact Bool.false_ne_true)

/-- A search ends no later than at a number that is known to be free. -/
theorem exists_of_free (taken : Nat → Bool) (idle : taken (ordinal + more) = false) :
    ∃ looked chosen, looked ≤ more + 1 ∧ NumberSearch taken ordinal looked chosen := by
  induction more generalizing ordinal with
  | zero => exact ⟨1, ordinal, Nat.le_refl _, .free idle⟩
  | succ more ih =>
      cases busy : taken ordinal with
      | false => exact ⟨1, ordinal, by omega, .free busy⟩
      | true =>
          rw [Nat.add_comm more, ← Nat.add_assoc] at idle
          obtain ⟨looked, chosen, few, search⟩ := ih idle
          exact ⟨looked + 1, chosen, Nat.succ_le_succ few, .next busy search⟩

end NumberSearch

/-- Of different things one is missing in a list, and no later than the list is long. -/
theorem exists_notMem_of_injective {α : Type} {numbered : Nat → α} (injective : numbered.Injective)
    (list : List α) : ∃ number ≤ list.length, numbered number ∉ list := by
  by_contra none
  simp only [not_exists, not_and, not_not] at none
  have within : (List.range (list.length + 1)).map numbered ⊆ list := by
    intro member listed
    obtain ⟨number, small, rfl⟩ := List.mem_map.mp listed
    exact none number (Nat.le_of_lt_succ (List.mem_range.mp small))
  have few := (List.nodup_range.map injective).length_le_of_subset within
  rw [List.length_map, List.length_range] at few
  exact Nat.not_succ_le_self _ few

namespace Store

variable {store : Store} {anchor : Anchor} {name : String} {id : EntityId}

/-- Whether a type of that name is declared at a place other than `anchor`. -/
def DeclaredElsewhere (store : Store) (anchor : Anchor) (name : String) : Prop :=
  ∃ id place, store.identity? id = some (.type, name) ∧ store.anchor? id = some place ∧ place ≠ anchor

/-- The types whose place of declaration is known. -/
def declaredTypes (store : Store) : List Entity :=
  (store.ofKind .type).filter (·.anchor.isSome)

theorem length_declaredTypes_le (store : Store) : store.declaredTypes.length ≤ store.entities.size :=
  calc store.declaredTypes.length
    _ ≤ (store.ofKind .type).length := List.length_filter_le _ _
    _ ≤ store.entities.toList.length := List.length_filter_le _ _
    _ = store.entities.size := Array.length_toList

theorem Identified.isTaken_iff (identified : store.Identified) :
    Walk.isTaken store anchor name ↔ store.DeclaredElsewhere anchor name := by
  unfold Walk.isTaken
  constructor
  · intro taken
    cases found : (store.find? .type name).bind store.entity? with
    | none =>
        rw [found] at taken
        cases taken
    | some entity =>
        rw [found] at taken
        obtain ⟨id, known, stored⟩ := Option.bind_eq_some_iff.mp found
        obtain ⟨place, declared, other⟩ := (Option.any_eq_true _ _).mp taken
        refine ⟨id, place, identified.find.mp known, ?_, by simpa using other⟩
        rw [anchor?, stored, Option.bind_some, declared]
  · rintro ⟨id, place, named, declared, other⟩
    obtain ⟨entity, stored, placed⟩ := Option.bind_eq_some_iff.mp declared
    rw [identified.find.mpr named, Option.bind_some, stored]
    dsimp only
    rw [placed]
    simpa using other

theorem DeclaredElsewhere.mem_names (elsewhere : store.DeclaredElsewhere anchor name) :
    name ∈ store.declaredTypes.map (·.name) := by
  obtain ⟨id, place, named, declared, -⟩ := elsewhere
  obtain ⟨entity, stored, placed⟩ := Option.bind_eq_some_iff.mp declared
  rw [identity?, stored, Option.map_some, Option.some.injEq, Prod.mk.injEq] at named
  have listed : entity ∈ store.entities.toList :=
    Array.mem_toList_iff.mpr (Array.mem_of_getElem? stored)
  refine List.mem_map.mpr ⟨entity, List.mem_filter.mpr ⟨List.mem_filter.mpr ⟨listed, ?_⟩, ?_⟩, named.2⟩
  · exact beq_iff_eq.mpr named.1
  · rw [placed]
    rfl

theorem DeclaredElsewhere.extended {later : Store} (elsewhere : store.DeclaredElsewhere anchor name)
    (grown : store.Extends later) : later.DeclaredElsewhere anchor name := by
  obtain ⟨id, place, named, declared, other⟩ := elsewhere
  exact ⟨id, place, grown.identity named, grown.anchor declared, other⟩

theorem extends_intern (store : Store) (kind : EntityKind) (name : String) :
    store.Extends (store.intern kind name).2 := by
  unfold intern
  cases store.find? kind name with
  | some id => exact refl_of Extends store
  | none => exact quiet_added.toExtends

theorem anchor?_intern (store : Store) (kind : EntityKind) (name : String) (id : EntityId) :
    (store.intern kind name).2.anchor? id = store.anchor? id := by
  unfold intern
  cases store.find? kind name with
  | some known => rfl
  | none =>
      have new : (store.added kind name).anchor? id = store.anchor? id := by
        rw [anchor?, anchor?, entity?_added]
        split
        · rename_i same
          rw [same, entity?_size]
          rfl
        · rfl
      exact new

/-- A type that is declared at a place is not declared at another one. -/
theorem Identified.not_declaredElsewhere (identified : store.Identified)
    (named : store.identity? id = some (.type, name)) (placed : store.anchor? id = some anchor) :
    ¬store.DeclaredElsewhere anchor name := by
  rintro ⟨other, place, namesake, declared, different⟩
  obtain rfl := identified.unique named namesake
  exact different (Option.some.inj (declared.symm.trans placed))

/-- Of different names no more are taken than types are declared. -/
theorem Identified.exists_free (identified : store.Identified) (anchor : Anchor) {name : Nat → String}
    (apart : name.Injective) (ordinal : Nat) :
    ∃ more ≤ store.declaredTypes.length, Walk.isTaken store anchor (name (ordinal + more)) = false := by
  have injective : Function.Injective fun more => name (ordinal + more) :=
    fun _ _ same => Nat.add_left_cancel (apart same)
  obtain ⟨more, within, free⟩ :=
    exists_notMem_of_injective injective (store.declaredTypes.map (·.name))
  rw [List.length_map] at within
  exact ⟨more, within, Bool.eq_false_iff.mpr fun taken => free (identified.isTaken_iff.mp taken).mem_names⟩

end Store

namespace Edit

variable {store : Store} {id : EntityId} {anchor : Anchor}

/-- To declare an entity again at the same place changes nothing. -/
theorem perform_declare_again (placed : store.anchor? id = some anchor) :
    (declare id anchor).perform store = (.ok (), store) := by
  obtain ⟨entity, found, declared⟩ := Option.bind_eq_some_iff.mp placed
  simp only [declare, perform_bind, perform_entity found, declared, BEq.rfl, ↓reduceIte, perform_pure]

/-- A declaration is accepted unless the entity is declared at another place. -/
theorem perform_declare (known : (store.entity? id).isSome)
    (free : ∀ place, store.anchor? id = some place → place = anchor) :
    ∃ after, (declare id anchor).perform store = (.ok (), after) ∧ after.anchor? id = some anchor ∧
      after.identity? = store.identity? ∧ store.Extends after := by
  obtain ⟨entity, found⟩ := Option.isSome_iff_exists.mp known
  have anchored : store.anchor? id = entity.anchor := by rw [Store.anchor?, found, Option.bind_some]
  cases declared : entity.anchor with
  | some existing =>
      obtain rfl := free existing (anchored.trans declared)
      have placed := anchored.trans declared
      exact ⟨store, perform_declare_again placed, placed, rfl, refl_of Store.Extends store⟩
  | none =>
      have keeps : ∀ entity', store.entity? id = some entity' →
          entity'.Keeps { entity' with anchor := some anchor } := by
        intro entity' same
        obtain rfl := Option.some.inj (found.symm.trans same)
        exact ⟨rfl, rfl, rfl, fun placed => by rw [declared] at placed; cases placed⟩
      refine ⟨store.change id fun entity => { entity with anchor := some anchor }, ?_, ?_,
        funext (Store.identity?_change keeps), Store.extends_change keeps⟩
      · simp only [declare, perform_bind, perform_entity found, declared]
        exact perform_update found
      · rw [Store.anchor?, Store.entity?_change, if_pos rfl, found]
        rfl

end Edit

namespace Walk

variable {store : Store} {anchor : Anchor} {scopes : Scopes} {package : Option String}
  {header : TypeHeader} {frame : TypeFrame}

/-- The name under a number of a type inside of a method of the type `outer`. -/
def localName (outer : String) (header : TypeHeader) (ordinal : Nat) : String :=
  Naming.withoutTypeParameters outer ++ "$" ++ toString ordinal ++
    (header.name ++ Naming.typeParameterList header.typeParameters)

theorem localName_injective (outer : String) (header : TypeHeader) :
    (localName outer header).Injective := by
  intro one other same
  rw [localName, localName, String.append_left_inj, String.append_right_inj] at same
  exact Text.toString_inj same

/-- A search that does not look at more names than allowed has its end as the free name. -/
theorem freeName_of_search {name : Nat → String} {ordinal looked chosen steps : Nat}
    (search : NumberSearch (fun number => isTaken store anchor (name number)) ordinal looked chosen)
    (enough : looked ≤ steps + 1) : freeName store anchor name steps ordinal = name chosen := by
  induction search generalizing steps with
  | free idle =>
      cases steps with
      | zero => rfl
      | succ steps => rw [freeName, idle, if_neg Bool.false_ne_true]
  | next busy search ih =>
      cases steps with
      | zero =>
          have := search.le_chosen
          have := search.chosen_eq
          omega
      | succ steps =>
          rw [freeName, busy, if_pos rfl]
          exact ih (Nat.le_of_succ_le_succ enough)

theorem exists_type_of_isInMethod (inMethod : scopes.isInMethod) :
    ∃ frame, scopes.type? = some frame := by
  unfold Scopes.isInMethod at inMethod
  unfold Scopes.type?
  split at inMethod
  · rename_i frame _ _ _ types _
    exact ⟨frame, by rw [types, List.head?_cons]⟩
  · cases inMethod

theorem declaredName_of_type (inMethod : scopes.isInMethod) (around : scopes.type? = some frame)
    (unbound : header.binding.bind Naming.bindingName? = none) :
    declaredName store scopes package header anchor =
      freeName store anchor (localName frame.name header) store.entities.size 1 := by
  simp only [declaredName, unbound, around, inMethod, ↓reduceIte]
  rfl

/-- The search for the name of a type inside of a method ends, and at the name that is chosen. -/
theorem exists_search (identified : store.Identified) (anchor : Anchor) (inMethod : scopes.isInMethod)
    (around : scopes.type? = some frame) (package : Option String)
    (unbound : header.binding.bind Naming.bindingName? = none) :
    ∃ looked chosen, looked ≤ store.declaredTypes.length + 1 ∧
      NumberSearch (fun number => isTaken store anchor (localName frame.name header number)) 1 looked
        chosen ∧
      declaredName store scopes package header anchor = localName frame.name header chosen := by
  obtain ⟨more, within, idle⟩ := identified.exists_free anchor (localName_injective frame.name header) 1
  obtain ⟨looked, chosen, few, search⟩ := NumberSearch.exists_of_free
    (fun number => isTaken store anchor (localName frame.name header number)) idle
  have bounded : looked ≤ store.declaredTypes.length + 1 := few.trans (Nat.succ_le_succ within)
  refine ⟨looked, chosen, bounded, search, ?_⟩
  rw [declaredName_of_type inMethod around unbound]
  exact freeName_of_search search (bounded.trans (Nat.succ_le_succ store.length_declaredTypes_le))

/-- The name is chosen again as long as it stays free and the names before it stay taken. -/
theorem declaredName_eq_localName (identified : store.Identified) (inMethod : scopes.isInMethod)
    {outer : String} (around : scopes.type?.map (·.name) = some outer)
    (unbound : header.binding.bind Naming.bindingName? = none) {ordinal : Nat} (positive : 1 ≤ ordinal)
    (free : ¬store.DeclaredElsewhere anchor (localName outer header ordinal))
    (taken : ∀ smaller, 1 ≤ smaller → smaller < ordinal →
      store.DeclaredElsewhere anchor (localName outer header smaller)) :
    declaredName store scopes package header anchor = localName outer header ordinal := by
  obtain ⟨frame, found, rfl⟩ := Option.map_eq_some_iff.mp around
  obtain ⟨looked, chosen, -, search, named⟩ :=
    exists_search identified anchor inMethod found package unbound
  rw [named, search.chosen_unique positive
    (Bool.eq_false_iff.mpr fun busy => free (identified.isTaken_iff.mp busy))
    fun smaller from_one before => identified.isTaken_iff.mpr (taken smaller from_one before)]

/-- A type that is not declared at another place gets its name and its place. -/
theorem exists_declared (identified : store.Identified) {name : String}
    (free : ¬store.DeclaredElsewhere anchor name) :
    ∃ after, after.identity? (store.intern .type name).1 = some (.type, name) ∧
      after.anchor? (store.intern .type name).1 = some anchor ∧ store.Extends after ∧
      (Edit.declare (store.intern .type name).1 anchor).perform (store.intern .type name).2 =
        (.ok (), after) := by
  have named := identified.identity?_intern .type name
  obtain ⟨entity, found, -⟩ := Store.Holds.exists_entity ⟨name, named⟩
  have unplaced : ∀ place, (store.intern .type name).2.anchor? (store.intern .type name).1 = some place →
      place = anchor := by
    intro place placed
    by_contra other
    rw [Store.anchor?_intern] at placed
    obtain ⟨known, stored, -⟩ := Option.bind_eq_some_iff.mp placed
    have before : store.identity? (store.intern .type name).1 = some (known.kind, known.name) := by
      rw [Store.identity?, stored, Option.map_some]
    have same := (store.extends_intern .type name).identity before
    exact free ⟨_, place, before.trans (same.symm.trans named), placed, other⟩
  obtain ⟨after, declared, placed, identities, grown⟩ :=
    Edit.perform_declare (Option.isSome_iff_exists.mpr ⟨entity, found⟩) unplaced
  exact ⟨after, (congrFun identities _).trans named, placed,
    trans_of Store.Extends (store.extends_intern .type name) grown, declared⟩

/-- A type without a usable binding inside of a method, in whatever store was reached. The search for a
number looks at one name more than types are declared, at most. It ends at the smallest number from
1 on under which no type is declared at another place, and the declaration that follows is accepted,
whatever is done next. From then on the same declaration leads to the same name and changes
nothing. -/
theorem local_types_are_numbered {known : Store} {calls : List Call} (reached : known.Reached calls)
    (operations : List Store.Operation) {scopes : Scopes} (inMethod : scopes.isInMethod)
    (package : Option String) {header : TypeHeader}
    (unbound : header.binding.bind Naming.bindingName? = none) (anchor : Anchor) :
    let store := known.afterAll operations
    let name := declaredName store scopes package header anchor
    ∃ frame looked ordinal, scopes.type? = some frame ∧
      looked ≤ store.declaredTypes.length + 1 ∧
      NumberSearch (fun number => isTaken store anchor (localName frame.name header number)) 1 looked
        ordinal ∧
      name = localName frame.name header ordinal ∧ 1 ≤ ordinal ∧
      ¬store.DeclaredElsewhere anchor name ∧
      (∀ smaller, 1 ≤ smaller → smaller < ordinal →
        store.DeclaredElsewhere anchor (localName frame.name header smaller)) ∧
      ∃ id after, after.identity? id = some (.type, name) ∧ after.anchor? id = some anchor ∧
        (∀ {α : Type} (next : EntityId → Edit α),
          (Edit.declareNamed .type name anchor >>= next).perform store = (next id).perform after) ∧
        ∀ later, after.Extends later → later.Identified → ∀ again : Scopes, again.isInMethod →
          again.type?.map (·.name) = some frame.name →
          declaredName later again package header anchor = name ∧
            ∀ {α : Type} (next : EntityId → Edit α),
              (Edit.declareNamed .type name anchor >>= next).perform later =
                (next id).perform later := by
  intro store name
  have identified : store.Identified := reached.sound.1.identified.afterAll operations
  obtain ⟨frame, around⟩ := exists_type_of_isInMethod inMethod
  obtain ⟨looked, ordinal, few, search, chosen⟩ :=
    exists_search identified anchor inMethod around package unbound
  have free : ¬store.DeclaredElsewhere anchor name := by
    rw [← identified.isTaken_iff]
    exact fun busy => Bool.false_ne_true (search.not_taken.symm.trans (chosen ▸ busy))
  have taken smaller (positive : 1 ≤ smaller) (before : smaller < ordinal) :
      store.DeclaredElsewhere anchor (localName frame.name header smaller) :=
    identified.isTaken_iff.mp (search.taken_before positive before)
  obtain ⟨after, named, placed, grown, declared⟩ := exists_declared identified free
  refine ⟨frame, looked, ordinal, around, few, search, chosen, search.le_chosen, free, taken,
    (store.intern .type name).1, after, named, placed, fun next => ?_,
    fun later extended laterIdentified again inside outer => ?_⟩
  · simp only [Edit.declareNamed_bind, Edit.perform_bind, Edit.perform_intern, declared]
  · have namedLater := extended.identity named
    have placedLater := extended.anchor placed
    refine ⟨?_, fun next => ?_⟩
    · refine (declaredName_eq_localName laterIdentified inside outer unbound search.le_chosen ?_
        fun smaller positive before => ?_).trans chosen.symm
      · rw [← chosen]
        exact laterIdentified.not_declaredElsewhere namedLater placedLater
      · exact (taken smaller positive before).extended (trans_of Store.Extends grown extended)
    · simp only [Edit.declareNamed_bind, Edit.perform_bind, Edit.perform_intern,
        Store.intern_of_find (laterIdentified.find.mpr namedLater),
        Edit.perform_declare_again placedLater]

/-- A number is taken by a type of another file; the next one belongs to a type that is not declared
yet. -/
theorem local_types_are_numbered_of_placeholder :
    let other : Anchor := ⟨"A.java", 0, 9⟩
    let store := (∅ : Store).afterAll [.intern .type "A$2L", .intern .type "A$1L", .declare 1 other]
    let scopes : Scopes :=
      { (∅ : Scopes) with types := [⟨2, "A<T>"⟩], methods := [⟨3, "A<T>.m()", 2, none⟩] }
    let header : TypeHeader := ⟨.ofClass, "L", ∅, none, [], none, []⟩
    declaredName store scopes none header ⟨"B.java", 0, 9⟩ = "A$2L" := by
  intro other store scopes header
  have second : ((∅ : Store).added .type "A$2L").find? .type "A$1L" = none := by
    rw [Store.find?_added, Store.find?_empty]
    rfl
  -- two entities, of which the second one is declared
  have built : store = (((∅ : Store).added .type "A$2L").added .type "A$1L").change 1
      fun entity => { entity with anchor := some other } := by
    simp only [store, Store.afterAll, List.foldl_cons, List.foldl_nil, Store.after_intern,
      Store.intern_of_missing (Store.find?_empty _ _), Store.intern_of_missing second]
    rfl
  have named (name : String) (elsewhere : store.DeclaredElsewhere ⟨"B.java", 0, 9⟩ name) :
      name = "A$1L" := by
    obtain ⟨id, place, named, placed, -⟩ := elsewhere
    rw [built] at named placed
    match id with
    | 0 => cases placed
    | 1 => exact (Prod.mk.inj (Option.some.inj named)).2.symm
    | id + 2 => cases named
  have first : store.DeclaredElsewhere ⟨"B.java", 0, 9⟩ "A$1L" := by
    rw [built]
    exact ⟨1, other, rfl, rfl, by decide⟩
  obtain ⟨frame, looked, ordinal, around, -, -, chosen, positive, free, taken, -⟩ :=
    local_types_are_numbered .empty [.intern .type "A$2L", .intern .type "A$1L", .declare 1 other]
      (show scopes.isInMethod by decide) none (show header.binding.bind Naming.bindingName? = none from rfl)
      ⟨"B.java", 0, 9⟩
  obtain rfl : (⟨2, "A<T>"⟩ : TypeFrame) = frame := Option.some.inj around
  have candidates : localName "A<T>" header 1 = "A$1L" ∧ localName "A<T>" header 2 = "A$2L" := by decide
  rw [chosen] at free ⊢
  match ordinal with
  | 1 => exact absurd (candidates.1 ▸ first) free
  | 2 => exact candidates.2
  | ordinal + 3 =>
      have busy := named _ (taken 2 (by omega) (by omega))
      rw [candidates.2] at busy
      exact absurd busy (by decide)

end Walk

end JavaFacts
