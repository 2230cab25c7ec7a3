import JavaFacts.Proofs.Extraction.Conflicts
import JavaFacts.Proofs.Outline.AnonymousNames
import JavaFacts.Proofs.Outline.TypeNames

/-!
Types of one unit that bear different names. Where the source tells the types of a unit apart, the
extraction gives different names to them, even up to their type parameters, and a declaration of a
type is refused only if another unit has declared a type of that name.
-/

namespace JavaFacts

open Naming (withoutTypeParameters)

/-- Lowered trees have members in types and code in members. -/
theorem Node.Shaped.placed {table : TypeTable} {spelled : String → Prop} {enclosure : Enclosure} {node : Node}
    (shaped : node.Shaped table spelled enclosure) (inType inHost : Bool)
    (fits : match enclosure with
      | .outside => True
      | .body _ => inType = true
      | .code _ => inType = true ∧ inHost = true) : node.Placed inType inHost := by
  induction shaped generalizing inType inHost with
  | type _ _ _ _ ih => exact .type fun node member => ih node member true inHost rfl
  | method _ _ ih =>
      obtain rfl := fits
      exact .member rfl fun node member => ih node (Option.mem_toList.mp member) true true ⟨rfl, rfl⟩
  | fields _ ih =>
      obtain rfl := fits
      exact .member rfl fun node member => ih node member true true ⟨rfl, rfl⟩
  | initializer _ ih =>
      obtain rfl := fits
      exact .member rfl (List.forall_mem_singleton.mpr (ih true true ⟨rfl, rfl⟩))
  | anonymous _ _ _ receiver arguments body =>
      obtain ⟨rfl, rfl⟩ := fits
      refine .code rfl rfl (List.forall_mem_append.mpr ⟨List.forall_mem_append.mpr ⟨?_, ?_⟩, ?_⟩)
      · exact fun node member => receiver node (Option.mem_toList.mp member) true true ⟨rfl, rfl⟩
      · exact fun node member => arguments node member true true ⟨rfl, rfl⟩
      · exact fun node member => body node member true true rfl
  | @code _ node isCode _ _ ih =>
      obtain ⟨rfl, rfl⟩ := fits
      refine .code ?_ ?_ fun child member => ih child member true true ⟨rfl, rfl⟩ <;>
        cases node <;> first | rfl | cases isCode

theorem Naming.anonymousName_injective (type : String) : (anonymousName type).Injective := by
  intro number other same
  rw [anonymousName, anonymousName, String.append_left_inj, String.append_right_inj] at same
  exact Text.toString_inj same

theorem Anchor.ofSpan_injective (file : String) : (ofSpan file).Injective := by
  intro span other same
  obtain ⟨-, start, stop⟩ := Anchor.mk.inj same
  rw [Span.stop, Span.stop, start] at stop
  exact congrArg₂ Span.mk start (Nat.add_left_cancel stop)

/-- Classes that are counted get different names. -/
theorem Counting.eq_of_name {counts after : String → Nat} {labels : List Label}
    (counting : Counting counts labels after) (unbound : ∀ label ∈ labels, label.node.bodyBinding? = none)
    {type : String} {first second : Label} (firstListed : first ∈ labels) (secondListed : second ∈ labels)
    (firstCreated : first.isCreatedIn type) (secondCreated : second.isCreatedIn type)
    (same : first.name = second.name) : first = second := by
  have names := counting.map_name unbound type
  refine List.inj_on_of_nodup_map (f := (·.name)) ?_ (List.mem_filter.mpr ⟨firstListed, firstCreated⟩)
    (List.mem_filter.mpr ⟨secondListed, secondCreated⟩) same
  rw [names]
  exact (List.nodup_range' ..).map (Naming.anonymousName_injective type)

namespace CompilationUnit

variable {unit : CompilationUnit} {config options : Config} {table : TypeTable} {path text : String}
  {tree : Concrete}

/-- What lowering tells of a unit, the types of which the source tells apart. -/
structure Separates (table : TypeTable) (unit : CompilationUnit) : Prop where
  indexed : table.IsIndexed
  package : unit.package = table.package
  shaped : ∀ node ∈ unit.types, node.Shaped table (fun _ => True) .outside
  apart : unit.HasTypesApart

namespace Separates

variable (separates : Separates table unit)
include separates

theorem spot : Spot table unit.types .outside none none unit.types where
  indexed := separates.indexed
  plain name known := separates.apart.package name (separates.package.trans known)
  fits := ⟨rfl, rfl⟩
  keeps := separates.apart.top
  shaped := separates.shaped
  within := List.Subset.refl unit.types
  apart := separates.apart.nodes

/-- The types get different names, as long as no number is given twice for one name. -/
theorem names_apart {steps : List Step} {labels : List Label} {counts after : String → Nat}
    (named : Named (unit.origin config).package (DeclaredBy (unit.origin config) steps) none none unit.types
      labels)
    (counting : Counting counts labels after) (numbered : OnePlaceEach (typesNumberedBy steps)) :
    labels.Pairwise fun first second =>
      withoutTypeParameters first.name ≠ withoutTypeParameters second.name := by
  have package : (unit.origin config).package = table.package := separates.package
  rw [package] at named
  have numbers : NumbersApart (DeclaredBy (unit.origin config) steps) labels := by
    constructor
    · intro outer simple name span other first second
      exact Anchor.ofSpan_injective _ (numbered first.mem_typesNumberedBy second.mem_typesNumberedBy)
    · intro type first second firstListed secondListed firstCreated secondCreated same
      rw [counting.eq_of_name (named.bodyBinding?_eq_none separates.spot) firstListed secondListed
        firstCreated secondCreated same]
  refine named.names_apart separates.spot numbers (List.Subset.refl labels) ?_
  have places := separates.apart.places
  rw [← named.map_node, List.map_map] at places
  exact List.pairwise_map.mp places

theorem lawful (config : Config) : (unit.plan config).Lawful (fun _ _ => True) (fun later result =>
    Passed (unit.origin config) none none unit.types [] .initial later result.2) [] :=
  unit.plan_passes config fun node member => (separates.shaped node member).placed false false trivial

/-- Along the plan of the unit no type is declared at two places, as long as no number is given twice for
one name. -/
theorem onePlaceEach {steps : List Step} {result : Option Unit × Standing}
    (reaches : (unit.plan config).Reaches steps (.done result))
    (given : ∀ step ∈ steps, step.request.Gives step.answer)
    (numbered : OnePlaceEach (typesNumberedBy steps)) : OnePlaceEach (typesDeclaredBy steps) := by
  have passed : Passed (unit.origin config) none none unit.types [] .initial steps result.2 :=
    (separates.lawful config).reached reaches given
  obtain ⟨labels, named, declared, -, counting⟩ := passed.labels
  have apart := separates.names_apart named counting numbered
  have different : (labels.map (·.name)).Nodup :=
    List.pairwise_map.mpr (apart.imp fun other same => other (congrArg withoutTypeParameters same))
  intro name place other first second
  rw [declared] at first second
  obtain ⟨label, listed, same⟩ := List.mem_map.mp first
  obtain ⟨label', listed', same'⟩ := List.mem_map.mp second
  obtain ⟨rfl, rfl⟩ := Prod.mk.inj same
  obtain ⟨names, rfl⟩ := Prod.mk.inj same'
  obtain rfl := List.inj_on_of_nodup_map different listed' listed names
  rfl

/-- A declaration of a type that is refused meets a type that was declared before. -/
theorem declared_before {start : Facts} (listed : start.Listed) {refusal : Refusal}
    (refused : (unit.plan config).run start = .error refusal) {name existing anchor : String}
    (error : refusal.error = .duplicateDeclaration EntityKind.type.name name existing anchor) :
    ∃ place other, start.anchor? (.type, name) = some other ∧
      refusal.error = .redeclared (.type, name) (some other) place := by
  rcases (unit.plan config).run_cases .start with ⟨_, _, _, -, -, ran⟩ |
    ⟨steps, request, next, middle, refusal', reaches, performed, asked, ran⟩
  · cases refused.symm.trans ran
  · obtain rfl := Except.error.inj (refused.symm.trans ran)
    rw [List.nil_append] at performed
    obtain ⟨place, other, owner, flags, rfl, declared, elsewhere, same⟩ :=
      Request.redeclares (performed.listed listed) asked error
    refine ⟨place, other, (performed.mem_typesDeclaredBy declared).resolve_right fun member => ?_, same⟩
    -- the plan is followed to its end, as if the declaration had not been refused
    let step : Step := ⟨.declareType (.given name) place owner flags, name⟩
    have numbered : OnePlaceEach (typesNumberedBy (steps ++ [step])) := by
      rw [typesNumberedBy, List.filterMap_append, List.filterMap_cons_none rfl, List.filterMap_nil,
        List.append_nil]
      exact performed.onePlaceEach_typesNumberedBy
    obtain ⟨more, result, onward, given, numbered⟩ := Plan.exists_reaches_done
      (fun history => OnePlaceEach (typesNumberedBy history)) (next name) numbered
      fun history request apart => request.exists_answer apart
    rw [List.append_assoc] at numbered
    have whole : (unit.plan config).Reaches (steps ++ ([step] ++ more)) (.done result) :=
      reaches.trans (.step onward)
    have apart := separates.onePlaceEach whole (List.forall_mem_append.mpr ⟨performed.gives,
      List.forall_mem_cons.mpr ⟨rfl, given⟩⟩) numbered
    rw [typesDeclaredBy, List.filterMap_append, List.filterMap_append] at apart
    exact elsewhere (apart (List.mem_append_left _ member)
      (List.mem_append_right _ (List.mem_append_left _ List.mem_cons_self)))

/-- The same for an extraction into a store. -/
theorem declaredAt_before {store : Store} (whole : store.Whole) {error : FactError}
    (finished : (unit.walk config store).1 = .error (.facts error)) {name existing anchor : String}
    (conflict : error = .duplicateDeclaration EntityKind.type.name name existing anchor) :
    ∃ place other, store.DeclaredAt .type name other ∧
      error = .redeclared (.type, name) (some other) place := by
  obtain ⟨-, outcome⟩ := unit.walk_follows config whole
  rw [finished] at outcome
  rcases ran : (unit.plan config).run (store.facts.interned unit.home) with refusal | result <;>
    rw [ran] at outcome
  · obtain ⟨-, -, same⟩ := outcome
    obtain rfl := Fault.facts.inj same
    obtain ⟨place, other, before, redeclared⟩ := separates.declared_before
      ((Facts.listed_of_sound whole.toSound).interned unit.home) ran conflict
    rw [Facts.anchor?_interned] at before
    exact ⟨place, other, whole.toSound.declaredAt_of_anchor? before, redeclared⟩
  · exact outcome.elim

end Separates

/-- Where the source tells the types of a unit apart, so do their names. The types of the unit get names
that differ even up to their type parameters, or else the unit declares an entity that is declared at
another place, and then that is no type, unless the type was declared before the unit was extracted. -/
theorem extract_names_types_apart {store : Store} {calls : List Call} (reached : store.Reached calls)
    (lowered : ofConcrete options path text tree = .ok unit) (apart : unit.HasTypesApart)
    (config : Config) :
    let extraction := unit.extract config store
    (∃ report labels, extraction.result = .ok report ∧
      labels.map (·.node) = (unit.types.flatMap Node.nodes).filter (·.makesType) ∧
      List.Forall₂ (fun label type => extraction.store.find? .type label.name = some type) labels
        report.types ∧
      (labels.map fun label : Label => withoutTypeParameters label.name).Nodup) ∨
    ∃ (kind : EntityKind) (name : String) (existing anchor : Anchor),
      (kind = .type → store.DeclaredAt .type name existing) ∧
      extraction.result = .error (.invariant unit.path (FactError.duplicateDeclaration kind.name name
        existing.render anchor.render).message) := by
  obtain ⟨-, package, shaped⟩ := shaped_of_ofConcrete (Spelling.any _) (fun _ _ => trivial) lowered
  have separates : Separates _ unit := ⟨TypeTable.isIndexed_declareAll _, package, shaped, apart⟩
  obtain ⟨whole, -⟩ := reached.facts
  cases finished : (unit.walk config store).1 with
  | ok =>
      obtain ⟨steps, labels, counts, -, performed, named, counting, types⟩ := exists_labels whole
        (fun node member => (shaped node member).placed false false trivial) (extract_of_walk finished)
      have apart := separates.names_apart named counting performed.onePlaceEach_typesNumberedBy
      exact .inl ⟨_, labels, extract_of_walk finished, named.map_node, types,
        List.pairwise_map.mpr apart⟩
  | error fault =>
      refine .inr ?_
      have failed := extract_of_walk_eq_error finished
      obtain ⟨-, -, failures⟩ := walk_of_shaped reached.sound.1 config separates.indexed package shaped
      cases failures fault finished with
      | node missing => exact missing.elim
      | facts arises =>
          cases arises with
          | loop looped => exact looped.elim
          | @conflict id entity existing anchor found declared elsewhere within =>
              by_cases isType : entity.kind = .type
              · obtain ⟨place, other, before, same⟩ :=
                  separates.declaredAt_before whole finished (by rw [isType])
                refine ⟨.type, entity.name, other, place, fun _ => before, ?_⟩
                rw [failed, same]
                rfl
              · exact ⟨entity.kind, entity.name, existing, anchor, (absurd · isType), failed⟩

/-- The file `class A{void f(){class L{class M{}}}void g(){class L{}}}`. -/
theorem extract_names_types_apart_of_local_classes :
    let text := "class A{void f(){class L{class M{}}}void g(){class L{}}}"
    let node (role : Option Role) (kind : ConcreteKind) (start stop : Nat) (children : Forest) :
        Concrete := .node ⟨role, kind, true, false, false, false, start, stop⟩ children
    let name (start : Nat) := node (some .name) .identifier start (start + 1) []
    let type (start stop : Nat) (members : Forest) := node none .classDeclaration start stop
      [name (start + 6), node (some .body) .classBody (start + 7) stop members]
    let method (start stop : Nat) (statements : Forest) := node none .methodDeclaration start stop
      [name (start + 5), node (some .body) .block (start + 8) stop statements]
    let tree := node none .other 0 56 [type 0 56
      [method 8 36 [type 17 35 [type 25 34 []]], method 36 55 [type 45 54 []]]]
    ∃ unit report, ∃ labels : List Label, ofConcrete .standard "A.java" text tree = .ok unit ∧
      unit.HasTypesApart ∧ (unit.extract .standard ∅).result = .ok report ∧ labels.length = 4 ∧
      (labels.map fun label => withoutTypeParameters label.name).Nodup := by
  intro text node name type method tree
  obtain ⟨unit, lowered, place, header, placeF, headerF, blockF, placeL, headerL, placeM, headerM, placeG,
      headerG, blockG, place', header', types, package, names, plain, places, planned⟩ :
      ∃ unit, ofConcrete .standard "A.java" text tree = .ok unit ∧
        ∃ place header placeF headerF blockF placeL headerL placeM headerM placeG headerG blockG place'
          header', unit.types = [.type place header
            [.method placeF headerF (some (.block blockF [.type placeL headerL [.type placeM headerM []]])),
              .method placeG headerG (some (.block blockG [.type place' header' []]))]] ∧
        unit.package = none ∧
        [header, headerL, headerM, header'].map (·.name) = ["A", "L", "M", "L"] ∧
        [header, headerL, headerM, header'].map (·.typeParameters) = [[], [], [], []] ∧
        [place, placeL, placeM, place'].Nodup ∧
        ((unit.plan .standard).run ((∅ : Store).facts.interned unit.home)).isOk := by
    rw [Store.facts_empty]
    refine ⟨_, rfl, _, _, _, _, _, _, _, _, _, _, _, _, _, _, rfl, ?_⟩
    decide +kernel +revert
  have simple {spelled : String} (known : spelled ∈ ["A", "L", "M"]) : Naming.IsSimple spelled := by
    simp only [List.mem_cons, List.not_mem_nil, or_false] at known
    rcases known with rfl | rfl | rfl <;>
      exact ⟨⟨by decide, List.all_eq_true.mp rfl, rfl⟩, by decide, rfl⟩
  simp only [List.map_cons, List.map_nil, List.cons.injEq, and_true] at names plain
  obtain ⟨nameA, nameL, nameM, name'⟩ := names
  obtain ⟨plainA, plainL, plainM, plain'⟩ := plain
  have keeps {body : List Node}
      (members : ∀ ⦃first⦄, first ∈ body → ∀ ⦃second⦄, second ∈ body → ∀ ⦃header other⦄,
        first.header? = some header → second.header? = some other → first = second)
      (plain : ∀ node ∈ body.flatMap Node.nodes, ∀ header, node.header? = some header →
        header.typeParameters = []) : Node.KeepsApart body :=
    .of_plain (fun _ first _ second _ _ known knownToo _ => members first second known knownToo) plain
  have type {place : Span} {header : TypeHeader} {body : List Node} (known : header.name ∈ ["A", "L", "M"])
      (keeps : Node.KeepsApart body) : (Node.type place header body).HasTypesApart :=
    ⟨fun _ same => Option.some.inj same ▸ simple known, fun _ same => Option.some.inj same ▸ keeps⟩
  have apart : unit.HasTypesApart := by
    constructor
    · rw [package]
      intro name known
      cases known
    · rw [types]
      apply keeps <;>
        simp [Node.nodes, Node.nodesOfAll, Node.nodesOfOption, Node.header?, plainA, plainL, plainM, plain']
    · simp only [types, List.flatMap_cons, List.flatMap_nil, Node.nodes, Node.nodesOfAll,
        Node.nodesOfOption, List.append_nil, List.cons_append, List.nil_append, List.forall_mem_cons]
      refine ⟨type (by simp [nameA]) (keeps ?_ ?_), .of_none rfl rfl, .of_none rfl rfl,
        type (by simp [nameL]) (keeps ?_ ?_), type (by simp [nameM]) (keeps ?_ ?_), .of_none rfl rfl,
        .of_none rfl rfl, type (by simp [name']) (keeps ?_ ?_), List.forall_mem_nil _⟩ <;>
        simp [Node.nodes, Node.nodesOfAll, Node.nodesOfOption, Node.header?, plainL, plainM, plain']
    · rw [types]
      exact places
  obtain ⟨report, succeeded⟩ := unit.exists_report .standard .empty planned
  rcases extract_names_types_apart .empty lowered apart .standard with
    ⟨report, labels, reported, nodes, -, different⟩ | ⟨kind, name, existing, anchor, -, failed⟩
  · refine ⟨unit, report, labels, lowered, apart, reported, ?_, different⟩
    have count := congrArg List.length nodes
    rw [List.length_map, types] at count
    exact count
  · cases succeeded.symm.trans failed

end CompilationUnit

end JavaFacts
