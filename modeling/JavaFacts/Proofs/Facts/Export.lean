import JavaFacts.Facts.Export
import JavaFacts.Proofs.Document.Render
import JavaFacts.Proofs.Facts.Identities

/-!
What the document of a store tells. It shows types and the ends of associations by names only, and a
name may belong to entities of several kinds; but wherever a name stands in it, only one kind of entity
fits, and no two entities of one kind share a name.
-/

namespace JavaFacts

theorem EntityKind.name_injective : Function.Injective EntityKind.name := by
  intro left right same
  cases left <;> cases right <;> first | rfl | exact absurd same (by decide)

theorem AssociationKind.name_injective : Function.Injective AssociationKind.name := by
  intro left right same
  cases left <;> cases right <;> first | rfl | exact absurd same (by decide)

def Document.member? (key : String) : Document → Option Document
  | record members => members.lookup key
  | _ => none

theorem Anchor.document_injective : Function.Injective Anchor.document := by
  intro left right same
  have member (key : String) := congrArg (Document.member? key) same
  have file := Document.text.inj (Option.some.inj (member "file"))
  have start := Document.number.inj (Option.some.inj (member "start"))
  have stop := Document.number.inj (Option.some.inj (member "end"))
  cases left
  cases right
  exact congr (congr (congrArg Anchor.mk file) start) stop

/-- What a document shows of an entity besides its owner. -/
structure Entity.View where
  id : EntityId
  kind : EntityKind
  name : String
  modifiers : Modifiers
  anchor : Option Anchor
  position : Option Nat
  declaredType : Option EntityId

def Entity.view (entity : Entity) : Entity.View :=
  { entity with }

structure Association.View where
  id : AssociationId
  kind : AssociationKind
  source : EntityId
  target : EntityId
  statement : String

def Association.view (association : Association) : Association.View :=
  { association with }

namespace Store

variable {left right store : Store}

/-- Among stores with the same identities a name stands for one entity of a kind. -/
theorem Sound.eq_of_nameOf (sound : right.Sound) (same : ∀ id, left.identity? id = right.identity? id)
    {kind : EntityKind} {id other : EntityId} (first : left.Holds kind id)
    (second : right.Holds kind other) (named : left.nameOf id = right.nameOf other) : id = other := by
  obtain ⟨name, known⟩ := first
  obtain ⟨name', known'⟩ := second
  rw [nameOf_eq known, nameOf_eq known'] at named
  rw [same, named] at known
  exact sound.unique known known'

theorem lookup_memberIfAny {α : Type} (key other : String) (document : α → Document)
    (value : Option α) :
    (memberIfAny key document value).lookup other =
      if other == key then value.map document else none := by
  cases value with
  | none => exact (ite_self none).symm
  | some value =>
      rw [memberIfAny, Option.map_some, Option.toList_some, List.lookup_cons, List.lookup_nil,
        Option.map_some]
      cases other == key <;> rfl

theorem member?_entityDocument (store : Store) (entity : Entity) :
    let document := store.entityDocument entity
    document.member? "id" = some (.number entity.id) ∧
      document.member? "kind" = some (.text entity.kind.name) ∧
      document.member? "name" = some (.text entity.name) ∧
      document.member? "modifiers" = some (.number entity.modifiers.bits.toNat) ∧
      document.member? "anchor" = entity.anchor.map Anchor.document ∧
      document.member? "position" = entity.position.map .number ∧
      document.member? "type" = entity.declaredType.map fun type => .text (store.nameOf type) := by
  simp [entityDocument, Document.member?, List.lookup_append, lookup_memberIfAny, List.lookup_cons]

/-- What two entities with the same record have in common, the types by name. -/
theorem eq_of_entityDocument {entity other : Entity}
    (same : left.entityDocument entity = right.entityDocument other) :
    { entity.view with declaredType := none } = { other.view with declaredType := none } ∧
      entity.declaredType.map left.nameOf = other.declaredType.map right.nameOf := by
  obtain ⟨id, kind, name, modifiers, anchor, position, type⟩ := member?_entityDocument left entity
  obtain ⟨id', kind', name', modifiers', anchor', position', type'⟩ := member?_entityDocument right other
  rw [same] at id kind name modifiers anchor position type
  refine ⟨?_, ?_⟩
  · have ids := Document.number.inj (Option.some.inj (id.symm.trans id'))
    have kinds := EntityKind.name_injective (Document.text.inj (Option.some.inj (kind.symm.trans kind')))
    have names := Document.text.inj (Option.some.inj (name.symm.trans name'))
    have bits := Document.number.inj (Option.some.inj (modifiers.symm.trans modifiers'))
    have flags : entity.modifiers = other.modifiers := congrArg Modifiers.mk (BitVec.eq_of_toNat_eq bits)
    have anchors := Option.map_injective Anchor.document_injective (anchor.symm.trans anchor')
    have positions := Option.map_injective (fun _ _ => Document.number.inj) (position.symm.trans position')
    simp only [Entity.view, ids, kinds, names, flags, anchors, positions]
  · have text : Function.Injective Document.text := fun _ _ => Document.text.inj
    refine Option.map_injective text ?_
    rw [Option.map_map, Option.map_map]
    exact type.symm.trans type'

theorem eq_of_associationDocument {association other : Association}
    (same : left.associationDocument association = right.associationDocument other) :
    association.id = other.id ∧ association.kind = other.kind ∧
      left.nameOf association.source = right.nameOf other.source ∧
      left.nameOf association.target = right.nameOf other.target ∧
      association.statement = other.statement := by
  have member (key : String) := congrArg (Document.member? key) same
  exact ⟨Document.number.inj (Option.some.inj (member "id")),
    AssociationKind.name_injective (Document.text.inj (Option.some.inj (member "kind"))),
    Document.text.inj (Option.some.inj (member "from")),
    Document.text.inj (Option.some.inj (member "to")),
    Document.text.inj (Option.some.inj (member "statement"))⟩

/-- The documents of a store show exactly what a filter keeps: the entities that it accepts and, if
asked for, the associations with both ends among these, each in the order of creation. -/
def ShowsKept (store : Store) : Prop :=
  ∀ keep withAssociations,
    let kept := store.entities.toList.filter keep
    let between := store.associations.toList.filter fun association =>
      kept.any (·.id == association.source) && kept.any (·.id == association.target)
    store.documentOf keep withAssociations = .record [
      ("associations", .list ((if withAssociations then between else []).map store.associationDocument)),
      ("entities", .list (kept.map store.entityDocument))]

theorem Identified.any_kept (identified : store.Identified) (keep : Entity → Bool) (id : EntityId) :
    (store.entity? id).any keep = (store.entities.toList.filter keep).any (·.id == id) := by
  rw [Bool.eq_iff_iff, Option.any_eq_true, List.any_eq_true]
  constructor
  · rintro ⟨entity, found, kept⟩
    have listed : entity ∈ store.entities.toList := Array.mem_toList_iff.mpr (Array.mem_of_getElem? found)
    exact ⟨entity, List.mem_filter.mpr ⟨listed, kept⟩, beq_iff_eq.mpr (identified.entityId found)⟩
  · rintro ⟨entity, member, numbered⟩
    obtain ⟨listed, kept⟩ := List.mem_filter.mp member
    obtain ⟨place, found⟩ := Array.getElem?_of_mem (Array.mem_toList_iff.mp listed)
    obtain rfl : place = id := (identified.entityId found).symm.trans (beq_iff_eq.mp numbered)
    exact ⟨entity, found, kept⟩

theorem Identified.showsKept (identified : store.Identified) : store.ShowsKept := by
  intro keep withAssociations kept between
  have same : (store.associations.toList.filter fun association =>
      (store.entity? association.source).any keep && (store.entity? association.target).any keep) =
      between :=
    List.filter_congr fun association _ => by rw [identified.any_kept, identified.any_kept]
  rw [documentOf, same]

/-- A document of everything leaves no association out. -/
theorem Sound.document_eq (sound : store.Sound) :
    store.document = .record [
      ("associations", .list (store.associations.toList.map store.associationDocument)),
      ("entities", .list (store.entities.toList.map store.entityDocument))] := by
  have all : (store.associations.toList.filter fun association =>
      (store.entity? association.source).any (fun _ => true) &&
        (store.entity? association.target).any fun _ => true) = store.associations.toList := by
    refine List.filter_eq_self.mpr fun association listed => ?_
    obtain ⟨number, found⟩ := Array.getElem?_of_mem (Array.mem_toList_iff.mp listed)
    have fits := sound.association found
    obtain ⟨source, leaves, -⟩ := fits.source.exists_entity
    obtain ⟨target, arrives, -⟩ := fits.target.exists_entity
    rw [leaves, arrives]
    rfl
  rw [document, documentOf, List.filter_true, if_pos rfl, all]

/-- Elements at the same places of two sequences are alike in the second way if they are alike in the
first one. -/
theorem map_eq_of_map_eq {α β γ : Type} {first second : Array α} {f g : α → β} {h k : α → γ}
    (same : first.toList.map f = second.toList.map g)
    (alike : ∀ (number : Nat) one other, first[number]? = some one → second[number]? = some other →
      f one = g other → h one = k other) : first.map h = second.map k := by
  refine Array.ext_getElem? fun number => ?_
  have here := congrArg (·[number]?) same
  simp only [List.getElem?_map, Array.getElem?_toList] at here
  rw [Array.getElem?_map, Array.getElem?_map]
  cases one : first[number]? <;> cases other : second[number]? <;> rw [one, other] at here
  · rfl
  · cases here
  · cases here
  · exact congrArg some (alike number _ _ one other (Option.some.inj here))

theorem Sound.views_eq (leftSound : left.Sound) (rightSound : right.Sound)
    (same : left.document = right.document) :
    left.entities.map Entity.view = right.entities.map Entity.view ∧
      left.associations.map Association.view = right.associations.map Association.view := by
  rw [leftSound.document_eq, rightSound.document_eq] at same
  have member (key : String) := congrArg (Document.member? key) same
  have associations := Document.list.inj (Option.some.inj (member "associations"))
  have entities := Document.list.inj (Option.some.inj (member "entities"))
  have identities (id : EntityId) : left.identity? id = right.identity? id := by
    have all : left.entities.map (fun entity => (entity.kind, entity.name)) =
        right.entities.map fun entity => (entity.kind, entity.name) := by
      refine map_eq_of_map_eq entities fun _ entity other _ _ same => ?_
      have view := (eq_of_entityDocument same).1
      exact Prod.ext (congrArg Entity.View.kind view) (congrArg Entity.View.name view)
    have here := congrArg (·[id]?) all
    simp only [Array.getElem?_map] at here
    exact here
  refine ⟨map_eq_of_map_eq entities fun _ entity other found foundOther same => ?_,
    map_eq_of_map_eq associations fun _ association other found foundOther same => ?_⟩
  · obtain ⟨view, named⟩ := eq_of_entityDocument same
    have types : entity.declaredType = other.declaredType := by
      have fits := leftSound.entity found
      have fitsOther := rightSound.entity foundOther
      cases typed : entity.declaredType <;> cases typedOther : other.declaredType <;>
        simp only [typed, typedOther, Option.map_none, Option.map_some, reduceCtorEq] at named
      · rfl
      · exact congrArg some (rightSound.eq_of_nameOf identities (fits.declaredType typed)
          (fitsOther.declaredType typedOther) (Option.some.inj named))
    exact congrArg₂ (fun (view : Entity.View) declaredType => { view with declaredType }) view types
  · obtain ⟨id, kind, source, target, statement⟩ := eq_of_associationDocument same
    have fits := leftSound.association found
    have fitsOther := rightSound.association foundOther
    have sources := rightSound.eq_of_nameOf identities (kind ▸ fits.source) fitsOther.source source
    have targets := rightSound.eq_of_nameOf identities (kind ▸ fits.target) fitsOther.target target
    simp only [Association.view, id, kind, sources, targets, statement]

/-- A document tells the entities and associations of a store, as far as it shows them: two stores that
were reached in any way, whose documents are printed alike, have them in common. This asks of the
printing only that it keeps different documents apart, which the written text does. The document of a
store behind any operations, or reached in any way, shows exactly the entities that a filter accepts and
the associations between them. -/
theorem Reached.document_faithful :
    (∀ {left right : Store} {calls others : List Call} {print : Document → String},
      Function.Injective print → left.Reached calls → right.Reached others →
        print left.document = print right.document →
          left.entities.map Entity.view = right.entities.map Entity.view ∧
            left.associations.map Association.view = right.associations.map Association.view) ∧
      Function.Injective Document.render ∧
      (∀ operations, ((∅ : Store).afterAll operations).ShowsKept) ∧
      ∀ {store : Store} {calls : List Call}, store.Reached calls → store.ShowsKept :=
  ⟨fun injective first second same => first.sound.1.views_eq second.sound.1 (injective same),
    Document.render_injective,
    fun operations => (Identified.empty.afterAll operations).showsKept,
    fun reached => reached.sound.1.identified.showsKept⟩

/-- A class with one method, before and after a pass over no calls. -/
theorem Reached.document_faithful_of_class :
    let method : Node := .method ⟨10, 12⟩ { (default : MethodHeader) with name := "m" } none
    let type : Node := .type ⟨0, 24⟩ { (default : TypeHeader) with name := "A" } [method]
    let unit : CompilationUnit := { (default : CompilationUnit) with path := "A.java", types := [type] }
    let left := (unit.extract .standard ∅).store
    let right := (Call.resolveAndLink .standard [] left).2.2
    left.document.render = right.document.render ∧
      left.entities.map Entity.view = right.entities.map Entity.view ∧ left.ShowsKept := by
  intro method type unit left
  have reached : left.Reached _ := .extract unit .standard .empty
  -- what the extraction came to is not looked at
  clear_value left
  intro right
  have text : left.document.render = right.document.render := rfl
  have linked : right.Reached _ := .link .standard [] reached fun _ => (nomatch ·)
  obtain ⟨faithful, injective, -, kept⟩ := Reached.document_faithful
  exact ⟨text, (faithful injective reached linked text).1, kept reached⟩

end Store

end JavaFacts
