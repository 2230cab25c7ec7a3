import JavaFacts.Proofs.Extraction.Soundness
import JavaFacts.Proofs.Source.Text

/-!
The texts of what an extraction records. Every association and every call kept for later bears a place
of the file and the characters that stand there, or no text where the place lies outside of the file.
-/

namespace JavaFacts

/-- The characters of a text that an anchor covers; none if it goes beyond the end. -/
def Anchor.textIn (anchor : Anchor) (text : String) : String :=
  if anchor.stop ≤ text.length then
    String.ofList ((text.toList.drop anchor.start).take anchor.length)
  else ""

/-- The text that a walk records for a span. -/
def Site.statement (site : Site) (span : Span) : String :=
  if site.recordStatements then (site.source.slice? span).getD "" else ""

/-- A place of the file, with the text that is recorded for it. -/
def Site.Quotes (site : Site) (anchor : Anchor) (statement : String) : Prop :=
  ∃ span, anchor = Anchor.ofSpan site.path span ∧ statement = site.statement span

/-- What was added behind a list has the property. -/
def GrowsBy (good : α → Prop) (before after : List α) : Prop :=
  ∃ added, after = before ++ added ∧ ∀ item ∈ added, good item

namespace GrowsBy

variable {good : α → Prop} {before middle after : List α}

theorem refl (before : List α) : GrowsBy good before before :=
  ⟨[], (List.append_nil before).symm, nofun⟩

theorem one {item : α} (holds : good item) : GrowsBy good before (before ++ [item]) :=
  ⟨[item], rfl, List.forall_mem_singleton.mpr holds⟩

theorem trans (first : GrowsBy good before middle) (second : GrowsBy good middle after) :
    GrowsBy good before after := by
  obtain ⟨added, rfl, here⟩ := first
  obtain ⟨later, rfl, there⟩ := second
  exact ⟨added ++ later, List.append_assoc _ _ _, List.forall_mem_append.mpr ⟨here, there⟩⟩

theorem imp {other : α → Prop} (grows : GrowsBy good before after)
    (implies : ∀ {item}, good item → other item) : GrowsBy other before after := by
  obtain ⟨added, same, holds⟩ := grows
  exact ⟨added, same, fun item member => implies (holds item member)⟩

end GrowsBy

/-- Whatever was recorded in between is quoted from the file. -/
structure Progress.Quoting (site : Site) (before after : Progress) : Prop where
  associations : GrowsBy
    (fun association => ∃ anchor, association.anchor = some anchor ∧
      site.Quotes anchor association.statement)
    before.store.associations.toList after.store.associations.toList
  calls : GrowsBy (fun call => site.Quotes call.anchor call.statement)
    before.calls.toList after.calls.toList

namespace Progress.Quoting

variable {site : Site} {before middle after : Progress}

theorem of_same (associations : after.store.associations = before.store.associations)
    (calls : after.calls = before.calls) : before.Quoting site after where
  associations := associations ▸ .refl _
  calls := calls ▸ .refl _

theorem trans (first : before.Quoting site middle) (second : middle.Quoting site after) :
    before.Quoting site after :=
  ⟨first.associations.trans second.associations, first.calls.trans second.calls⟩

end Progress.Quoting

namespace Walk

/-- Whatever its outcome, all that the action records is quoted from the file. -/
def Quoting (action : Walk α) : Prop :=
  ∀ (site : Site) (before : Progress), before.Quoting site (action.perform site before).2

namespace Quoting

theorem bind {action : Walk α} {next : α → Walk β} (first : Quoting action)
    (rest : ∀ result, Quoting (next result)) : Quoting (action >>= next) := by
  intro site before
  have quoted := first site before
  rw [perform_bind]
  rcases performed : action.perform site before with ⟨fault | result, middle⟩
  · rw [performed] at quoted
    exact quoted
  · rw [performed] at quoted
    exact quoted.trans (rest result site middle)

/-- An action that records neither associations nor calls. -/
theorem silent {action : Walk α}
    (associations : ∀ site before,
      (action.perform site before).2.store.associations = before.store.associations)
    (calls : ∀ site before, (action.perform site before).2.calls = before.calls) : Quoting action :=
  fun site before => .of_same (associations site before) (calls site before)

theorem edit {request : Edit α} (retaining : request.Retaining) : Quoting (Walk.edit request) :=
  silent (fun _ before => by rw [perform_edit]; exact (retaining before.store).associations)
    fun _ _ => by rw [perform_edit]

theorem link (kind : AssociationKind) (source target : EntityId) (span : Span) :
    Quoting (Walk.link kind source target span) := by
  intro site before
  rw [progress_link]
  rcases Edit.addAssociation_cases before.store kind source target (some (Anchor.ofSpan site.path span))
    (if site.recordStatements then (site.source.slice? span).getD "" else "") with
    ⟨error, refused⟩ | known
  · exact .of_same (by rw [refused]) rfl
  · rw [Edit.perform_addAssociation known.1 known.2]
    refine ⟨?_, .refl _⟩
    rw [Store.appended, Array.toList_push]
    exact .one ⟨_, rfl, span, rfl, rfl⟩

theorem keep (span : Span) {caller : EntityId} {call : Anchor → String → Call}
    (waits : ∀ anchor statement, (call anchor statement).Waits caller anchor statement) :
    Quoting (do
      let anchor ← Walk.anchor span
      let statement ← Walk.statement span
      modify fun progress => { progress with calls := progress.calls.push (call anchor statement) }) := by
  intro site before
  let kept := call (Anchor.ofSpan site.path span) (site.statement span)
  have given := waits (Anchor.ofSpan site.path span) (site.statement span)
  have pushed : (before.calls.push kept).toList = before.calls.toList ++ [kept] := Array.toList_push
  exact ⟨.refl _, pushed ▸ .one ⟨span, given.anchor, given.statement⟩⟩

theorem inside {enter : Scopes → κ × Scopes} {leave : κ → Scopes → Scopes} {action : Walk α}
    (within : Quoting action) : Quoting (Walk.inside enter leave action) := by
  intro site before
  rw [perform_inside]
  have quoted := within site { before with scopes := (enter before.scopes).2 }
  exact ⟨quoted.associations, quoted.calls⟩

theorem checkScopes : Quoting Walk.checkScopes := by
  refine .bind (silent (fun _ _ => rfl) fun _ _ => rfl) fun violation => ?_
  cases violation <;> exact silent (fun _ _ => rfl) fun _ _ => rfl

theorem visiting {node : Node} {handle : Walk Unit} (handled : Quoting handle) :
    Quoting (Walk.visiting node handle) := by
  have attempted : Quoting (attempt handle) := fun site before => by
    rw [perform_attempt]
    exact handled site before
  refine .bind checkScopes fun _ => .bind attempted fun outcome => .bind checkScopes fun _ => ?_
  cases outcome with
  | ok => exact silent (fun _ _ => rfl) fun _ _ => rfl
  | error fault =>
      dsimp only
      split
      · exact silent (fun _ _ => rfl) fun _ _ => rfl
      · exact silent (fun _ _ => rfl) fun _ _ => rfl

theorem currentMethod : Quoting Walk.currentMethod := by
  refine .bind (silent (fun _ _ => rfl) fun _ _ => rfl) fun progress => ?_
  cases progress.scopes.method? <;> exact silent (fun _ _ => rfl) fun _ _ => rfl

theorem compositional : Compositional fun _ => @Quoting where
  bind := bind
  pure _ := silent (fun _ _ => rfl) fun _ _ => rfl
  get := silent (fun _ _ => rfl) fun _ _ => rfl
  read := silent (fun _ _ => rfl) fun _ _ => rfl
  fault _ := silent (fun _ _ => rfl) fun _ _ => rfl
  edit := edit
  given retaining _ := bind (edit retaining)
  hosted := bind currentMethod
  link := link
  keep span _ _ _ := keep span
  addType _ := silent (fun _ _ => rfl) fun _ _ => rfl
  addMethod _ := silent (fun _ _ => rfl) fun _ _ => rfl
  modifiedScopes _ := silent (fun _ _ => rfl) fun _ _ => rfl
  changedScopes _ := silent (fun _ _ => rfl) fun _ _ => rfl
  insideType _ _ _ := inside
  insideMethod _ _ _ _ := inside
  insideBlock _ _ := inside
  visiting := visiting

end Quoting

end Walk

namespace CompilationUnit

/-- The walk over a unit starts with the associations that are there, and without calls. -/
theorem walk_quotes (unit : CompilationUnit) (config : Config) (store : Store) :
    ∃ site : Site, site.path = unit.path ∧ site.source = .ofString unit.source ∧
      site.recordStatements = config.recordStatements ∧
      GrowsBy (fun association => ∃ anchor, association.anchor = some anchor ∧
          site.Quotes anchor association.statement)
        store.associations.toList (unit.walk config store).2.store.associations.toList ∧
      ∀ call ∈ (unit.walk config store).2.calls.toList, site.Quotes call.anchor call.statement := by
  have quoting : Walk.Quoting (unit.types.forM Walk.visit) :=
    @Walk.Compositional.visitEach _ Walk.Quoting.compositional [] unit.types
  have kept : (store.intern .package (unit.package.getD Naming.defaultPackage)).2.associations =
      store.associations := (Edit.Retaining.intern _ _ store).associations
  obtain ⟨site, start, path, source, records, associations, calls, walked⟩ :
      ∃ (site : Site) (start : Progress), site.path = unit.path ∧ site.source = .ofString unit.source ∧
        site.recordStatements = config.recordStatements ∧
        start.store.associations = store.associations ∧ start.calls = #[] ∧
        unit.walk config store = (unit.types.forM Walk.visit).perform site start :=
    ⟨_, _, rfl, rfl, rfl, kept, rfl, rfl⟩
  obtain ⟨recorded, added, same, quoted⟩ := quoting site start
  rw [associations] at recorded
  rw [calls, List.nil_append] at same
  rw [walked]
  exact ⟨site, path, source, records, recorded, fun call member => quoted call (same ▸ member)⟩

end CompilationUnit

variable {site : Site} {anchor : Anchor} {statement text : String}

/-- Where texts are recorded, a quoted text is what the anchor covers. -/
theorem Site.Quotes.textIn (quotes : site.Quotes anchor statement) (source : site.source = .ofString text)
    (records : site.recordStatements = true) :
    anchor.file = site.path ∧ statement = anchor.textIn text := by
  obtain ⟨span, rfl, rfl⟩ := quotes
  have length : (Anchor.ofSpan site.path span).length = span.length := Nat.add_sub_cancel_left _ _
  refine ⟨rfl, ?_⟩
  rw [Site.statement, if_pos records, source, SourceText.slice?_eq, Anchor.textIn, length]
  show _ = if span.stop ≤ _ then String.ofList ((text.toList.drop span.start).take _) else _
  split <;> rfl

/-- Characters, bytes and recorded texts agree, whatever characters a text consists of. A span that ends
within the text has its characters, and any other span has none. The bytes of a part of the text have a
span of as many characters as the part has, which has that part again. A byte offset stands for the
number of characters that start before it. And an extraction that records texts gives every association
and every call the characters that its anchor covers, or no text where the anchor goes beyond the end. -/
theorem texts_are_what_anchors_cover (text : String) :
    (∀ span, (SourceText.ofString text).slice? span =
      if span.stop ≤ text.length then
        some (String.ofList ((text.toList.drop span.start).take span.length))
      else none) ∧
    (∀ front middle rest, text = front ++ middle ++ rest →
      let span := (SourceText.ofString text).span front.utf8ByteSize
        (front.utf8ByteSize + middle.utf8ByteSize)
      (SourceText.ofString text).slice? span = some middle ∧ span.length = middle.length) ∧
    (∀ byte ≤ text.utf8ByteSize, (SourceText.ofString text).characterOffset byte =
      Nat.count (startOf text · < byte) text.length) ∧
    ∀ (unit : CompilationUnit) (config : Config) (store : Store),
      unit.source = text → config.recordStatements = true →
      GrowsBy (fun association => ∃ anchor, association.anchor = some anchor ∧
          anchor.file = unit.path ∧ association.statement = anchor.textIn text)
        store.associations.toList (unit.extract config store).store.associations.toList ∧
      ∀ report, (unit.extract config store).result = .ok report → ∀ call ∈ report.deferred,
        call.anchor.file = unit.path ∧ call.statement = call.anchor.textIn text := by
  refine ⟨SourceText.slice?_eq text, ?_, fun byte => SourceText.characterOffset_eq_count, ?_⟩
  · rintro front middle rest rfl
    dsimp only
    rw [SourceText.span_middle]
    exact ⟨SourceText.slice?_middle front middle rest, rfl⟩
  · rintro unit config store rfl records
    obtain ⟨site, path, source, same, recorded, quoted⟩ := unit.walk_quotes config store
    have covers {anchor : Anchor} {statement : String} (quotes : site.Quotes anchor statement) :
        anchor.file = unit.path ∧ statement = anchor.textIn unit.source :=
      path ▸ quotes.textIn source (same.trans records)
    refine ⟨recorded.imp fun ⟨anchor, placed, quotes⟩ => ⟨anchor, placed, covers quotes⟩, ?_⟩
    intro report succeeded call member
    obtain ⟨-, rfl⟩ := CompilationUnit.eq_report_of_extract succeeded
    exact covers (quoted call member)

/-- A class with a superclass, both of whose names take more bytes than characters. -/
theorem texts_are_what_anchors_cover_of_accents :
    let text := "class Á extends É {}"
    let superclass : TypeUse := ⟨⟨16, 1⟩, .simple "É", none⟩
    let type : Node := .type ⟨0, 20⟩ ⟨.ofClass, "Á", ∅, none, [], some superclass, []⟩ []
    let unit : CompilationUnit := ⟨"A.java", text, none, [], [type]⟩
    (SourceText.ofString text).slice? superclass.span = some "É" ∧
      (SourceText.ofString text).slice? ⟨16, 5⟩ = none ∧
      (SourceText.ofString text).slice? ((SourceText.ofString text).span 17 19) = some "É" ∧
      (SourceText.ofString text).characterOffset 7 = 7 ∧
      (∀ association ∈ (unit.extract .standard ∅).store.associations.toList, ∃ anchor,
        association.anchor = some anchor ∧ anchor.file = "A.java" ∧
          association.statement = anchor.textIn text) ∧
      ∀ report, (unit.extract .standard ∅).result = .ok report → ∀ call ∈ report.deferred,
        call.anchor.file = "A.java" ∧ call.statement = call.anchor.textIn text := by
  intro text superclass type unit
  obtain ⟨slices, parts, offsets, extracts⟩ := texts_are_what_anchors_cover text
  obtain ⟨⟨added, same, quoted⟩, calls⟩ := extracts unit .standard ∅ rfl rfl
  have inside := slices superclass.span
  have outside := slices ⟨16, 5⟩
  have part := (parts "class Á extends " "É" " {}" (by decide)).1
  have offset := offsets 7 (by decide)
  refine ⟨?_, ?_, part, ?_, ?_, calls⟩
  · rw [inside]
    decide
  · rw [outside]
    decide
  · rw [offset]
    decide
  · rw [same]
    exact fun association member => quoted association member

end JavaFacts
