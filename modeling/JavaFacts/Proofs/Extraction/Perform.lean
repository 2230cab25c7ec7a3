import JavaFacts.Extraction.Visit

/-!
What an action of the walk, or a request on the store, comes to from a given state. One equation for
each way of putting actions together; later proofs take runs apart with these alone.
-/

namespace JavaFacts

namespace Edit

/-- The result of a request and the store behind it. -/
def perform (request : Edit α) (before : Store) : Except FactError α × Store :=
  request.run before

variable {before : Store}

theorem perform_bind (request : Edit α) (next : α → Edit β) :
    (request >>= next).perform before =
      match request.perform before with
      | (.ok result, middle) => (next result).perform middle
      | (.error error, middle) => (.error error, middle) := by
  have run : (request >>= next).perform before =
      (ExceptT.bindCont next (request.perform before).1).run (request.perform before).2 := rfl
  rw [run]
  rcases request.perform before with ⟨error | result, middle⟩ <;> rfl

theorem perform_pure (result : α) : (pure result : Edit α).perform before = (.ok result, before) :=
  rfl

theorem perform_get : (get : Edit Store).perform before = (.ok before, before) :=
  rfl

theorem perform_modify (change : Store → Store) :
    (modify change : Edit Unit).perform before = (.ok (), change before) :=
  rfl

theorem perform_intern (kind : EntityKind) (name : String) :
    (intern kind name).perform before =
      (.ok (before.intern kind name).1, (before.intern kind name).2) :=
  rfl

theorem declareNamed_bind (kind : EntityKind) (name : String) (anchor : Anchor)
    (next : EntityId → Edit α) :
    declareNamed kind name anchor >>= next = (do
      let id ← intern kind name
      declare id anchor
      next id) := by
  simp only [declareNamed, bind_assoc, pure_bind]

end Edit

namespace Walk

/-- The result of an action and the state behind it. -/
def perform (action : Walk α) (site : Site) (before : Progress) : Except Fault α × Progress :=
  (action.run site).run before

variable {site : Site} {before : Progress}

theorem perform_bind (action : Walk α) (next : α → Walk β) :
    (action >>= next).perform site before =
      match action.perform site before with
      | (.ok result, middle) => (next result).perform site middle
      | (.error fault, middle) => (.error fault, middle) := by
  have run : (action >>= next).perform site before =
      (ExceptT.bindCont (fun result => (next result).run site) (action.perform site before).1).run
        (action.perform site before).2 := rfl
  rw [run]
  rcases action.perform site before with ⟨fault | result, middle⟩ <;> rfl

theorem perform_map (action : Walk α) (change : α → β) :
    (change <$> action).perform site before =
      ((action.perform site before).1.map change, (action.perform site before).2) := by
  simp only [perform, ReaderT.run_map, ExceptT.run_map]
  rfl

theorem perform_pure (result : α) :
    (pure result : Walk α).perform site before = (.ok result, before) :=
  rfl

theorem perform_throw (fault : Fault) :
    (throw fault : Walk α).perform site before = (.error fault, before) :=
  rfl

theorem perform_get : (get : Walk Progress).perform site before = (.ok before, before) :=
  rfl

theorem perform_read : (read : Walk Site).perform site before = (.ok site, before) :=
  rfl

theorem perform_modify (change : Progress → Progress) :
    (modify change : Walk Unit).perform site before = (.ok (), change before) :=
  rfl

theorem perform_modifyScopes (change : Scopes → Scopes) :
    (modifyScopes change).perform site before =
      (.ok (), { before with scopes := change before.scopes }) :=
  rfl

theorem perform_modifyGetScopes (change : Scopes → α × Scopes) :
    (modifyGetScopes change).perform site before =
      (.ok (change before.scopes).1, { before with scopes := (change before.scopes).2 }) :=
  rfl

theorem perform_tryCatch (action : Walk α) (handler : Fault → Walk α) :
    (tryCatch action handler).perform site before =
      match action.perform site before with
      | (.ok result, middle) => (.ok result, middle)
      | (.error fault, middle) => (handler fault).perform site middle := by
  show (ExceptT.tryCatch (action site) fun fault => handler fault site) before =
    match action site before with
    | (.ok result, middle) => (.ok result, middle)
    | (.error fault, middle) => handler fault site middle
  simp only [ExceptT.tryCatch, ExceptT.mk, bind, StateT.bind]
  rcases action site before with ⟨fault | result, middle⟩ <;> rfl

theorem perform_attempt (action : Walk α) :
    (attempt action).perform site before =
      (.ok (action.perform site before).1, (action.perform site before).2) := by
  simp only [attempt, perform_tryCatch, perform_map]
  rcases action.perform site before with ⟨fault | result, after⟩ <;> rfl

theorem perform_edit (request : Edit α) :
    (edit request).perform site before =
      ((request.perform before.store).1.mapError .facts,
        { before with store := (request.perform before.store).2 }) := by
  show edit request site before = _
  simp only [edit, Edit.perform]
  rcases request.run before.store with ⟨error | result, after⟩ <;> rfl

theorem progress_link (kind : AssociationKind) (source target : EntityId) (span : Span) :
    ((link kind source target span).perform site before).2 =
      { before with
        store := ((Edit.addAssociation kind source target (some (Anchor.ofSpan site.path span))
          (if site.recordStatements then (site.source.slice? span).getD "" else "")).perform
            before.store).2 } := by
  let request := Edit.addAssociation kind source target (some (Anchor.ofSpan site.path span))
    (if site.recordStatements then (site.source.slice? span).getD "" else "")
  have linked : (link kind source target span).perform site before =
      (edit request >>= fun _ => pure ()).perform site before := rfl
  rw [linked, perform_bind, perform_edit]
  cases (request.perform before.store).1 <;> rfl

theorem perform_inside (enter : Scopes → κ × Scopes) (leave : κ → Scopes → Scopes)
    (action : Walk α) :
    (inside enter leave action).perform site before =
      ((action.perform site { before with scopes := (enter before.scopes).2 }).1,
        let after := (action.perform site { before with scopes := (enter before.scopes).2 }).2
        { after with scopes := leave (enter before.scopes).1 after.scopes }) := by
  simp only [inside, perform_bind, perform_modifyGetScopes, perform_attempt, perform_modifyScopes]
  rcases action.perform site { before with scopes := (enter before.scopes).2 } with
    ⟨fault | result, after⟩ <;> rfl

theorem perform_checkScopes (clear : before.scopes.violation = none) :
    checkScopes.perform site before = (.ok (), before) := by
  have same : before.scopes.takeViolation = (none, before.scopes) := by
    rw [Scopes.takeViolation, clear, ← clear]
  simp only [checkScopes, perform_bind, perform_modifyGetScopes, same, perform_pure]

/-- As long as no violation is pending, a visit is the handling of the node with its faults sorted
into those that end the walk and those that cost the node. -/
theorem perform_visiting {node : Node} {handle : Walk Unit}
    (clear : before.scopes.violation = none)
    (stillClear : (handle.perform site before).2.scopes.violation = none) :
    (visiting node handle).perform site before =
      match handle.perform site before with
      | (.ok (), after) => (.ok (), after)
      | (.error fault, after) =>
          if fault.isFatal then (.error fault, after) else (skip node fault).perform site after := by
  simp only [visiting, perform_bind, perform_checkScopes clear, perform_attempt,
    perform_checkScopes stillClear]
  rcases handle.perform site before with ⟨fault | ⟨⟩, after⟩
  · by_cases fatal : fault.isFatal
    · simp only [fatal, ↓reduceIte, perform_throw]
    · simp only [fatal, Bool.false_eq_true, ↓reduceIte]
  · rfl

end Walk

end JavaFacts
