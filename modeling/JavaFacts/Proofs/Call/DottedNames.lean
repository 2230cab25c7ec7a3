import JavaFacts.Proofs.Scope.Captured

/-!
What a dotted name denotes when the target of a call is searched. The search cuts the name at its last
dot and asks the snapshot for the whole name first. No key of a snapshot has a dot in it, so all that
the snapshot ever decides is the first segment, and the others are fields on the way from there.
-/

namespace JavaFacts

variable {store : Store} {snapshot : Snapshot} {name : String}

theorem Entity.not_mem_simpleName (entity : Entity) : '.' ∉ entity.simpleName.toList := by
  have cut {text : String} : '.' ∉ (Text.afterLast (· == '.') text).toList :=
    Text.not_mem_afterLast (beq_self_eq_true '.')
  rw [Entity.simpleName, JavaFacts.simpleName.eq_def]
  split
  · exact cut
  · exact Text.not_mem_afterLast (by decide)
  · exact fun member => cut (Text.mem_of_mem_upTo member)
  · exact cut

namespace Snapshot

theorem narrowest_of_dotted (dotted : '.' ∈ name.toList) (levels : List (List Entity)) :
    narrowest name levels = [] := by
  induction levels with
  | nil => rfl
  | cons level wider ih =>
      have unnamed : level.any (·.simpleName == name) = false := by
        simp only [List.any_eq_false, beq_iff_eq]
        rintro entity - rfl
        exact entity.not_mem_simpleName dotted
      rw [narrowest_cons_of_not_any wider unnamed, ih]

/-- A snapshot that was taken at some place of a program and may have got the fields around the caller
since, in the same store or in others. -/
inductive Built : Snapshot → Prop where
  | capture (store : Store) (scopes : Scopes) (method : EntityId) (block : Option BlockId) :
      Built (.capture store scopes method block)
  | addEnclosingFields {snapshot : Snapshot} (store : Store) (type : EntityId) :
      Built snapshot → Built (snapshot.addEnclosingFields store type)

theorem Built.lookup_of_dotted (built : snapshot.Built) (dotted : '.' ∈ name.toList) :
    snapshot.lookup name = [] := by
  induction built with
  | capture store scopes method block => rw [lookup_capture, narrowest_of_dotted dotted]
  | addEnclosingFields store type _ ih =>
      rw [lookup_addEnclosingFields, ih, narrowest_of_dotted dotted, ite_self]

theorem Built.unique?_of_dotted (built : snapshot.Built) (dotted : '.' ∈ name.toList) :
    snapshot.unique? name = none := by
  rw [unique?, built.lookup_of_dotted dotted]

end Snapshot

namespace Call

/-- The field of that name in the declared type of a variable. -/
def fieldOf? (store : Store) (holder : EntityId) (segment : String) : Option EntityId := do
  let type ← (← store.entity? holder).declaredType
  store.find? .field (Naming.fieldName (store.nameOf type) segment)

/-- The variable at the end of the way that starts at a visible variable and goes on from field to
field. It ends at once where a step has no answer. -/
def followed? (visible : Snapshot) (store : Store) (first : String) (rest : List String) :
    Option EntityId :=
  (visible.unique? first).bind (rest.foldlM (fieldOf? store))

theorem followed?_concat (visible : Snapshot) (store : Store) (first last : String)
    (rest : List String) : followed? visible store first (rest ++ [last]) =
      (followed? visible store first rest).bind (fieldOf? store · last) := by
  simp only [followed?, List.foldlM_append, List.foldlM_cons, List.foldlM_nil, bind_pure,
    Option.bind_eq_bind, Option.bind_assoc]

/-- Cut from the right or walked from the left, a name leads to the same variable. -/
theorem variableOf?_reverse (built : snapshot.Built) (store : Store) (first : String)
    (rest : List String) : variableOf? snapshot store (first :: rest).reverse =
      followed? snapshot store first rest := by
  induction rest using List.reverseRecOn with
  | nil => simp [variableOf?, followed?]
  | append_singleton rest last ih =>
      obtain ⟨segment, segments, split⟩ :=
        List.exists_cons_of_ne_nil (List.reverse_ne_nil_iff.mpr (List.cons_ne_nil first rest))
      have dotted : '.' ∈ (Text.joined "." (last :: segment :: segments).reverse).toList :=
        Text.mem_joined rfl (by simp)
      have reversed : (first :: (rest ++ [last])).reverse = last :: segment :: segments := by
        rw [← split]
        simp
      rw [reversed, variableOf?, built.unique?_of_dotted dotted, ← split, ih, followed?_concat]
      rfl

theorem variableOf?_pieces (built : snapshot.Built) (store : Store) {first : String}
    {rest : List String} (plain : ∀ segment ∈ first :: rest, '.' ∉ segment.toList) :
    variableOf? snapshot store (Text.pieces (· == '.') (Text.joined "." (first :: rest))).reverse =
      followed? snapshot store first rest := by
  rw [Text.pieces_joined rfl (List.cons_ne_nil first rest) plain, variableOf?_reverse built]

variable {call : Call} {operand : Operand}

theorem receiverTypeIn_of_name (receiver : call.receiver = .expression operand)
    (untyped : operand.typeName = none) (named : operand.name = some name) :
    call.receiverTypeIn store =
      ((denoted? call.visible store name).bind (·.declaredType)).map store.nameOf := by
  simp only [receiverTypeIn, receiver, untyped, named, Option.bind_some, variableType?]
  cases denoted? call.visible store name with
  | none => rfl
  | some entity => cases declared : entity.declaredType <;> simp [declared]

theorem argumentTypeIn_of_name (untyped : operand.signatureType = none)
    (named : operand.name = some name) :
    call.argumentTypeIn store operand =
      ((denoted? call.visible store name).bind (·.signatureType)).getD Naming.undefined := by
  simp [argumentTypeIn, untyped, named]

/-- When the target of a call is searched, a dotted name denotes the variable that its segments lead to
one by one. It gives a receiver without a type of its own the name of its declared type, if it has one,
and an argument without a type of its own its type in the form of signatures. -/
theorem dotted_names_lead_by_segments (built : call.visible.Built) (store : Store)
    (index : MethodIndex) (first : String) (rest : List String)
    (plain : ∀ segment ∈ first :: rest, '.' ∉ segment.toList) :
    let name := Text.joined "." (first :: rest)
    let resolved := call.resolve store index
    let meant := followed? resolved.visible store first rest
    variableOf? resolved.visible store (Text.pieces (· == '.') name).reverse = meant ∧
      (∀ operand : Operand, call.receiver = .expression operand → operand.typeName = none →
        operand.name = some name →
        resolved.receiverType =
          ((meant.bind store.entity?).bind (·.declaredType)).map store.nameOf) ∧
      ∀ (place : Nat) (operand : Operand), call.arguments[place]? = some operand →
        operand.signatureType = none → operand.name = some name →
        resolved.argumentTypes[place]? =
          some (((meant.bind store.entity?).bind (·.signatureType)).getD Naming.undefined) := by
  intro name resolved meant
  let inside := { call with visible := call.visible.addEnclosingFields store call.callerType }
  have found : variableOf? inside.visible store (Text.pieces (· == '.') name).reverse = meant :=
    variableOf?_pieces (built.addEnclosingFields store call.callerType) store plain
  have entity : denoted? inside.visible store name = meant.bind store.entity? := by
    rw [denoted?, found]
  refine ⟨found, fun operand receiver untyped named => ?receiver,
    fun place operand listed untyped named => ?argument⟩
  case receiver =>
    have type : resolved.receiverType = inside.receiverTypeIn store := rfl
    have same : inside.receiver = .expression operand := receiver
    rw [type, receiverTypeIn_of_name same untyped named, entity]
  case argument =>
    have types : resolved.argumentTypes = call.arguments.map (inside.argumentTypeIn store) := rfl
    rw [types, List.getElem?_map, listed, Option.map_some, argumentTypeIn_of_name untyped named,
      entity]

/-- A parameter and then a field of its type, as receiver and as argument. -/
theorem dotted_names_lead_by_segments_of_parameter :
    let store : Store := { (∅ : Store) with
      entities := #[{ Entity.new 0 .type "T" with members := #[1, 3] },
        { Entity.new 1 .method "T.m(T)" with owner := some 0, members := #[2] },
        { Entity.new 2 .parameter "T.m(T).a" with owner := some 1, declaredType := some 0 },
        { Entity.new 3 .field "T.next" with
          owner := some 0, declaredType := some 0, signatureType := some "T" }],
      ids := (∅ : Std.HashMap (EntityKind × String) EntityId).insert (.field, "T.next") 3 }
    let operand : Operand := ⟨"a.next", none, none, some "a.next"⟩
    let call := Call.captured .method 1 0 "m" (.expression operand) [operand]
      (.capture store ∅ 1 none) default ""
    let resolved := call.resolve store (MethodIndex.ofStore store)
    call.visible.Built ∧ (∀ segment ∈ ["a", "next"], '.' ∉ segment.toList) ∧
      resolved.receiverType = some "T" ∧ resolved.argumentTypes[0]? = some "T" := by
  intro store operand call resolved
  have built : call.visible.Built := .capture store ∅ 1 none
  have plain : ∀ segment ∈ ["a", "next"], '.' ∉ segment.toList := by decide
  obtain ⟨-, receiver, argument⟩ := dotted_names_lead_by_segments built store
    (MethodIndex.ofStore store) "a" ["next"] plain
  have first : resolved.visible.unique? "a" = some 2 := by decide +kernel
  have second : fieldOf? store 2 "next" = some 3 := Std.HashMap.getElem?_insert_self
  have meant : followed? resolved.visible store "a" ["next"] = some 3 := by
    rw [followed?, first, Option.bind_some, List.foldlM_cons, second]
    rfl
  refine ⟨built, plain, (receiver operand rfl rfl rfl).trans ?_,
    (argument 0 operand rfl rfl rfl).trans ?_⟩
  · rw [meant]
    rfl
  · rw [meant]
    rfl

end Call

end JavaFacts
