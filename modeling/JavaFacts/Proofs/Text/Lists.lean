import JavaFacts.Proofs.Text.Cut

/-!
Lists of texts with a comma between each two of them. The texts can be told apart again if each comma
in one of them stands inside of brackets.
-/

namespace JavaFacts.Text

/-- How many brackets are open behind the characters; nothing if a comma stands outside of all. -/
def nesting : List Char → Nat → Option Nat
  | [], depth => some depth
  | '<' :: rest, depth => nesting rest (depth + 1)
  | '>' :: rest, depth => nesting rest (depth - 1)
  | ',' :: _, 0 => none
  | _ :: rest, depth => nesting rest depth

theorem nesting_cons {c : Char} {rest : List Char} {depth : Nat} (opening : c ≠ '<')
    (closing : c ≠ '>') (inside : depth = 0 → c ≠ ',') :
    nesting (c :: rest) depth = nesting rest depth := by
  rw [nesting]
  · exact opening
  · exact closing
  · exact inside

theorem nesting_append (front rest : List Char) (depth : Nat) :
    nesting (front ++ rest) depth = (nesting front depth).bind (nesting rest) := by
  fun_induction nesting front depth with
  | case1 depth => rfl
  | case2 front depth ih => exact ih
  | case3 front depth ih => exact ih
  | case4 front => rfl
  | case5 c front depth opening closing inside ih =>
      rw [List.cons_append, nesting_cons opening closing inside]
      exact ih

/-- Characters that are no brackets leave the depth as it is; inside of brackets commas may be among
them. -/
theorem nesting_of_free {text : List Char} {depth : Nat} (opening : '<' ∉ text) (closing : '>' ∉ text)
    (commas : depth = 0 → ',' ∉ text) : nesting text depth = some depth := by
  induction text with
  | nil => rfl
  | cons c text ih =>
      simp only [List.mem_cons, not_or] at opening closing commas
      rw [nesting_cons (Ne.symm opening.1) (Ne.symm closing.1)
        fun outside => Ne.symm (commas outside).1]
      exact ih opening.2 closing.2 fun outside => (commas outside).2

/-- A text that can stand in a list. -/
structure IsItem (text : String) : Prop where
  nonempty : text ≠ ""
  closed : nesting text.toList 0 = some 0

theorem IsItem.append {front rest : String} (item : IsItem front)
    (closed : nesting rest.toList 0 = some 0) : IsItem (front ++ rest) := by
  refine ⟨fun empty => item.nonempty (String.append_eq_empty_iff.mp empty).1, ?_⟩
  rw [String.toList_append, nesting_append, item.closed]
  exact closed

/-- A list in brackets, of texts without brackets. -/
theorem nesting_bracketed {items : List String}
    (opening : ∀ item ∈ items, '<' ∉ item.toList) (closing : ∀ item ∈ items, '>' ∉ item.toList) :
    nesting ("<" ++ joined "," items ++ ">").toList 0 = some 0 := by
  have inside : nesting (joined "," items).toList 1 = some 1 :=
    nesting_of_free (not_mem_joined (by decide) opening) (not_mem_joined (by decide) closing) nofun
  rw [String.toList_append, String.toList_append, List.append_assoc, nesting_append]
  exact (nesting_append _ _ 1).trans (by rw [inside]; rfl)

theorem toList_joined_cons (item : String) (items : List String) :
    (joined "," (item :: items)).toList =
      item.toList ++ if items = [] then [] else ',' :: (joined "," items).toList := by
  cases items with
  | nil => exact (List.append_nil _).symm
  | cons second items =>
      rw [joined, String.toList_append, String.toList_append, List.append_assoc,
        if_neg (List.cons_ne_nil _ _)]
      · rfl
      · exact List.cons_ne_nil _ _

/-- Nothing that is closed goes on with a comma behind something that is closed. -/
theorem eq_of_closed_append {one other rest last : List Char} (first : nesting one 0 = some 0)
    (second : nesting other 0 = some 0) (stops : rest.head?.all (· == ','))
    (later : last.head?.all (· == ',')) (same : one ++ rest = other ++ last) :
    one = other ∧ rest = last := by
  -- whichever of the two is longer would have to go on with a comma
  have apart {short more : List Char} (closed : nesting short 0 = some 0)
      (closedMore : nesting (short ++ more) 0 = some 0) {tail : List Char}
      (stops : (more ++ tail).head?.all (· == ',')) : more = [] := by
    rw [nesting_append, closed, Option.bind_some] at closedMore
    cases more with
    | nil => rfl
    | cons c more =>
        obtain rfl : c = ',' := beq_iff_eq.mp stops
        cases closedMore
  rcases List.append_eq_append_iff.mp same with ⟨more, rfl, rfl⟩ | ⟨more, rfl, rfl⟩
  · obtain rfl := apart first second stops
    exact ⟨(List.append_nil _).symm, List.nil_append _⟩
  · obtain rfl := apart second first later
    exact ⟨List.append_nil _, (List.nil_append _).symm⟩

theorem joined_injective {items others : List String} (closed : ∀ item ∈ items, IsItem item)
    (othersClosed : ∀ item ∈ others, IsItem item) (same : joined "," items = joined "," others) :
    items = others := by
  have filled {item : String} {items : List String} (closed : IsItem item) :
      (joined "," (item :: items)).toList ≠ [] := by
    rw [toList_joined_cons]
    exact fun empty => closed.nonempty (String.toList_eq_nil_iff.mp (List.append_eq_nil_iff.mp empty).1)
  have stops (items : List String) :
      (if items = [] then [] else ',' :: (joined "," items).toList).head?.all (· == ',') := by
    split <;> rfl
  induction items generalizing others with
  | nil =>
      cases others with
      | nil => rfl
      | cons other others =>
          exact absurd (congrArg String.toList same).symm (filled (othersClosed other List.mem_cons_self))
  | cons item items ih =>
      cases others with
      | nil => exact absurd (congrArg String.toList same) (filled (closed item List.mem_cons_self))
      | cons other others =>
          obtain ⟨itemClosed, itemsClosed⟩ := List.forall_mem_cons.mp closed
          obtain ⟨otherClosed, restClosed⟩ := List.forall_mem_cons.mp othersClosed
          have texts := congrArg String.toList same
          rw [toList_joined_cons, toList_joined_cons] at texts
          obtain ⟨first, rest⟩ := eq_of_closed_append itemClosed.closed otherClosed.closed
            (stops items) (stops others) texts
          rw [String.ext first]
          refine congrArg _ ?_
          by_cases last : items = [] <;> by_cases otherLast : others = []
          · rw [last, otherLast]
          · rw [if_pos last, if_neg otherLast] at rest
            cases rest
          · rw [if_neg last, if_pos otherLast] at rest
            cases rest
          · rw [if_neg last, if_neg otherLast] at rest
            exact ih itemsClosed restClosed (String.ext (List.cons.inj rest).2)

end JavaFacts.Text
