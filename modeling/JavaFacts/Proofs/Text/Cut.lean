import JavaFacts.Text.Cut
import Mathlib.Data.List.TakeWhile
import Std.Data.String.ToNat

/-!
What cuts of a text at a character make of texts that are put together.
-/

namespace JavaFacts.Text

variable {c : Char} {front rest text : String}

theorem not_mem_append {one other : String} :
    c ∉ (one ++ other).toList ↔ c ∉ one.toList ∧ c ∉ other.toList := by
  rw [String.toList_append, List.mem_append, not_or]

theorem ne_empty_of_mem (member : c ∈ text.toList) : text ≠ "" := by
  rintro rfl
  cases member

theorem toList_upTo (stop : Char → Bool) (text : String) :
    (upTo stop text).toList = text.toList.takeWhile (!stop ·) :=
  String.toList_ofList

theorem not_mem_upTo : c ∉ (upTo (· == c) text).toList := by
  rw [toList_upTo]
  intro member
  have kept := List.mem_takeWhile_imp member
  rw [beq_self_eq_true] at kept
  cases kept

theorem mem_of_mem_upTo {stop : Char → Bool} (member : c ∈ (upTo stop text).toList) :
    c ∈ text.toList := by
  rw [toList_upTo] at member
  exact (List.takeWhile_sublist _).subset member

theorem upTo_append (free : c ∉ front.toList) :
    upTo (· == c) (front ++ rest) = front ++ upTo (· == c) rest := by
  apply String.ext
  rw [String.toList_append, toList_upTo, toList_upTo, String.toList_append]
  refine List.takeWhile_append_of_pos fun other member => ?_
  rw [Bool.not_eq_true', beq_eq_false_iff_ne]
  exact ne_of_mem_of_not_mem member free

theorem upTo_mark {mark : String} (single : mark.toList = [c]) :
    upTo (· == c) (mark ++ rest) = "" := by
  apply String.ext
  rw [toList_upTo, String.toList_append, single, List.singleton_append,
    List.takeWhile_cons_of_neg (by rw [beq_self_eq_true]; exact Bool.false_ne_true)]
  rfl

theorem afterLast_mark {stop : Char → Bool} {mark : String} (single : mark.toList = [c]) (stops : stop c)
    (free : ∀ other ∈ rest.toList, stop other = false) :
    afterLast stop (front ++ mark ++ rest) = rest := by
  have kept : (front ++ mark ++ rest).toList.reverse.takeWhile (!stop ·) = rest.toList.reverse := by
    rw [String.toList_append, String.toList_append, single, List.reverse_append, List.reverse_append,
      List.reverse_singleton, List.singleton_append, List.takeWhile_append_of_pos,
      List.takeWhile_cons_of_neg (by rw [stops]; exact Bool.false_ne_true), List.append_nil]
    intro other member
    rw [free other (List.mem_reverse.mp member)]
    rfl
  rw [afterLast, kept, List.reverse_reverse, String.ofList_toList]

theorem afterLast_eq_empty_iff {stop : Char → Bool} :
    afterLast stop text = "" ↔ text = "" ∨ endsIn stop text := by
  have empty : text = "" ↔ text.toList.reverse = [] := by
    rw [List.reverse_eq_nil_iff, String.toList_eq_nil_iff]
  rw [afterLast, String.ofList_eq_empty_iff, List.reverse_eq_nil_iff, empty, endsIn,
    List.getLast?_eq_head?_reverse]
  cases text.toList.reverse with
  | nil => simp
  | cons last before => cases stops : stop last <;> simp [stops]

theorem not_mem_afterLast {stop : Char → Bool} (stops : stop c) :
    c ∉ (afterLast stop text).toList := by
  rw [afterLast, String.toList_ofList, List.mem_reverse]
  intro member
  have kept := List.mem_takeWhile_imp member
  rw [stops] at kept
  cases kept

theorem beforeLast?_append (free : c ∉ rest.toList) :
    beforeLast? (· == c) (front ++ rest) = beforeLast? (· == c) front := by
  have dropped : (front ++ rest).toList.reverse.dropWhile (!· == c)
      = front.toList.reverse.dropWhile (!· == c) := by
    rw [String.toList_append, List.reverse_append]
    refine List.dropWhile_append_of_pos fun other member => ?_
    rw [Bool.not_eq_true', beq_eq_false_iff_ne]
    exact ne_of_mem_of_not_mem (List.mem_reverse.mp member) free
  rw [beforeLast?, beforeLast?, dropped]

theorem beforeLast?_eq_none (free : c ∉ text.toList) : beforeLast? (· == c) text = none := by
  have cut : beforeLast? (· == c) ("" ++ text) = beforeLast? (· == c) "" := beforeLast?_append free
  rw [String.empty_append] at cut
  rw [cut]
  rfl

theorem beforeLast?_mark {mark : String} (single : mark.toList = [c]) (free : c ∉ rest.toList) :
    beforeLast? (· == c) (front ++ mark ++ rest) = some front := by
  rw [beforeLast?_append free, beforeLast?, String.toList_append, single, List.reverse_append,
    List.reverse_singleton, List.singleton_append,
    List.dropWhile_cons_of_neg (by rw [beq_self_eq_true]; exact Bool.false_ne_true)]
  exact congrArg some (by rw [List.reverse_reverse, String.ofList_toList])

theorem startsWith_iff {start : String} : startsWith text start ↔ ∃ rest, text = start ++ rest := by
  rw [startsWith, List.isPrefixOf_iff_prefix]
  constructor
  · rintro ⟨rest, same⟩
    exact ⟨String.ofList rest, String.ext (by rw [String.toList_append, String.toList_ofList, same])⟩
  · rintro ⟨rest, rfl⟩
    rw [String.toList_append]
    exact List.prefix_append _ _

theorem piecesOf_eq_singleton {separates : Char → Bool} {text : List Char}
    (whole : ∀ other ∈ text, separates other = false) : piecesOf separates text = [text] := by
  induction text with
  | nil => rfl
  | cons first rest ih =>
      obtain ⟨here, there⟩ := List.forall_mem_cons.mp whole
      simp only [piecesOf, ih there, here, Bool.false_eq_true, ↓reduceIte]

theorem pieces_eq_singleton (free : c ∉ text.toList) : pieces (· == c) text = [text] := by
  have whole : piecesOf (· == c) text.toList = [text.toList] := piecesOf_eq_singleton
    fun other member => beq_eq_false_iff_ne.mpr (ne_of_mem_of_not_mem member free)
  rw [pieces, whole, List.map_singleton, String.ofList_toList]

/-- A mark ends the piece before it. -/
theorem piecesOf_append {separates : Char → Bool} {piece rest : List Char}
    (whole : ∀ other ∈ piece, separates other = false) (marks : separates c) :
    piecesOf separates (piece ++ c :: rest) = piece :: piecesOf separates rest := by
  induction piece with
  | nil =>
      obtain ⟨first, others, split⟩ := List.exists_cons_of_ne_nil (piecesOf_ne_nil separates rest)
      simp [piecesOf, split, marks]
  | cons first piece ih =>
      obtain ⟨here, there⟩ := List.forall_mem_cons.mp whole
      simp [piecesOf, ih there, here]

theorem not_mem_joined {separator : String} (apart : c ∉ separator.toList) {items : List String}
    (free : ∀ item ∈ items, c ∉ item.toList) : c ∉ (joined separator items).toList := by
  induction items with
  | nil => exact List.not_mem_nil
  | cons item items ih =>
      have first := free item List.mem_cons_self
      cases items with
      | nil => exact first
      | cons second items =>
          rw [joined, not_mem_append, not_mem_append]
          exact ⟨⟨first, apart⟩, ih fun other member => free other (List.mem_cons_of_mem _ member)⟩
          exact nofun

/-- The mark stands between any two items. -/
theorem mem_joined {mark : String} (single : mark.toList = [c]) {items : List String}
    (several : 2 ≤ items.length) : c ∈ (joined mark items).toList := by
  cases items with
  | nil => simp at several
  | cons first items =>
      cases items with
      | nil => simp at several
      | cons second items =>
          rw [joined, String.toList_append, String.toList_append, single]
          · simp
          · exact nofun

/-- Pieces without the mark come apart again as they were put together. -/
theorem pieces_joined {mark : String} (single : mark.toList = [c]) {items : List String}
    (nonempty : items ≠ []) (free : ∀ item ∈ items, c ∉ item.toList) :
    pieces (· == c) (joined mark items) = items := by
  induction items with
  | nil => contradiction
  | cons first items ih =>
      obtain ⟨here, there⟩ := List.forall_mem_cons.mp free
      cases items with
      | nil => exact pieces_eq_singleton here
      | cons second items =>
          have rest := ih (List.cons_ne_nil second items) there
          have whole : ∀ other ∈ first.toList, (other == c) = false := fun other member =>
            beq_eq_false_iff_ne.mpr (ne_of_mem_of_not_mem member here)
          have text : (joined mark (first :: second :: items)).toList =
              first.toList ++ c :: (joined mark (second :: items)).toList := by
            rw [joined, String.toList_append, String.toList_append, single]
            · simp
            · exact nofun
          rw [pieces] at rest ⊢
          rw [text, piecesOf_append whole (beq_self_eq_true c), List.map_cons, rest,
            String.ofList_toList]

theorem not_mem_repeated {piece : String} (free : c ∉ piece.toList) (count : Nat) :
    c ∉ (repeated piece count).toList := by
  induction count with
  | zero => exact List.not_mem_nil
  | succ count ih => exact not_mem_append.mpr ⟨free, ih⟩

theorem toString_inj {number other : Nat} (same : toString number = toString other) : number = other := by
  rw [Nat.toString_eq_repr, Nat.toString_eq_repr] at same
  exact Nat.repr_injective same

theorem isDigit_of_mem_toString {number : Nat} (member : c ∈ (toString number).toList) :
    c.isDigit := by
  rw [Nat.toString_eq_repr, Nat.toList_repr] at member
  exact Nat.isDigit_of_mem_toDigits (by decide) (by decide) member

end JavaFacts.Text
