import JavaFacts.Proofs.Naming.Packages

/-!
How the names of nested types tell the types apart. The name of a type that is declared inside
another one is the name of that one and a segment behind it; segments of different kinds never look
alike, and a name is made up of one segment at most behind each name that it goes on from.
-/

namespace JavaFacts.Naming

/-- Whether source may declare a type under the simple name without making it look like a name that
is put together: it does not start with a digit and does not hold the mark before segments. -/
structure IsSimple (name : String) : Prop where
  identifier : IsIdentifier name
  unmarked : '$' ∉ name.toList
  undigited : name.toList.head?.any Char.isDigit = false

/-- What the name of a type has behind the name of the type around it, without type parameters. -/
inductive Segment where
  | member (simple : String)
  /-- A type that is declared in code. -/
  | numbered (ordinal : Nat) (simple : String)
  | anonymous (ordinal : Nat)

namespace Segment

def number : Segment → String
  | member _ => ""
  | numbered ordinal _ | anonymous ordinal => toString ordinal

def word : Segment → String
  | member simple | numbered _ simple => simple
  | anonymous _ => "!"

def text (segment : Segment) : String :=
  segment.number ++ segment.word

def IsSpelled : Segment → Prop
  | member simple | numbered _ simple => IsSimple simple
  | anonymous _ => True

variable {segment other : Segment}

theorem undigited_word (spelled : segment.IsSpelled) :
    segment.word.toList.head?.any Char.isDigit = false := by
  cases segment with
  | anonymous =>
      rw [word]
      decide
  | _ => exact spelled.undigited

theorem isDigit_of_mem_number {c : Char} (member : c ∈ segment.number.toList) : c.isDigit := by
  cases segment with
  | member => cases member
  | _ => exact Text.isDigit_of_mem_toString member

theorem text_ne_empty (spelled : segment.IsSpelled) : segment.text ≠ "" := by
  have word : segment.word ≠ "" := by
    cases segment with
    | anonymous =>
        rw [word]
        decide
    | _ => exact spelled.identifier.nonempty
  rw [text]
  exact fun empty => word (String.append_eq_empty_iff.mp empty).2

/-- The number is read off the text. -/
theorem upTo_text (spelled : segment.IsSpelled) :
    Text.upTo (fun c => !c.isDigit) segment.text = segment.number := by
  apply String.ext
  rw [Text.toList_upTo, text, String.toList_append,
    List.takeWhile_append_of_pos fun c member => by rw [isDigit_of_mem_number member]; rfl]
  have undigited := undigited_word spelled
  cases characters : segment.word.toList with
  | nil => rw [List.takeWhile_nil, List.append_nil]
  | cons first rest =>
      rw [characters, List.head?_cons, Option.any_some] at undigited
      rw [List.takeWhile_cons_of_neg (by rw [undigited]; decide), List.append_nil]

theorem toString_ne_empty (number : Nat) : toString number ≠ "" := by
  rw [Nat.toString_eq_repr]
  exact Nat.repr_ne_empty

theorem text_injective (spelled : segment.IsSpelled) (otherSpelled : other.IsSpelled)
    (same : segment.text = other.text) : segment = other := by
  have number : segment.number = other.number := by
    rw [← upTo_text spelled, ← upTo_text otherSpelled, same]
  have word : segment.word = other.word := by
    rw [text, text, number] at same
    exact (String.append_right_inj _).mp same
  have unlike {simple : String} (identifier : IsIdentifier simple) : simple ≠ "!" := by
    rintro rfl
    exact identifier.free (c := '!') rfl (by decide)
  cases segment <;> cases other
  case member.member => exact congrArg member word
  case numbered.numbered => exact congrArg₂ numbered (Text.toString_inj number) word
  case anonymous.anonymous => exact congrArg anonymous (Text.toString_inj number)
  case member.numbered => exact absurd number.symm (toString_ne_empty _)
  case member.anonymous => exact absurd number.symm (toString_ne_empty _)
  case numbered.member => exact absurd number (toString_ne_empty _)
  case anonymous.member => exact absurd number (toString_ne_empty _)
  case numbered.anonymous => exact absurd word (unlike spelled.identifier)
  case anonymous.numbered => exact absurd word.symm (unlike otherSpelled.identifier)

theorem not_mem_text {c : Char} (spelled : segment.IsSpelled)
    (free : ∀ simple, IsSimple simple → c ∉ simple.toList) (other : c.isDigit = false) (plain : c ≠ '!') :
    c ∉ segment.text.toList := by
  rw [text, Text.not_mem_append]
  refine ⟨fun member => ?_, ?_⟩
  · rw [isDigit_of_mem_number member] at other
    cases other
  · cases segment with
    | anonymous => simpa [word] using plain
    | _ => exact free _ spelled

theorem unmarked (spelled : segment.IsSpelled) : '$' ∉ segment.text.toList :=
  not_mem_text spelled (fun _ simple => simple.unmarked) rfl (by decide)

theorem unbracketed (spelled : segment.IsSpelled) : '<' ∉ segment.text.toList :=
  not_mem_text spelled (fun _ simple => simple.identifier.free rfl) rfl (by decide)

end Segment

/-- Whether a name is the name `front`, or goes on behind it with a segment. -/
def GoesOn (front name : String) : Prop :=
  name = front ∨ ∃ rest, name = front ++ "$" ++ rest

namespace GoesOn

variable {front middle name : String}

theorem refl (name : String) : GoesOn name name :=
  .inl rfl

theorem trans (first : GoesOn front middle) (second : GoesOn middle name) : GoesOn front name := by
  rcases first with rfl | ⟨rest, rfl⟩
  · exact second
  · rcases second with rfl | ⟨more, rfl⟩
    · exact .inr ⟨rest, rfl⟩
    · exact .inr ⟨rest ++ "$" ++ more, by simp only [String.append_assoc]⟩

theorem length_le (goesOn : GoesOn front name) : front.length ≤ name.length := by
  rcases goesOn with rfl | ⟨rest, rfl⟩
  · exact Nat.le_refl _
  · rw [String.length_append, String.length_append, Nat.add_assoc]
    exact Nat.le_add_right _ _

/-- Names that one name goes on from are one, where both are the same base and one segment. -/
theorem segment_unique {base segment other : String} (first : GoesOn (base ++ segment) name)
    (second : GoesOn (base ++ other) name) (unmarked : '$' ∉ segment.toList)
    (otherUnmarked : '$' ∉ other.toList) : segment = other := by
  have cut {part : String} (free : '$' ∉ part.toList) (goes : GoesOn (base ++ part) name) :
      ∃ rest, name = base ++ rest ∧ Text.upTo (· == '$') rest = part := by
    rcases goes with rfl | ⟨rest, rfl⟩
    · refine ⟨part, rfl, ?_⟩
      have whole : Text.upTo (· == '$') (part ++ "") = part ++ Text.upTo (· == '$') "" :=
        Text.upTo_append free
      rwa [String.append_empty, show Text.upTo (· == '$') "" = "" from rfl, String.append_empty] at whole
    · refine ⟨part ++ ("$" ++ rest), by simp only [String.append_assoc], ?_⟩
      rw [Text.upTo_append free, Text.upTo_mark rfl, String.append_empty]
  obtain ⟨rest, rfl, here⟩ := cut unmarked first
  obtain ⟨rest', same, there⟩ := cut otherUnmarked second
  rw [← here, ← there, (String.append_right_inj _).mp same]

end GoesOn

end JavaFacts.Naming
