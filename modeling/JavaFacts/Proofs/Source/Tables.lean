import JavaFacts.Proofs.Source.Text

/-!
A text of ASCII characters alone against the table that it does not keep. Up to the end of the text both
say the same, and parts of the text are the same everywhere; but the text by itself does not know its end,
and where the table has nothing more it goes on counting.
-/

namespace JavaFacts.SourceText

/-- A text with its table, whatever its characters are. -/
def tabulated (text : String) : SourceText := ⟨text, (byteStarts 0 text.toList).toArray⟩

variable {text : String}

theorem isTable_tabulated (text : String) : IsTable (tabulated text).starts text :=
  isTable_byteStarts text

theorem ofString_eq_tabulated (wide : ¬IsAscii text) : ofString text = tabulated text := by
  rw [ofString, tabulated, if_neg (mt isAscii_iff.mpr wide)]

theorem isEmpty_starts_of_ascii (ascii : IsAscii text) : (ofString text).starts.isEmpty = true := by
  rw [ofString, if_pos (isAscii_iff.mp ascii)]
  rfl

theorem byteOffset?_tabulated (character : Nat) :
    (tabulated text).byteOffset? character =
      if character ≤ text.length then some (startOf text character) else none := by
  rw [byteOffset?, (isTable_tabulated text).isEmpty_eq, if_neg Bool.false_ne_true]
  split
  · rename_i within
    exact (isTable_tabulated text).start character within
  · have size := (isTable_tabulated text).size
    exact Array.getElem?_eq_none (by omega)

theorem byteOffset?_of_ascii (ascii : IsAscii text) (character : Nat) :
    (ofString text).byteOffset? character = some character := by
  rw [byteOffset?, if_pos (isEmpty_starts_of_ascii ascii)]

/-- The table counts no further than to the end, which a byte offset behind it lies behind as well. -/
theorem characterOffset_tabulated_of_ascii (ascii : IsAscii text) (byte : Nat) :
    (tabulated text).characterOffset byte = min byte (text.length + 1) := by
  have parts : Parts (startOf text · < byte) (text.length + 1) (min byte (text.length + 1)) := by
    refine ⟨min_le_right _ _, fun number small => ?_, fun number large inside lower => ?_⟩
    · obtain ⟨before, inside⟩ := lt_min_iff.mp small
      rwa [startOf_ascii ascii (Nat.le_of_lt_succ inside)]
    · rw [startOf_ascii ascii (Nat.le_of_lt_succ inside)] at lower
      omega
  rw [characterOffset, (isTable_tabulated text).isEmpty_eq, if_neg Bool.false_ne_true,
    (isTable_tabulated text).countBelow_eq, parts.count_eq]

theorem characterOffset_of_ascii (ascii : IsAscii text) (byte : Nat) :
    (ofString text).characterOffset byte = byte := by
  rw [characterOffset, if_pos (isEmpty_starts_of_ascii ascii)]

theorem span_eq_tabulated_iff (ascii : IsAscii text) (start stop : Nat) :
    (ofString text).span start stop = (tabulated text).span start stop ↔
      start ≤ text.length + 1 ∧ stop ≤ text.length + 1 := by
  simp only [span, Span.between, characterOffset_of_ascii ascii, characterOffset_tabulated_of_ascii ascii,
    Span.mk.injEq]
  omega

/-- A part of the text that ends behind the end of the text is none in either case. -/
theorem slice?_eq_tabulated (text : String) (span : Span) :
    (ofString text).slice? span = (tabulated text).slice? span := by
  by_cases within : span.stop ≤ text.length
  · have start : span.start ≤ text.length := (Nat.le_add_right _ _).trans within
    rw [slice?, slice?, byteOffset?_of_le start, byteOffset?_of_le within, byteOffset?_tabulated,
      byteOffset?_tabulated, if_pos start, if_pos within]
    rfl
  · rw [slice?_eq, if_neg within, slice?, byteOffset?_tabulated span.stop, if_neg within]
    cases (tabulated text).byteOffset? span.start <;> rfl

/-- How far a text of ASCII characters alone does without its table. -/
theorem agrees_with_table_iff (ascii : IsAscii text) :
    (∀ character, (ofString text).byteOffset? character = (tabulated text).byteOffset? character ↔
        character ≤ text.length) ∧
      (∀ byte, (ofString text).characterOffset byte = (tabulated text).characterOffset byte ↔
        byte ≤ text.length + 1) ∧
      (∀ start stop, (ofString text).span start stop = (tabulated text).span start stop ↔
        start ≤ text.length + 1 ∧ stop ≤ text.length + 1) ∧
      ∀ span, (ofString text).slice? span = (tabulated text).slice? span := by
  refine ⟨fun character => ?_, fun byte => ?_, span_eq_tabulated_iff ascii, slice?_eq_tabulated text⟩
  · rw [byteOffset?_of_ascii ascii, byteOffset?_tabulated]
    split
    · rename_i within
      exact iff_of_true (congrArg some (startOf_ascii ascii within).symm) within
    · rename_i beyond
      exact iff_of_false (Option.some_ne_none _) beyond
  · rw [characterOffset_of_ascii ascii, characterOffset_tabulated_of_ascii ascii, eq_comm, min_eq_left_iff]

theorem agrees_with_table_iff_of_abc :
    IsAscii "abc" ∧ (ofString "abc").byteOffset? 4 = some 4 ∧ (tabulated "abc").byteOffset? 4 = none ∧
      (ofString "abc").characterOffset 5 = 5 ∧ (tabulated "abc").characterOffset 5 = 4 := by
  have ascii : IsAscii "abc" := isAscii_iff.mpr rfl
  have table : (tabulated "abc").byteOffset? 4 = none := (byteOffset?_tabulated 4).trans (by decide)
  exact ⟨ascii, byteOffset?_of_ascii ascii 4, table, characterOffset_of_ascii ascii 5,
    characterOffset_tabulated_of_ascii ascii 5⟩

end JavaFacts.SourceText
