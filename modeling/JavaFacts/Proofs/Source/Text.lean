import JavaFacts.Source.Text
import Mathlib.Data.Nat.Count

/-!
Both units that address a source text, with and without a table. The character of a number starts
behind the UTF-8 forms of those before it, and whatever is said in one unit comes out the same in the
other.
-/

namespace JavaFacts

/-- Number of bytes of the UTF-8 form of some characters. -/
def utf8Size (characters : List Char) : Nat :=
  (String.ofList characters).utf8ByteSize

section Sizes

variable {characters others : List Char}

theorem utf8Size_append : utf8Size (characters ++ others) = utf8Size characters + utf8Size others := by
  rw [utf8Size, String.ofList_append, String.utf8ByteSize_append]
  rfl

theorem utf8Size_cons (first : Char) : utf8Size (first :: others) = first.utf8Size + utf8Size others := by
  rw [← List.singleton_append, utf8Size_append, utf8Size, ← String.singleton_eq_ofList,
    String.utf8ByteSize_singleton]

theorem utf8Size_toList (text : String) : utf8Size text.toList = text.utf8ByteSize := by
  rw [utf8Size, String.ofList_toList]

theorem length_le_utf8Size : characters.length ≤ utf8Size characters := by
  induction characters with
  | nil => exact Nat.zero_le _
  | cons first others ih =>
      have positive := first.utf8Size_pos
      rw [utf8Size_cons, List.length_cons]
      omega

theorem utf8Size_of_ascii (ascii : ∀ c ∈ characters, c.toNat < 128) :
    utf8Size characters = characters.length := by
  induction characters with
  | nil => rfl
  | cons first others ih =>
      obtain ⟨small, rest⟩ := List.forall_mem_cons.mp ascii
      have single : first.utf8Size = 1 :=
        Char.utf8Size_eq_one_iff.mpr (UInt32.le_iff_toNat_le.mpr (Nat.le_of_lt_succ small))
      rw [utf8Size_cons, single, ih rest, List.length_cons, Nat.add_comm]

end Sizes

/-- The byte at which the character of that number starts. -/
def startOf (text : String) (character : Nat) : Nat :=
  utf8Size (text.toList.take character)

variable {text front middle rest : String}

theorem startOf_length : startOf text text.length = text.utf8ByteSize := by
  rw [startOf, ← String.length_toList, List.take_length, utf8Size_toList]

theorem startOf_add (character more : Nat) :
    startOf text (character + more) =
      startOf text character + utf8Size ((text.toList.drop character).take more) := by
  rw [startOf, List.take_add, utf8Size_append, startOf]

theorem startOf_lt {earlier later : Nat} (before : earlier < later) (within : later ≤ text.length) :
    startOf text earlier < startOf text later := by
  obtain ⟨more, rfl⟩ := Nat.exists_eq_add_of_lt before
  have between : ((text.toList.drop earlier).take (more + 1)).length = more + 1 := by
    rw [List.length_take, List.length_drop, String.length_toList]
    omega
  have taken := @length_le_utf8Size ((text.toList.drop earlier).take (more + 1))
  rw [Nat.add_assoc, startOf_add]
  omega

theorem startOf_le {earlier later : Nat} (ordered : earlier ≤ later) :
    startOf text earlier ≤ startOf text later := by
  obtain ⟨more, rfl⟩ := Nat.exists_eq_add_of_le ordered
  rw [startOf_add]
  exact Nat.le_add_right _ _

theorem startOf_append : startOf (front ++ rest) front.length = front.utf8ByteSize := by
  rw [startOf, String.toList_append, ← String.length_toList, List.take_left, utf8Size_toList]

variable (front middle rest)

theorem startOf_front : startOf (front ++ middle ++ rest) front.length = front.utf8ByteSize := by
  rw [String.append_assoc, startOf_append]

theorem startOf_middle : startOf (front ++ middle ++ rest) (front.length + middle.length) =
    front.utf8ByteSize + middle.utf8ByteSize := by
  rw [← String.length_append, startOf_append, String.utf8ByteSize_append]

theorem length_middle_le : front.length + middle.length ≤ (front ++ middle ++ rest).length := by
  rw [String.length_append, String.length_append]
  exact Nat.le_add_right _ _

/-- A number up to which all numbers satisfy a condition, and from which on none below `size` does. -/
structure Parts (low : Nat → Prop) (size border : Nat) : Prop where
  within : border ≤ size
  below : ∀ number < border, low number
  above : ∀ number, border ≤ number → number < size → ¬low number

theorem Parts.count_eq {low : Nat → Prop} [DecidablePred low] {size border : Nat}
    (parts : Parts low size border) : Nat.count low size = border := by
  obtain ⟨more, rfl⟩ := Nat.exists_eq_add_of_le parts.within
  have all : Nat.count low border = border := Nat.count_iff_forall.mpr fun {number} => parts.below number
  have none : Nat.count (fun number => low (border + number)) more = 0 :=
    Nat.count_iff_forall_not.mpr fun {number} small =>
      parts.above _ (Nat.le_add_right _ _) (Nat.add_lt_add_left small _)
  rw [Nat.count_add, all, none, Nat.add_zero]

/-- Halving keeps what is known about the numbers outside of the two bounds. -/
theorem parts_countBelow {sorted : Array Nat} {bound low high : Nat} {below : Nat → Prop}
    (closed : ∀ {earlier later}, earlier ≤ later → below later → below earlier)
    (known : ∀ number < sorted.size, ∃ value, sorted[number]? = some value ∧
      (value < bound ↔ below number))
    (ordered : low ≤ high) (within : high ≤ sorted.size) (left : ∀ number < low, below number)
    (right : ∀ number, high ≤ number → number < sorted.size → ¬below number) :
    Parts below sorted.size (countBelow sorted bound low high) := by
  fun_induction countBelow sorted bound low high with
  | case1 low high more middle value found less ih =>
      have inside : middle < high := by omega
      obtain ⟨_, same, iff⟩ := known middle (by omega)
      obtain rfl := Option.some.inj (found.symm.trans same)
      refine ih inside within (fun number small => ?_) right
      exact closed (Nat.le_of_lt_succ small) (iff.mp less)
  | case2 low high more middle value found less ih =>
      obtain ⟨_, same, iff⟩ := known middle (by omega)
      obtain rfl := Option.some.inj (found.symm.trans same)
      refine ih (by omega) (by omega) left fun number large _ lower => ?_
      exact less (iff.mpr (closed large lower))
  | case3 low high more middle missing ih =>
      obtain ⟨_, same, _⟩ := known middle (by omega)
      rw [missing] at same
      cases same
  | case4 low high done => exact ⟨ordered.trans within, left, fun number large => right number (by omega)⟩

theorem length_byteStarts (offset : Nat) (characters : List Char) :
    (byteStarts offset characters).length = characters.length + 1 := by
  induction characters generalizing offset with
  | nil => rfl
  | cons first others ih => rw [byteStarts, List.length_cons, List.length_cons, ih]

theorem getElem?_byteStarts (offset : Nat) (characters : List Char) {character : Nat}
    (within : character ≤ characters.length) :
    (byteStarts offset characters)[character]? = some (offset + utf8Size (characters.take character)) := by
  induction characters generalizing offset character with
  | nil =>
      obtain rfl := Nat.le_zero.mp within
      rfl
  | cons first others ih =>
      cases character with
      | zero => rfl
      | succ character =>
          rw [byteStarts, List.getElem?_cons_succ, ih _ (Nat.le_of_succ_le_succ within),
            List.take_succ_cons, utf8Size_cons, Nat.add_assoc]

/-- The table of a text holds the start of every character, and the end. -/
structure IsTable (starts : Array Nat) (text : String) : Prop where
  size : starts.size = text.length + 1
  start : ∀ character ≤ text.length, starts[character]? = some (startOf text character)

theorem isTable_byteStarts (text : String) : IsTable (byteStarts 0 text.toList).toArray text where
  size := by rw [List.size_toArray, length_byteStarts, String.length_toList]
  start character within := by
    rw [List.getElem?_toArray, getElem?_byteStarts 0 _ (String.length_toList ▸ within), Nat.zero_add,
      startOf]

namespace IsTable

variable {starts : Array Nat} {text : String}

theorem isEmpty_eq (table : IsTable starts text) : starts.isEmpty = false := by
  rw [Array.isEmpty_eq_false_iff, ← Array.size_pos_iff, table.size]
  exact Nat.succ_pos _

/-- The search counts the starts below a byte offset, the end included. -/
theorem countBelow_eq (table : IsTable starts text) (byte : Nat) :
    countBelow starts byte 0 starts.size = Nat.count (startOf text · < byte) (text.length + 1) := by
  have parts : Parts (startOf text · < byte) starts.size (countBelow starts byte 0 starts.size) := by
    have size := table.size
    refine parts_countBelow (fun ordered lower => (startOf_le ordered).trans_lt lower)
      (fun number small => ⟨_, table.start number (by omega), Iff.rfl⟩) (Nat.zero_le _) (Nat.le_refl _)
      nofun ?_
    omega
  rw [← parts.count_eq, table.size]

end IsTable

namespace SourceText

/-- A text of ASCII characters alone, in which a byte is a character. -/
def IsAscii (text : String) : Prop :=
  ∀ c ∈ text.toList, c.toNat < 128

theorem isAscii_iff {text : String} : IsAscii text ↔ text.toList.all (·.toNat < 128) = true := by
  simp only [IsAscii, List.all_eq_true, decide_eq_true_eq]

theorem starts_ofString (text : String) :
    (ofString text).starts.isEmpty ∧ IsAscii text ∨ IsTable (ofString text).starts text := by
  by_cases ascii : text.toList.all (·.toNat < 128)
  · have none : (ofString text).starts = #[] := if_pos ascii
    exact .inl ⟨by rw [none]; rfl, isAscii_iff.mpr ascii⟩
  · have table : (ofString text).starts = (byteStarts 0 text.toList).toArray := if_neg ascii
    exact .inr (table ▸ isTable_byteStarts text)

theorem startOf_ascii {text : String} (ascii : IsAscii text) {character : Nat}
    (within : character ≤ text.length) : startOf text character = character := by
  rw [startOf, utf8Size_of_ascii fun c member => ascii c (List.mem_of_mem_take member), List.length_take,
    String.length_toList, Nat.min_eq_left within]

theorem byteOffset?_of_le {text : String} {character : Nat} (within : character ≤ text.length) :
    (ofString text).byteOffset? character = some (startOf text character) := by
  rw [byteOffset?]
  rcases starts_ofString text with ⟨empty, ascii⟩ | table
  · rw [if_pos empty, startOf_ascii ascii within]
  · rw [table.isEmpty_eq, if_neg Bool.false_ne_true, table.start character within]

/-- Behind the end there is no byte of the text. -/
theorem byteOffset?_of_lt {text : String} {character byte : Nat} (beyond : text.length < character)
    (found : (ofString text).byteOffset? character = some byte) : text.utf8ByteSize < byte := by
  rw [byteOffset?] at found
  rcases starts_ofString text with ⟨empty, ascii⟩ | table
  · rw [if_pos empty] at found
    obtain rfl := Option.some.inj found
    rwa [← startOf_length, startOf_ascii ascii (Nat.le_refl _)]
  · have size := table.size
    rw [table.isEmpty_eq, if_neg Bool.false_ne_true, Array.getElem?_eq_none (by omega)] at found
    cases found

/-- Up to the end of the text a byte offset stands for the number of characters that start before
it. -/
theorem characterOffset_eq_count {text : String} {byte : Nat} (within : byte ≤ text.utf8ByteSize) :
    (ofString text).characterOffset byte = Nat.count (startOf text · < byte) text.length := by
  rw [characterOffset]
  rcases starts_ofString text with ⟨empty, ascii⟩ | table
  · have bounded : byte ≤ text.length := by
      rwa [← startOf_length, startOf_ascii ascii (Nat.le_refl _)] at within
    have parts : Parts (startOf text · < byte) text.length byte := by
      refine ⟨bounded, fun number small => ?_, fun number large inside lower => ?_⟩
      · rwa [startOf_ascii ascii (small.le.trans bounded)]
      · rw [startOf_ascii ascii inside.le] at lower
        omega
    rw [if_pos empty, parts.count_eq]
  · -- the table goes one number further, to the end of the text, which no byte offset lies behind
    have last : ¬startOf text text.length < byte := by
      rw [startOf_length]
      omega
    rw [table.isEmpty_eq, if_neg Bool.false_ne_true, table.countBelow_eq, Nat.count_succ, if_neg last,
      Nat.add_zero]

/-- A byte offset between two characters stands for the number of those before it. -/
theorem characterOffset_startOf {text : String} {character : Nat} (within : character ≤ text.length) :
    (ofString text).characterOffset (startOf text character) = character := by
  have parts : Parts (startOf text · < startOf text character) text.length character :=
    ⟨within, fun _ small => startOf_lt small within, fun _ large _ lower =>
      absurd (startOf_le large) (Nat.not_le.mpr lower)⟩
  have bounded : startOf text character ≤ text.utf8ByteSize := by
    rw [← startOf_length]
    exact startOf_le within
  rw [characterOffset_eq_count bounded, parts.count_eq]

theorem fromUTF8?_toByteArray (text : String) : String.fromUTF8? text.toByteArray = some text := by
  rw [String.fromUTF8?, dif_pos text.isValidUTF8]
  rfl

theorem bytes?_middle (front middle rest : String) :
    (ofString (front ++ middle ++ rest)).bytes? front.utf8ByteSize
      (front.utf8ByteSize + middle.utf8ByteSize) = some middle := by
  have within : front.utf8ByteSize + middle.utf8ByteSize ≤ (front ++ middle ++ rest).utf8ByteSize := by
    rw [String.utf8ByteSize_append, String.utf8ByteSize_append]
    exact Nat.le_add_right _ _
  have cut : (front ++ middle ++ rest).toUTF8.extract front.utf8ByteSize
      (front.utf8ByteSize + middle.utf8ByteSize) = middle.toByteArray := by
    have size : (front ++ middle).toByteArray.size = front.utf8ByteSize + middle.utf8ByteSize := by
      rw [String.size_toByteArray, String.utf8ByteSize_append]
    show (front ++ middle ++ rest).toByteArray.extract _ _ = _
    rw [String.toByteArray_append, ← size, ByteArray.extract_append_size_left, String.toByteArray_append]
    exact ByteArray.extract_append_eq_right String.size_toByteArray.symm ByteArray.size_append
  rw [bytes?, ofString, cut, fromUTF8?_toByteArray, if_pos]
  rw [Bool.and_eq_true, decide_eq_true_eq, decide_eq_true_eq]
  exact ⟨Nat.le_add_right _ _, within⟩

/-- The text between two characters. -/
theorem exists_parts {text : String} {span : Span} (within : span.stop ≤ text.length) :
    ∃ front middle rest, text = front ++ middle ++ rest ∧ front.length = span.start ∧
      middle.length = span.length ∧
      middle = String.ofList ((text.toList.drop span.start).take span.length) := by
  refine ⟨String.ofList (text.toList.take span.start), _, String.ofList (text.toList.drop span.stop),
    ?_, ?_, ?_, rfl⟩
  · rw [← String.ofList_append, ← String.ofList_append, ← List.take_add, Span.stop, List.take_append_drop,
      String.ofList_toList]
  · rw [String.length_ofList, List.length_take, String.length_toList]
    rw [Span.stop] at within
    omega
  · rw [String.length_ofList, List.length_take, List.length_drop, String.length_toList]
    rw [Span.stop] at within
    omega

theorem slice?_middle (front middle rest : String) :
    (ofString (front ++ middle ++ rest)).slice? ⟨front.length, middle.length⟩ = some middle := by
  have whole := length_middle_le front middle rest
  rw [slice?, Span.stop, byteOffset?_of_le ((Nat.le_add_right _ _).trans whole), byteOffset?_of_le whole,
    startOf_front, startOf_middle]
  exact bytes?_middle front middle rest

/-- A span within the text has its characters, and any other one none. -/
theorem slice?_eq (text : String) (span : Span) :
    (ofString text).slice? span =
      if span.stop ≤ text.length then
        some (String.ofList ((text.toList.drop span.start).take span.length))
      else none := by
  split
  · rename_i within
    obtain ⟨front, middle, rest, whole, start, length, characters⟩ := exists_parts within
    have same : span = ⟨front.length, middle.length⟩ := by rw [start, length]
    rw [← characters, same, whole, slice?_middle]
  · rename_i beyond
    have nothing (stop start : Nat) (found : (ofString text).byteOffset? span.stop = some stop) :
        (ofString text).bytes? start stop = none := by
      have behind := byteOffset?_of_lt (Nat.not_le.mp beyond) found
      rw [bytes?, if_neg]
      rw [Bool.and_eq_true, decide_eq_true_eq, decide_eq_true_eq]
      exact fun both => Nat.not_lt.mpr both.2 behind
    rw [slice?]
    cases first : (ofString text).byteOffset? span.start with
    | none => rfl
    | some start =>
        cases last : (ofString text).byteOffset? span.stop with
        | none => rfl
        | some stop => exact nothing stop start last

/-- The span of a part of the text counts its characters. -/
theorem span_middle (front middle rest : String) :
    (ofString (front ++ middle ++ rest)).span front.utf8ByteSize
      (front.utf8ByteSize + middle.utf8ByteSize) = ⟨front.length, middle.length⟩ := by
  have whole := length_middle_le front middle rest
  rw [span, ← startOf_middle, ← startOf_front front middle rest,
    characterOffset_startOf ((Nat.le_add_right _ _).trans whole), characterOffset_startOf whole,
    Span.between, Nat.add_sub_cancel_left]

end SourceText

end JavaFacts
