import JavaFacts.Concrete.Tree
import Mathlib.Data.List.DropRight

/-!
Line and column of a byte. They are found character by character; by the bytes of the text alone they are
the number of line feeds in front of the byte and the number of bytes since the last one, a line feed
being no part of the UTF-8 form of another character.
-/

namespace JavaFacts

def lineFeed : UInt8 := 10

/-- Number of bytes behind the last line feed. -/
def lastLineSize (bytes : List UInt8) : Nat :=
  (bytes.rtakeWhile (· != lineFeed)).length

section LastLine

variable {front back : List UInt8}

theorem lastLineSize_of_notMem (single : lineFeed ∉ back) : lastLineSize back = back.length := by
  have all : ∀ byte ∈ back, (byte != lineFeed) = true := fun byte member =>
    bne_iff_ne.mpr fun feed => single (feed ▸ member)
  rw [lastLineSize, List.rtakeWhile_eq_self_iff.mpr all]

theorem lastLineSize_append_of_notMem (single : lineFeed ∉ back) :
    lastLineSize (front ++ back) = lastLineSize front + back.length := by
  have all : ∀ byte ∈ back.reverse, (byte != lineFeed) = true := fun byte member =>
    bne_iff_ne.mpr fun feed => single (feed ▸ List.mem_reverse.mp member)
  rw [lastLineSize, List.rtakeWhile, List.reverse_append, List.takeWhile_append_of_pos all,
    List.reverse_append, List.reverse_reverse, List.length_append]
  rfl

/-- What is in front of a line feed does not count. -/
theorem lastLineSize_append_of_mem (several : lineFeed ∈ back) :
    lastLineSize (front ++ back) = lastLineSize back := by
  rw [lastLineSize, List.rtakeWhile, List.reverse_append, List.takeWhile_append, if_neg]
  · rfl
  · intro whole
    have same := (List.takeWhile_prefix (· != lineFeed)).eq_of_length whole
    have all := List.takeWhile_eq_self_iff.mp same lineFeed (List.mem_reverse.mpr several)
    exact absurd all (by decide)

end LastLine

theorem utf8EncodeChar_lineFeed : String.utf8EncodeChar '\n' = [lineFeed] :=
  rfl

theorem lineFeed_ne_of_large {value : Nat} (large : 128 ≤ value) (byte : value < 256) :
    lineFeed ≠ UInt8.ofNat value := by
  intro same
  have ten := congrArg UInt8.toNat same
  rw [UInt8.toNat_ofNat', Nat.mod_eq_of_lt byte] at ten
  exact absurd ten (Nat.ne_of_lt (Nat.lt_of_lt_of_le (by decide) large))

/-- The form of a character of several bytes has none of the ASCII bytes in it. -/
theorem lineFeed_notMem_utf8EncodeChar {c : Char} (other : c ≠ '\n') :
    lineFeed ∉ String.utf8EncodeChar c := by
  unfold String.utf8EncodeChar
  dsimp only
  split
  · rename_i ascii
    rw [List.mem_singleton]
    intro same
    have ten := congrArg UInt8.toNat same
    rw [UInt8.toNat_ofNat', Nat.mod_eq_of_lt (by omega)] at ten
    exact other (Char.ext (UInt32.toNat_inj.mp ten.symm))
  · have following (low : Nat) : lineFeed ≠ UInt8.ofNat (low % 64 + 128) :=
      lineFeed_ne_of_large (by omega) (by omega)
    split
    · simp only [List.mem_cons, List.not_mem_nil, or_false, not_or]
      exact ⟨lineFeed_ne_of_large (by omega) (by omega), following _⟩
    · split
      · simp only [List.mem_cons, List.not_mem_nil, or_false, not_or]
        exact ⟨lineFeed_ne_of_large (by omega) (by omega), following _, following _⟩
      · simp only [List.mem_cons, List.not_mem_nil, or_false, not_or]
        exact ⟨lineFeed_ne_of_large (by omega) (by omega), following _, following _, following _⟩

namespace SourceText

/-- The bytes of a text in front of one of them. -/
def bytesBefore (text : String) (byte : Nat) : List UInt8 :=
  text.toUTF8.data.toList.take byte

/-- Number of lines that end in front of a byte. -/
def rowOf (text : String) (byte : Nat) : Nat :=
  (bytesBefore text byte).count lineFeed

/-- Number of bytes in front of a byte in its own line. -/
def columnOf (text : String) (byte : Nat) : Nat :=
  lastLineSize (bytesBefore text byte)

theorem bytesBefore_eq (text : String) (byte : Nat) :
    bytesBefore text byte = (text.toList.flatMap String.utf8EncodeChar).take byte := by
  rw [bytesBefore, String.toUTF8_eq_toByteArray, ← String.utf8Encode_toList, List.utf8Encode,
    List.toList_data_toByteArray]

/-- The place behind some bytes, from the place in front of them. -/
def placeBehind (line column : Nat) (bytes : List UInt8) : Nat × Nat :=
  (line + bytes.count lineFeed, if lineFeed ∈ bytes then lastLineSize bytes + 1 else column + bytes.length)

theorem placeBehind_of_notMem {bytes : List UInt8} (line column : Nat) (single : lineFeed ∉ bytes) :
    placeBehind line column bytes = (line, column + bytes.length) := by
  rw [placeBehind, List.count_eq_zero_of_not_mem single, if_neg single, Nat.add_zero]

theorem placeBehind_append (line column : Nat) (front back : List UInt8) :
    placeBehind line column (front ++ back) =
      placeBehind (placeBehind line column front).1 (placeBehind line column front).2 back := by
  by_cases several : lineFeed ∈ back
  · have either : lineFeed ∈ front ++ back := List.mem_append_right _ several
    simp only [placeBehind, if_pos several, if_pos either, List.count_append, Nat.add_assoc,
      lastLineSize_append_of_mem several]
  · have either : lineFeed ∈ front ++ back ↔ lineFeed ∈ front := by simp [several]
    rw [placeBehind_of_notMem _ _ several]
    simp only [placeBehind, either, List.count_append, List.count_eq_zero_of_not_mem several,
      lastLineSize_append_of_notMem several, List.length_append]
    split <;> simp only [Nat.add_zero, Nat.add_assoc, Nat.add_comm back.length]

/-- Lines are counted by the line feeds that are passed, and columns anew behind each of them. -/
theorem placeFrom_eq (line column remaining : Nat) (characters : List Char) :
    placeFrom line column remaining characters =
      placeBehind line column ((characters.flatMap String.utf8EncodeChar).take remaining) := by
  fun_induction placeFrom line column remaining characters with
  | case1 line column => simp [placeBehind]
  | case2 line column remaining c rest none =>
      obtain rfl := beq_iff_eq.mp none
      simp [placeBehind]
  | case3 line column remaining c rest more feed ih =>
      obtain rfl := beq_iff_eq.mp feed
      have one : [lineFeed].take remaining = [lineFeed] :=
        List.take_of_length_le (Nat.one_le_iff_ne_zero.mpr fun zero => more (beq_iff_eq.mpr zero))
      rw [List.flatMap_cons, utf8EncodeChar_lineFeed, List.take_append, placeBehind_append, one, ih]
      rfl
  | case4 line column remaining c rest more other ih =>
      have single : lineFeed ∉ (String.utf8EncodeChar c).take remaining := fun member =>
        lineFeed_notMem_utf8EncodeChar (fun feed => other (beq_iff_eq.mpr feed))
          (List.mem_of_mem_take member)
      rw [List.flatMap_cons, List.take_append, placeBehind_append, placeBehind_of_notMem _ _ single, ih,
        List.length_take, String.length_utf8EncodeChar, Nat.min_comm]

theorem place_eq (text : String) (byte : Nat) :
    (ofString text).place byte = (rowOf text byte + 1, columnOf text byte + 1) := by
  have whole : (ofString text).place byte = placeBehind 1 1 (bytesBefore text byte) := by
    rw [place, placeFrom_eq, bytesBefore_eq]
    rfl
  rw [whole, placeBehind, rowOf, columnOf, Nat.add_comm 1]
  split
  · rfl
  · rename_i single
    rw [lastLineSize_of_notMem single, Nat.add_comm 1]

end SourceText

end JavaFacts
