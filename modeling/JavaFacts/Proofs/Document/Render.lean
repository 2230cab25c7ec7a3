import JavaFacts.Document.Basic
import JavaFacts.Proofs.Text.Cut
import Mathlib.Tactic.IntervalCases

/-!
The text of a document tells the document. What is written for a part of it ends in a place that the
text itself shows, so nothing else can be meant, whatever stands behind the part; only behind a number
there must not be another digit.
-/

namespace JavaFacts.Document

/-- Whether a text goes on with no digit. -/
def Stops (rest : List Char) : Prop :=
  rest.head?.all fun c => !c.isDigit

/-- What is written for the value is no beginning of a text for another value. -/
def Tells {α : Type} (write : α → String) (value : α) : Prop :=
  ∀ ⦃other rest last⦄, Stops rest → Stops last →
    (write value).toList ++ rest = (write other).toList ++ last → value = other ∧ rest = last

/-- The character that an escape stands for, and what comes behind the escape. -/
def readEscape : List Char → Option (Char × List Char)
  | '"' :: rest => some ('"', rest)
  | '\\' :: rest => some ('\\', rest)
  | 'n' :: rest => some ('\n', rest)
  | 'r' :: rest => some ('\r', rest)
  | 't' :: rest => some ('\t', rest)
  | 'b' :: rest => some (Char.ofNat 8, rest)
  | 'f' :: rest => some (Char.ofNat 12, rest)
  | 'u' :: '0' :: '0' :: high :: low :: rest =>
      (Text.ofHexadecimal? [high, low]).map fun number => (Char.ofNat number, rest)
  | _ => none

/-- The first character of a text in quotes, unless the text ends here. -/
def readChar : List Char → Option (Char × List Char)
  | [] => none
  | c :: rest =>
      if c = '"' then none
      else if c = '\\' then readEscape rest
      else some (c, rest)

theorem readChar_control {number : Nat} (control : number < 32) (rest : List Char) :
    readChar ((escape (Char.ofNat number)).toList ++ rest) = some (Char.ofNat number, rest) := by
  interval_cases number <;> rfl

theorem readChar_escape (c : Char) (rest : List Char) :
    readChar ((escape c).toList ++ rest) = some (c, rest) := by
  by_cases control : c.toNat < 32
  · have read := readChar_control control rest
    rwa [Char.ofNat_toNat] at read
  by_cases quote : c = '"'
  · subst quote
    rfl
  by_cases stroke : c = '\\'
  · subst stroke
    rfl
  have plain : escape c = String.singleton c := by
    have other {special : Char} (small : special.toNat < 32) : ¬(c == special) = true := by
      rw [beq_iff_eq]
      rintro rfl
      exact control small
    have above {number : Nat} (small : number < 32) : ¬(c.toNat == number) = true := by
      rw [beq_iff_eq]
      exact fun same => control (same ▸ small)
    rw [escape, if_neg (by rwa [beq_iff_eq]), if_neg (by rwa [beq_iff_eq]), if_neg (other (by decide)),
      if_neg (other (by decide)), if_neg (other (by decide)), if_neg (above (by decide)),
      if_neg (above (by decide)), if_neg fun small => control (Nat.lt_trans small (by decide)),
      if_neg control]
  rw [plain, String.toList_singleton, List.singleton_append, readChar, if_neg quote, if_neg stroke]

theorem toList_quoted (text : String) :
    (quoted text).toList = '"' :: (text.toList.flatMap fun c => (escape c).toList) ++ ['"'] := by
  rw [quoted, String.toList_append, String.toList_append, String.toList_join, List.flatMap_map]
  rfl

theorem eq_of_escaped {text other rest last : List Char}
    (same : (text.flatMap fun c => (escape c).toList) ++ '"' :: rest =
      (other.flatMap fun c => (escape c).toList) ++ '"' :: last) : text = other ∧ rest = last := by
  have ended (rest : List Char) : readChar ('"' :: rest) = none := rfl
  induction text generalizing other with
  | nil =>
      cases other with
      | nil => exact ⟨rfl, (List.cons.inj same).2⟩
      | cons c other =>
          rw [List.flatMap_nil, List.nil_append, List.flatMap_cons, List.append_assoc] at same
          have read := congrArg readChar same
          rw [readChar_escape, ended] at read
          cases read
  | cons c text ih =>
      rw [List.flatMap_cons, List.append_assoc] at same
      have read := congrArg readChar same
      cases other with
      | nil =>
          rw [readChar_escape, List.flatMap_nil, List.nil_append, ended] at read
          cases read
      | cons c' other =>
          rw [readChar_escape, List.flatMap_cons, List.append_assoc, readChar_escape] at read
          obtain ⟨rfl, onwards⟩ := Prod.mk.inj (Option.some.inj read)
          obtain ⟨rfl, behind⟩ := ih onwards
          exact ⟨rfl, behind⟩

theorem eq_of_quoted {text other : String} {rest last : List Char}
    (same : (quoted text).toList ++ rest = (quoted other).toList ++ last) :
    text = other ∧ rest = last := by
  rw [toList_quoted, toList_quoted, List.cons_append, List.cons_append, List.cons_append,
    List.cons_append, List.append_assoc, List.append_assoc] at same
  obtain ⟨here, behind⟩ := eq_of_escaped (List.cons.inj same).2
  exact ⟨String.ext here, behind⟩

theorem flag_tells (value : Bool) :
    Tells (fun value : Bool => if value then "true" else "false") value := by
  intro other rest last _ _ same
  cases value <;> cases other
  · exact ⟨rfl, List.append_cancel_left same⟩
  · cases (List.cons.inj same).1
  · cases (List.cons.inj same).1
  · exact ⟨rfl, List.append_cancel_left same⟩

theorem takeWhile_of_stops {digits rest : List Char} (all : ∀ c ∈ digits, c.isDigit)
    (stops : Stops rest) : (digits ++ rest).takeWhile Char.isDigit = digits := by
  rw [List.takeWhile_append_of_pos all]
  cases rest with
  | nil => rw [List.takeWhile_nil, List.append_nil]
  | cons c rest =>
      have none : c.isDigit = false := (Bool.not_eq_true' _).mp stops
      rw [List.takeWhile_cons_of_neg (by rw [none]; exact Bool.false_ne_true), List.append_nil]

theorem number_tells (number : Nat) : Tells (fun number : Nat => toString number) number := by
  intro other rest last stops later same
  have digits := congrArg (List.takeWhile Char.isDigit) same
  rw [takeWhile_of_stops (fun _ => Text.isDigit_of_mem_toString) stops,
    takeWhile_of_stops (fun _ => Text.isDigit_of_mem_toString) later] at digits
  rw [digits] at same
  have equal := Text.toString_inj (String.ext digits)
  exact ⟨equal, List.append_cancel_left same⟩

/-- What comes behind the first item of a list. -/
def further (closing : String) (level : Nat) : List String → List Char
  | [] => '\n' :: ((indentation level).toList ++ closing.toList)
  | item :: items =>
      ',' :: '\n' :: ((indentation (level + 1)).toList ++ (item.toList ++ further closing level items))

theorem toList_joined (closing : String) (level : Nat) (item : String) (items : List String) :
    (Text.joined ",\n" ((item :: items).map (indentation (level + 1) ++ ·))).toList ++
        '\n' :: ((indentation level).toList ++ closing.toList) =
      (indentation (level + 1)).toList ++ (item.toList ++ further closing level items) := by
  induction items generalizing item with
  | nil => simp only [List.map_cons, List.map_nil, Text.joined, further, String.toList_append,
      List.append_assoc]
  | cons second items ih =>
      rw [further, ← ih]
      simp only [List.map_cons, Text.joined, String.toList_append, List.append_assoc]
      rfl

theorem toList_bracketed_nil (opening closing : String) (level : Nat) :
    (bracketed opening closing level []).toList = opening.toList ++ closing.toList :=
  String.toList_append

theorem toList_bracketed_cons (opening closing : String) (level : Nat) (item : String) (items : List String) :
    (bracketed opening closing level (item :: items)).toList = opening.toList ++
      '\n' :: ((indentation (level + 1)).toList ++ (item.toList ++ further closing level items)) := by
  rw [← toList_joined, bracketed, if_neg (by simp)]
  simp only [String.toList_append, List.append_assoc]
  rfl

variable {α : Type} {write : α → String} {closing : String} {level : Nat} {items others : List α}
  {rest last : List Char}

theorem stops_further (texts : List String) (rest : List Char) :
    Stops (further closing level texts ++ rest) := by
  cases texts with
  | nil => rfl
  | cons item items => rfl

/-- A comma tells that another item comes, and a line without one that the list ends. -/
theorem eq_of_further (tell : ∀ item ∈ items, Tells write item)
    (same : further closing level (items.map write) ++ rest =
      further closing level (others.map write) ++ last) : items = others ∧ rest = last := by
  induction items generalizing others with
  | nil =>
      cases others with
      | nil => exact ⟨rfl, List.append_cancel_left same⟩
      | cons other others => cases (List.cons.inj same).1
  | cons item items ih =>
      cases others with
      | nil => cases (List.cons.inj same).1
      | cons other others =>
          rw [List.forall_mem_cons] at tell
          simp only [List.map_cons, further, List.cons_append, List.append_assoc, List.cons.injEq,
            true_and] at same
          obtain ⟨rfl, onwards⟩ := tell.1 (stops_further _ _) (stops_further _ _)
            (List.append_cancel_left same)
          obtain ⟨rfl, behind⟩ := ih tell.2 onwards
          exact ⟨rfl, behind⟩

theorem bracketed_tells {opening : String} (ends : closing.toList.head?.any (· != '\n'))
    (tell : ∀ item ∈ items, Tells write item) :
    Tells (fun items => bracketed opening closing level (items.map write)) items := by
  intro others rest last _ _ same
  dsimp only at same
  -- an empty list goes on with its closing bracket, any other one with a new line
  have apart {before after : List Char} (same : closing.toList ++ before = '\n' :: after) : False := by
    cases bracket : closing.toList with
    | nil =>
        rw [bracket] at ends
        cases ends
    | cons c more =>
        rw [bracket] at ends same
        rw [(List.cons.inj same).1] at ends
        cases ends
  cases items with
  | nil =>
      cases others with
      | nil => exact ⟨rfl, List.append_cancel_left same⟩
      | cons other others =>
          rw [List.map_nil, toList_bracketed_nil, List.map_cons, toList_bracketed_cons, List.append_assoc,
            List.append_assoc] at same
          exact (apart (List.append_cancel_left same)).elim
  | cons item items =>
      cases others with
      | nil =>
          rw [List.map_nil, toList_bracketed_nil, List.map_cons, toList_bracketed_cons, List.append_assoc,
            List.append_assoc] at same
          exact (apart (List.append_cancel_left same).symm).elim
      | cons other others =>
          rw [List.forall_mem_cons] at tell
          simp only [List.map_cons, toList_bracketed_cons, List.append_assoc, List.append_cancel_left_eq,
            List.cons_append, List.cons.injEq, true_and] at same
          obtain ⟨rfl, onwards⟩ := tell.1 (stops_further _ _) (stops_further _ _) same
          obtain ⟨rfl, behind⟩ := eq_of_further tell.2 onwards
          exact ⟨rfl, behind⟩

def renderMember (level : Nat) (member : String × Document) : String :=
  quoted member.1 ++ ": " ++ member.2.renderAt level

theorem renderItems_eq (level : Nat) (items : List Document) :
    renderItems level items = items.map (renderAt level) := by
  induction items with
  | nil => rfl
  | cons item items ih => rw [renderItems, ih, List.map_cons]

theorem renderMembers_eq (level : Nat) (members : List (String × Document)) :
    renderMembers level members = members.map (renderMember level) := by
  induction members with
  | nil => rfl
  | cons member members ih => rw [renderMembers, ih, List.map_cons, renderMember]

theorem renderMember_tells {member : String × Document} (tells : Tells (renderAt level) member.2) :
    Tells (renderMember level) member := by
  intro other rest last stops later same
  simp only [renderMember, String.toList_append, List.append_assoc] at same
  obtain ⟨key, behind⟩ := eq_of_quoted same
  obtain ⟨value, behind⟩ := tells stops later (List.append_cancel_left behind)
  exact ⟨Prod.ext key value, behind⟩

/-- The form of the documents whose texts start with a character; no two forms share one. -/
def formOf (c : Char) : Nat :=
  if c = 'n' then 0
  else if c = 't' ∨ c = 'f' then 1
  else if c.isDigit then 2
  else if c = '"' then 3
  else if c = '[' then 4
  else 5

theorem head?_bracketed (opening closing : String) (level : Nat) (items : List String)
    (c : Char) (opens : opening.toList = [c]) :
    (bracketed opening closing level items).toList.head? = some c := by
  cases items with
  | nil =>
      rw [toList_bracketed_nil, opens]
      rfl
  | cons item items =>
      rw [toList_bracketed_cons, opens]
      rfl

theorem exists_digit (number : Nat) :
    ∃ c digits, (toString number).toList = c :: digits ∧ c.isDigit := by
  cases digits : (toString number).toList with
  | nil =>
      rw [Nat.toString_eq_repr, Nat.toList_repr] at digits
      exact absurd digits Nat.toDigits_ne_nil
  | cons c digits' =>
      exact ⟨c, digits', rfl, Text.isDigit_of_mem_toString (digits ▸ List.mem_cons_self)⟩

theorem form_renderAt (level : Nat) (document : Document) :
    (document.renderAt level).toList.head?.map formOf = some document.ctorIdx := by
  cases document with
  | null =>
      rw [renderAt]
      rfl
  | flag value =>
      rw [renderAt]
      cases value <;> rfl
  | number value =>
      obtain ⟨c, digits, same, digit⟩ := exists_digit value
      have other {letter : Char} (none : letter.isDigit = false) : c ≠ letter := by
        rintro rfl
        rw [none] at digit
        cases digit
      rw [renderAt, same, List.head?_cons, Option.map_some, formOf, if_neg (other (by decide)),
        if_neg (not_or.mpr ⟨other (by decide), other (by decide)⟩), if_pos digit]
      rfl
  | text value =>
      rw [renderAt, toList_quoted]
      rfl
  | list items =>
      rw [renderAt, head?_bracketed _ _ _ _ '[' rfl]
      rfl
  | record members =>
      rw [renderAt, head?_bracketed _ _ _ _ '\x7b' rfl]
      rfl

theorem form_eq {document other : Document} {level : Nat} {rest last : List Char}
    (same : (document.renderAt level).toList ++ rest = (other.renderAt level).toList ++ last) :
    document.ctorIdx = other.ctorIdx := by
  have first (document : Document) (rest : List Char) :
      ((document.renderAt level).toList ++ rest).head?.map formOf = some document.ctorIdx := by
    have form := document.form_renderAt level
    rw [List.head?_append]
    cases opens : (document.renderAt level).toList.head? with
    | none =>
        rw [opens] at form
        cases form
    | some c =>
        rw [opens] at form
        exact form
  exact Option.some.inj ((first document rest).symm.trans (same ▸ first other last))

theorem renderAt_tells : (document : Document) → (level : Nat) → Tells (renderAt level) document
  | .null, level => by
      intro other rest last _ _ same
      have form := form_eq same
      cases other <;> cases form
      exact ⟨rfl, List.append_cancel_left same⟩
  | .flag value, level => by
      intro other rest last stops later same
      have form := form_eq same
      cases other <;> cases form
      simp only [renderAt] at same
      obtain ⟨rfl, behind⟩ := flag_tells value stops later same
      exact ⟨rfl, behind⟩
  | .number value, level => by
      intro other rest last stops later same
      have form := form_eq same
      cases other <;> cases form
      simp only [renderAt] at same
      obtain ⟨rfl, behind⟩ := number_tells value stops later same
      exact ⟨rfl, behind⟩
  | .text value, level => by
      intro other rest last _ _ same
      have form := form_eq same
      cases other <;> cases form
      simp only [renderAt] at same
      obtain ⟨rfl, behind⟩ := eq_of_quoted same
      exact ⟨rfl, behind⟩
  | .list items, level => by
      intro other rest last stops later same
      have form := form_eq same
      cases other <;> cases form
      simp only [renderAt, renderItems_eq] at same
      obtain ⟨rfl, behind⟩ := bracketed_tells rfl
        (fun item listed => renderAt_tells item (level + 1)) stops later same
      exact ⟨rfl, behind⟩
  | .record members, level => by
      intro other rest last stops later same
      have form := form_eq same
      cases other <;> cases form
      simp only [renderAt, renderMembers_eq] at same
      obtain ⟨rfl, behind⟩ := bracketed_tells rfl
        (fun member listed => renderMember_tells (renderAt_tells member.2 (level + 1))) stops later same
      exact ⟨rfl, behind⟩
termination_by document => document
decreasing_by
  · have within := List.sizeOf_lt_of_mem listed
    simp only [list.sizeOf_spec]
    omega
  · have within := List.sizeOf_lt_of_mem listed
    rcases member with ⟨key, value⟩
    simp only [record.sizeOf_spec, Prod.mk.sizeOf_spec] at within ⊢
    omega

/-- Different documents have different texts. -/
theorem render_injective : Function.Injective render := by
  intro document other same
  have texts : (document.renderAt 0).toList ++ [] = (other.renderAt 0).toList ++ [] :=
    congrArg (·.toList ++ []) same
  have stops : Stops [] := rfl
  exact (renderAt_tells document 0 stops stops texts).1

end JavaFacts.Document
