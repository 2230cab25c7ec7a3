import JavaFacts.Source.Span

/-!
A source text that is addressed in two units: tools that cut it count bytes of its UTF-8 form, spans
count characters. A text of ASCII characters alone keeps no table, because both counts agree in it.
-/

namespace JavaFacts

def byteStarts (offset : Nat) : List Char → List Nat
  | [] => [offset]
  | c :: rest => offset :: byteStarts (offset + c.utf8Size) rest

def countBelow (sorted : Array Nat) (bound low high : Nat) : Nat :=
  if _h : low < high then
    let middle := (low + high) / 2
    match sorted[middle]? with
    | some value =>
        if value < bound then countBelow sorted bound (middle + 1) high
        else countBelow sorted bound low middle
    | none => countBelow sorted bound low middle
  else low
termination_by high - low
decreasing_by all_goals omega

structure SourceText where
  text : String
  /-- Byte offset of every character and of the end; empty when all are ASCII. -/
  starts : Array Nat
deriving Inhabited

namespace SourceText

def ofString (text : String) : SourceText :=
  let characters := text.toList
  ⟨text, if characters.all (·.toNat < 128) then #[] else (byteStarts 0 characters).toArray⟩

/-- A byte inside a character counts as the one after it. -/
def characterOffset (source : SourceText) (byte : Nat) : Nat :=
  if source.starts.isEmpty then byte
  else countBelow source.starts byte 0 source.starts.size

def byteOffset? (source : SourceText) (character : Nat) : Option Nat :=
  if source.starts.isEmpty then some character else source.starts[character]?

def span (source : SourceText) (start stop : Nat) : Span :=
  Span.between (source.characterOffset start) (source.characterOffset stop)

def bytes? (source : SourceText) (start stop : Nat) : Option String :=
  if start ≤ stop && stop ≤ source.text.utf8ByteSize then
    String.fromUTF8? (source.text.toUTF8.extract start stop)
  else none

def slice? (source : SourceText) (span : Span) : Option String := do
  let start ← source.byteOffset? span.start
  let stop ← source.byteOffset? span.stop
  source.bytes? start stop

/-- A rest without a line feed is a line unless it is empty. -/
def lineCount (source : SourceText) : Nat :=
  let characters := source.text.toList
  let ended := characters.count '\n'
  match characters.getLast? with
  | some '\n' | none => ended
  | some _ => ended + 1

def byteCount (source : SourceText) : Nat :=
  source.text.utf8ByteSize

end SourceText

end JavaFacts
