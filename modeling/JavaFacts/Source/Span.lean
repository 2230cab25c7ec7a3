/-!
Places in a source text. A span counts characters from the start of one text; an anchor is a span
that also names the file it lies in.
-/

namespace JavaFacts

structure Span where
  start : Nat
  length : Nat
deriving Repr, DecidableEq, Inhabited

namespace Span

/-- Empty when `stop` comes first. -/
def between (start stop : Nat) : Span :=
  ⟨start, stop - start⟩

def stop (span : Span) : Nat :=
  span.start + span.length

def contains (outer inner : Span) : Bool :=
  outer.start ≤ inner.start && inner.stop ≤ outer.stop

end Span

structure Anchor where
  file : String
  start : Nat
  stop : Nat
deriving Repr, DecidableEq, Inhabited

namespace Anchor

def ofSpan (file : String) (span : Span) : Anchor :=
  ⟨file, span.start, span.stop⟩

def length (anchor : Anchor) : Nat :=
  anchor.stop - anchor.start

def isEmpty (anchor : Anchor) : Bool :=
  anchor.length == 0

/-- Anchors in different files never contain each other. -/
def contains (outer inner : Anchor) : Bool :=
  outer.file == inner.file && outer.start ≤ inner.start && inner.stop ≤ outer.stop

def render (anchor : Anchor) : String :=
  anchor.file ++ "[" ++ toString anchor.start ++ ".." ++ toString anchor.stop ++ ")"

end Anchor

end JavaFacts
