import JavaFacts.Text.Cut

/-!
Paths as text. Segments lie between slashes; an empty segment and `.` stay where they are, `..` goes
to the directory around.
-/

namespace JavaFacts.Path

def segments (path : String) : List String :=
  Text.pieces (· == '/') path

def staysInPlace (segment : String) : Bool :=
  segment == "" || segment == "."

def goesOut (segment : String) : Bool :=
  segment == ".."

def isName (segment : String) : Bool :=
  !staysInPlace segment && !goesOut segment

def maxNameSize : Nat := 255

def maxSize : Nat := 4095

def fileName? (path : String) : Option String :=
  ((segments path).filter (!staysInPlace ·)).getLast?.filter isName

/-- A dot in front of everything starts no extension. -/
def extension? (path : String) : Option String := do
  let name ← fileName? path
  let stem ← Text.beforeLast? (· == '.') name
  if stem == "" then none else return Text.afterLast (· == '.') name

/-- Where there is no file of this path yet and no directory either. -/
def isCreatable (path : String) : Bool :=
  !path.toList.contains '\x00' && path.utf8ByteSize ≤ maxSize &&
    match (segments path).reverse with
    | name :: around =>
        isName name && name.utf8ByteSize ≤ maxNameSize && around.all (!isName ·)
    | [] => false

end JavaFacts.Path
