import JavaFacts.Document.Basic

/-!
Reading documents. A reader answers nothing for a document of another form than it expects; a member
that is absent reads as null.
-/

namespace JavaFacts.Document

mutual

/-- Number of brackets around the innermost part. -/
def depth : Document → Nat
  | .list items => itemsDepth items + 1
  | .record members => membersDepth members + 1
  | _ => 0
termination_by structural document => document

def itemsDepth : List Document → Nat
  | [] => 0
  | item :: items => max (depth item) (itemsDepth items)
termination_by structural items => items

def membersDepth : List (String × Document) → Nat
  | [] => 0
  | (_, value) :: members => max (depth value) (membersDepth members)
termination_by structural members => members

end

def member (document : Document) (key : String) : Document :=
  match document with
  | .record members => (members.lookup key).getD .null
  | _ => .null

def text? : Document → Option String
  | .text value => some value
  | _ => none

def number? : Document → Option Nat
  | .number value => some value
  | _ => none

def flag? : Document → Option Bool
  | .flag value => some value
  | _ => none

def optional? (read : Document → Option α) (document : Document) : Option (Option α) :=
  match document with
  | .null => some none
  | present => (read present).map some

def listOf? (read : Document → Option α) : Document → Option (List α)
  | .list items => items.mapM read
  | _ => none

/-- An absent list is empty. -/
def anyListOf? (read : Document → Option α) (document : Document) : Option (List α) :=
  return (← document.optional? (listOf? read)).getD []

/-- Name and content of a value of one of several forms; a form without content is its name. -/
def variant? : Document → Option (String × Document)
  | .text name => some (name, .null)
  | .record [(name, content)] => some (name, content)
  | _ => none

def pair? : Document → Option (Document × Document)
  | .list [first, second] => some (first, second)
  | _ => none

def oneOf? (values : List α) (name : α → String) (document : Document) : Option α := do
  let wanted ← document.text?
  values.find? fun value => name value == wanted

end JavaFacts.Document
