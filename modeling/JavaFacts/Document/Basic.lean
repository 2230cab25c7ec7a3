import JavaFacts.Text.Cut
import JavaFacts.Text.Hexadecimal

/-!
JSON documents and their indented form: two spaces for each level, one item on a line, and nothing
inside the brackets of an empty list.
-/

namespace JavaFacts

inductive Document where
  | null
  | flag (value : Bool)
  | number (value : Nat)
  | text (value : String)
  | list (items : List Document)
  | record (members : List (String × Document))
deriving Repr, Inhabited

namespace Document

def optional (document : α → Document) : Option α → Document
  | some value => document value
  | none => .null

def listOf (document : α → Document) (values : List α) : Document :=
  .list (values.map document)

def texts (values : List String) : Document := listOf .text values

def numbers (values : List Nat) : Document := listOf .number values

/-- A value of one of several forms, under the name of its form. -/
def tagged (name : String) (content : Document) : Document := .record [(name, content)]

/-- A character inside a quoted string. Characters beyond ASCII stand as they are. -/
def escape (c : Char) : String :=
  if c == '"' then "\\\""
  else if c == '\\' then "\\\\"
  else if c == '\n' then "\\n"
  else if c == '\r' then "\\r"
  else if c == '\t' then "\\t"
  else if c.toNat == 8 then "\\b"
  else if c.toNat == 12 then "\\f"
  else if c.toNat < 16 then "\\u000" ++ Text.hexadecimal c.toNat
  else if c.toNat < 32 then "\\u00" ++ Text.hexadecimal c.toNat
  else String.singleton c

def quoted (text : String) : String :=
  "\"" ++ String.join (text.toList.map escape) ++ "\""

def indentation (level : Nat) : String :=
  Text.repeated "  " level

/-- Items on lines of their own between an opening and a closing bracket. -/
def bracketed (opening closing : String) (level : Nat) (items : List String) : String :=
  if items.isEmpty then opening ++ closing
  else
    opening ++ "\n" ++
      Text.joined ",\n" (items.map (indentation (level + 1) ++ ·)) ++
      "\n" ++ indentation level ++ closing

mutual

/-- The text of a document that starts inside `level` brackets. -/
def renderAt (level : Nat) : Document → String
  | .null => "null"
  | .flag value => if value then "true" else "false"
  | .number value => toString value
  | .text value => quoted value
  | .list items => bracketed "[" "]" level (renderItems (level + 1) items)
  | .record members => bracketed "\x7b" "\x7d" level (renderMembers (level + 1) members)
termination_by structural document => document

def renderItems (level : Nat) : List Document → List String
  | [] => []
  | item :: items => renderAt level item :: renderItems level items
termination_by structural items => items

def renderMembers (level : Nat) : List (String × Document) → List String
  | [] => []
  | (key, value) :: members =>
      (quoted key ++ ": " ++ renderAt level value) :: renderMembers level members
termination_by structural members => members

end

def render (document : Document) : String :=
  document.renderAt 0

end Document

end JavaFacts
