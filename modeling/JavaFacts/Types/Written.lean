import JavaFacts.Source.Span
import JavaFacts.Text.Cut
import JavaFacts.Types.Binding

/-!
Types as they are written in source, and uses of a type: the written form beside the binding, if
there is one.
-/

namespace JavaFacts

inductive WrittenType where
  | primitive (keyword : String)
  | simple (name : String)
  /-- With dots. -/
  | qualified (name : String)
  | array (element : WrittenType) (dimensions : Nat)
  | parameterized (base : WrittenType) (arguments : List WrittenType)
  | wildcard
deriving Repr, Inhabited

namespace WrittenType

/-- The levels are added to those that the type has. -/
def withDimensions (dimensions : Nat) (type : WrittenType) : WrittenType :=
  match dimensions, type with
  | 0, type => type
  | more, .array element own => .array element (own + more)
  | more, type => .array type more

mutual

def render : WrittenType → String
  | .primitive name | .simple name | .qualified name => name
  | .array element dimensions => element.render ++ Text.repeated "[]" dimensions
  | .parameterized base arguments =>
      base.render ++ "<" ++ Text.joined "," (renderAll arguments) ++ ">"
  | .wildcard => "?"
termination_by structural type => type

def renderAll : List WrittenType → List String
  | [] => []
  | type :: types => type.render :: renderAll types
termination_by structural types => types

end

end WrittenType

structure TypeUse where
  span : Span
  written : WrittenType
  binding : Option TypeBinding
deriving Repr, Inhabited

namespace TypeUse

def unknown (span : Span) : TypeUse := ⟨span, .wildcard, none⟩

def withDimensions (dimensions : Nat) (type : TypeUse) : TypeUse :=
  match dimensions with
  | 0 => type
  | more =>
      { type with
        written := type.written.withDimensions more
        binding := type.binding.map (TypeBinding.array · more) }

end TypeUse

end JavaFacts
