/-!
Cuts of a name at one of its characters. All of them go through the list of characters, and the
parts of a cut lie beside each other in the text.
-/

namespace JavaFacts.Text

/-- The whole text when no character satisfies `stop`. -/
def upTo (stop : Char → Bool) (text : String) : String :=
  String.ofList (text.toList.takeWhile (!stop ·))

/-- The whole text when no character satisfies `stop`. -/
def afterLast (stop : Char → Bool) (text : String) : String :=
  String.ofList (text.toList.reverse.takeWhile (!stop ·)).reverse

def beforeLast? (stop : Char → Bool) (text : String) : Option String :=
  match text.toList.reverse.dropWhile (!stop ·) with
  | [] => none
  | _ :: before => some (String.ofList before.reverse)

def afterFirst? (stop : Char → Bool) (text : String) : Option String :=
  match text.toList.dropWhile (!stop ·) with
  | [] => none
  | _ :: after => some (String.ofList after)

/-- There is always at least one piece. -/
def piecesOf (separates : Char → Bool) : List Char → List (List Char)
  | [] => [[]]
  | c :: rest =>
      match piecesOf separates rest with
      | [] => [[c]]
      | piece :: pieces => if separates c then [] :: piece :: pieces else (c :: piece) :: pieces

def pieces (separates : Char → Bool) (text : String) : List String :=
  (piecesOf separates text.toList).map String.ofList

def joined (separator : String) : List String → String
  | [] => ""
  | [item] => item
  | item :: items => item ++ separator ++ joined separator items

def repeated (text : String) : Nat → String
  | 0 => ""
  | count + 1 => text ++ repeated text count

def startsWith (text start : String) : Bool :=
  start.toList.isPrefixOf text.toList

def endsIn (ending : Char → Bool) (text : String) : Bool :=
  match text.toList.getLast? with
  | some c => ending c
  | none => false

@[simp] theorem piecesOf_ne_nil (separates : Char → Bool) (text : List Char) :
    piecesOf separates text ≠ [] := by
  cases text with
  | nil => simp [piecesOf]
  | cons c rest =>
      simp only [piecesOf]
      split
      · simp
      · split <;> simp

end JavaFacts.Text
