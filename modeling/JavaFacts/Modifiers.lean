import JavaFacts.Text.Blank
import JavaFacts.Text.Cut
import JavaFacts.Text.Hexadecimal

/-!
The modifiers of a declaration as a set of flags, one bit each. Bits without a flag are kept as they
are. The written form names the flags in the order of their bits; bits left over follow as one
hexadecimal number.
-/

namespace JavaFacts

structure Modifiers where
  bits : BitVec 32
deriving Repr, DecidableEq, Inhabited

namespace Modifiers

def none : Modifiers := ⟨0⟩

def union (left right : Modifiers) : Modifiers :=
  ⟨left.bits ||| right.bits⟩

instance : EmptyCollection Modifiers := ⟨none⟩
instance : Union Modifiers := ⟨union⟩

def contains (all part : Modifiers) : Bool :=
  all.bits &&& part.bits == part.bits

def flag (position : Nat) : Modifiers := ⟨1#32 <<< position⟩

def isPublic : Modifiers := flag 0
def isPrivate : Modifiers := flag 1
def isProtected : Modifiers := flag 2
def isStatic : Modifiers := flag 3
def isFinal : Modifiers := flag 4
def isSynchronized : Modifiers := flag 5
def isVolatile : Modifiers := flag 6
def isTransient : Modifiers := flag 7
def isNative : Modifiers := flag 8
def isInterface : Modifiers := flag 9
def isAbstract : Modifiers := flag 10
def isStrict : Modifiers := flag 11
def isEnum : Modifiers := flag 12
def isAnonymous : Modifiers := flag 13
/-- Set on what no declaration in source stands for. -/
def isSynthetic : Modifiers := flag 14

def names : List (String × Modifiers) :=
  [("PUBLIC", isPublic), ("PRIVATE", isPrivate), ("PROTECTED", isProtected), ("STATIC", isStatic),
   ("FINAL", isFinal), ("SYNCHRONIZED", isSynchronized), ("VOLATILE", isVolatile),
   ("TRANSIENT", isTransient), ("NATIVE", isNative), ("INTERFACE", isInterface),
   ("ABSTRACT", isAbstract), ("STRICTFP", isStrict), ("ENUM", isEnum),
   ("ANONYMOUS", isAnonymous), ("SYNTHETIC", isSynthetic)]

def keywords : List (String × Modifiers) :=
  [("public", isPublic), ("private", isPrivate), ("protected", isProtected), ("static", isStatic),
   ("final", isFinal), ("synchronized", isSynchronized), ("volatile", isVolatile),
   ("transient", isTransient), ("native", isNative), ("abstract", isAbstract),
   ("strictfp", isStrict)]

def ofKeyword? (keyword : String) : Option Modifiers :=
  keywords.lookup keyword

/-- Words that are no modifier keyword, such as annotations, add nothing. -/
def ofKeywords (words : List String) : Modifiers :=
  (words.filterMap ofKeyword?).foldl union none

def render (modifiers : Modifiers) : String :=
  let named := names.filter fun entry => modifiers.contains entry.2
  let rest := modifiers.bits &&& ~~~(names.foldl (fun all entry => all ∪ entry.2) none).bits
  let items := named.map (·.1)
  Text.joined " | " (if rest == 0 then items else items ++ ["0x" ++ Text.hexadecimal rest.toNat])

def ofHexadecimal? (digits : List Char) : Option Modifiers := do
  let number ← Text.ofHexadecimal? digits
  if number < 0x100000000 then some ⟨BitVec.ofNat 32 number⟩ else Option.none

def ofItem? (item : String) : Option Modifiers :=
  match item.toList with
  | '0' :: 'x' :: digits => ofHexadecimal? digits
  | _ => names.lookup item

/-- Reads flag names and hexadecimal numbers in any order, separated by bars. -/
def ofText? (text : String) : Option Modifiers :=
  if (Text.trim text).isEmpty then some none
  else do
    let parts ← ((Text.pieces (· == '|') text).map Text.trim).mapM ofItem?
    return parts.foldl union none

end Modifiers

end JavaFacts
