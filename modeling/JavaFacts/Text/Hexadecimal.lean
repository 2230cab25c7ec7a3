namespace JavaFacts.Text

def hexadecimal (number : Nat) : String :=
  String.ofList (Nat.toDigits 16 number)

def hexadecimalDigit? (c : Char) : Option Nat :=
  if '0' ≤ c && c ≤ '9' then some (c.toNat - '0'.toNat)
  else if 'a' ≤ c && c ≤ 'f' then some (c.toNat - 'a'.toNat + 10)
  else if 'A' ≤ c && c ≤ 'F' then some (c.toNat - 'A'.toNat + 10)
  else none

def ofHexadecimal? (digits : List Char) : Option Nat := do
  if digits.isEmpty then none
  let values ← digits.mapM hexadecimalDigit?
  return values.foldl (fun number digit => 16 * number + digit) 0

end JavaFacts.Text
