/-!
# Hexadecimal digits

Digits to the base 16, in letters of either case.
-/

namespace SearchCompiler.Text

def hexValue? (c : Char) : Option Nat :=
  if '0' ≤ c ∧ c ≤ '9' then some (c.toNat - '0'.toNat)
  else if 'a' ≤ c ∧ c ≤ 'f' then some (c.toNat - 'a'.toNat + 10)
  else if 'A' ≤ c ∧ c ≤ 'F' then some (c.toNat - 'A'.toNat + 10)
  else none

def isHexDigit (c : Char) : Bool :=
  (hexValue? c).isSome

/-- The number that digits to the base 16 stand for, behind the digits of `seen`. -/
def hexNumberFrom? (seen : Nat) : List Char → Option Nat
  | [] => some seen
  | c :: rest => (hexValue? c).bind fun d => hexNumberFrom? (16 * seen + d) rest

def hexNumber? (digits : List Char) : Option Nat :=
  hexNumberFrom? 0 digits

end SearchCompiler.Text
