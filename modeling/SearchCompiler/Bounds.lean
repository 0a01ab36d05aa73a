/-!
# Bounds of integers

What integers of 32, 64 and 128 bits can hold.
-/

namespace SearchCompiler

def bound32 : Nat := 4294967296

def bound64 : Nat := 18446744073709551616

def fitsSigned64 (n : Int) : Bool :=
  -9223372036854775808 ≤ n && n < 9223372036854775808

/-- Whether 64 bits can hold an integer, with a sign or without. -/
def fits64 (n : Int) : Bool :=
  -9223372036854775808 ≤ n && n < 18446744073709551616

def fits128 (n : Int) : Bool :=
  -170141183460469231731687303715884105728 ≤ n && n < 340282366920938463463374607431768211456

end SearchCompiler
