import SearchCompiler.Decimal.Shortest

/-!
# Written numbers

The text of a binary number: the shortest digits that read back, laid out by a style. A style says
which exponents are written without a power of ten, whether an integral number keeps a decimal
point, how ties fall and how the numbers without digits are called.
-/

namespace SearchCompiler.Decimal

structure Style where
  tie : Tie
  /-- The exponents of the first digit that are written in full: all of them, or those from the
  first bound up to, but not including, the second. -/
  full : Option (Int × Int)
  /-- Whether an integral number ends in `.0`. -/
  keepPoint : Bool
  infinity : String
  negativeInfinity : String
  undefined : String
deriving Repr

/-- Numbers in queries and messages: always in full, integral ones without a point. -/
def Style.plain : Style := ⟨.up, none, false, "inf", "-inf", "NaN"⟩

/-- Numbers in a configuration document: always in full and always with a point. -/
def Style.document : Style := ⟨.up, none, true, "inf", "-inf", "nan"⟩

/-- Numbers in JSON: in full up to sixteen digits, and `null` for what JSON cannot write. -/
def Style.json : Style := ⟨.toEven, some (-5, 16), true, "null", "null", "null"⟩

/-- Lays digits out in full: `digits · 10 ^ exponent`. -/
def inFull (keepPoint : Bool) (digits : List Char) (exponent : Int) : List Char :=
  if 0 ≤ exponent then
    digits ++ List.replicate exponent.toNat '0' ++ (if keepPoint then ['.', '0'] else [])
  else
    let places := (-exponent).toNat
    if places < digits.length then
      digits.take (digits.length - places) ++ '.' :: digits.drop (digits.length - places)
    else
      '0' :: '.' :: (List.replicate (places - digits.length) '0' ++ digits)

/-- Lays digits out with a power of ten behind the first digit. -/
def withPower (digits : List Char) (exponent : Int) : List Char :=
  let power := exponent + digits.length - 1
  let sign := if power < 0 then '-' else '+'
  let mantissa := match digits with
    | [] => []
    | [d] => [d]
    | d :: rest => d :: '.' :: rest
  mantissa ++ ['e', sign] ++ Nat.toDigits 10 power.natAbs

def Style.layout (style : Style) (digits : Nat) (exponent : Int) : List Char :=
  let ds := Nat.toDigits 10 digits
  let first := exponent + ds.length - 1
  match style.full with
  | none => inFull style.keepPoint ds exponent
  | some (low, high) =>
    if low ≤ first && first < high then inFull style.keepPoint ds exponent
    else withPower ds exponent

def Style.text (style : Style) : Binary → String
  | .undefined => style.undefined
  | .infinite negative => if negative then style.negativeInfinity else style.infinity
  | .finite negative m q narrow =>
    let body := if m = 0 then inFull style.keepPoint ['0'] 0
      else
        let (digits, exponent) := shortest style.tie m q narrow
        style.layout digits exponent
    String.ofList (if negative then '-' :: body else body)

def Style.double (style : Style) (x : Float) : String :=
  style.text (Format.double.decode x.toBits.toNat)

/-- The text of a number of single precision: the digits that read back in single precision. -/
def Style.single (style : Style) (x : Float32) : String :=
  style.text (Format.single.decode x.toBits.toNat)

end SearchCompiler.Decimal
