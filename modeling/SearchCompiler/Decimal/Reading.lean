import SearchCompiler.Decimal.Binary

/-!
# Reading numbers

A number is an optional sign and digits with an optional point and an optional power of ten, or the
name of an infinity or of the undefined number in letters of any case.
-/

namespace SearchCompiler.Decimal

/-- The sign of a number and what follows it. -/
def takeSign : List Char → Bool × List Char
  | '-' :: rest => (true, rest)
  | '+' :: rest => (false, rest)
  | rest => (false, rest)

/-- The power of ten that ends a number; nothing left means none. -/
def power? : List Char → Option Int
  | [] => some 0
  | c :: rest =>
    if c = 'e' ∨ c = 'E' then
      let (negative, digits) := takeSign rest
      if digits.isEmpty || !digits.all Char.isDigit then none
      else
        let n : Int := digitsValue digits
        some (if negative then -n else n)
    else none

/-- Reads a number without its sign. Digits may be missing on one side of the point. -/
def unsigned? (negative : Bool) (cs : List Char) : Option Float := do
  let whole := cs.takeWhile Char.isDigit
  let rest := cs.dropWhile Char.isDigit
  let (fraction, rest) := match rest with
    | '.' :: r => (r.takeWhile Char.isDigit, r.dropWhile Char.isDigit)
    | r => ([], r)
  if whole.isEmpty && fraction.isEmpty then none
  let power ← power? rest
  return toDouble negative (digitsValue (whole ++ fraction)) (power - fraction.length)

def read? (cs : List Char) : Option Float :=
  let (negative, rest) := takeSign cs
  let infinity := Float.ofBits (Format.double.withSign negative Format.double.infinity).toUInt64
  match String.ofList (rest.map Char.toLower) with
  | "inf" | "infinity" => some infinity
  | "nan" => some (0.0 / 0.0)
  | _ => unsigned? negative rest

end SearchCompiler.Decimal
