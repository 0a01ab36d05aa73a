/-!
# Binary floating point numbers

A finite number is `m · 2 ^ q` with natural `m`. `Format.decode` reads the fields of a word,
`Format.nearest` rounds a quotient of naturals to the nearest word, a half to the even neighbour.
Both are exact arithmetic on naturals.
-/

namespace SearchCompiler.Decimal

/-- The widths of the two fields behind the sign of a binary format. -/
structure Format where
  fractionBits : Nat
  exponentBits : Nat
deriving DecidableEq, Repr

namespace Format

def double : Format := ⟨52, 11⟩

def single : Format := ⟨23, 8⟩

/-- The smallest positive number is two to the negative of this. -/
def depth (f : Format) : Nat :=
  Nat.pow 2 (f.exponentBits - 1) - 2 + f.fractionBits

def infinity (f : Format) : Nat :=
  (Nat.pow 2 f.exponentBits - 1) * Nat.pow 2 f.fractionBits

end Format

/-- What a word of a binary format stands for. -/
inductive Binary where
  | undefined
  | infinite (negative : Bool)
  /-- The number `m · 2 ^ q`. `narrow` says that the next smaller number is only half a unit away
  from the middle, as it is below a power of two. -/
  | finite (negative : Bool) (m : Nat) (q : Int) (narrow : Bool)
deriving DecidableEq, Repr

namespace Format

def decode (f : Format) (word : Nat) : Binary :=
  let fraction := word % Nat.pow 2 f.fractionBits
  let exponent := word / Nat.pow 2 f.fractionBits % Nat.pow 2 f.exponentBits
  let negative := Nat.pow 2 (f.fractionBits + f.exponentBits) ≤ word
  if exponent = Nat.pow 2 f.exponentBits - 1 then
    if fraction = 0 then .infinite negative else .undefined
  else if exponent = 0 then
    .finite negative fraction (-(f.depth : Int)) false
  else
    .finite negative (Nat.pow 2 f.fractionBits + fraction) ((exponent : Int) - 1 - f.depth)
      (fraction == 0 && exponent != 1)

/-- The quotient `num / den` times `2 ^ (-q)`, as a numerator and a denominator. -/
def scaled (num den : Nat) (q : Int) : Nat × Nat :=
  if 0 ≤ q then (num, den * Nat.pow 2 q.toNat) else (num * Nat.pow 2 (-q).toNat, den)

/-- The nearest natural to a quotient, a half to the even neighbour. -/
def roundEven (num den : Nat) : Nat :=
  let low := num / den
  let rest := 2 * (num % den)
  if rest < den then low
  else if den < rest then low + 1
  else if low % 2 = 0 then low else low + 1

/-- The word of the number nearest to `num / den`, a half to the even neighbour, and infinity
above the largest number. -/
def nearest (f : Format) (num den : Nat) : Nat :=
  if num = 0 then 0
  else
    let guess : Int := (Nat.log2 num : Int) - (Nat.log2 den : Int) - f.fractionBits
    let q₁ := max guess (-(f.depth : Int))
    let (n₁, d₁) := scaled num den q₁
    let q := if n₁ / d₁ < Nat.pow 2 f.fractionBits then max (q₁ - 1) (-(f.depth : Int)) else q₁
    let (n, d) := scaled num den q
    min ((q + f.depth).toNat * Nat.pow 2 f.fractionBits + roundEven n d) f.infinity

/-- The word of the number nearest to `digits · 10 ^ exponent`. Exponents far outside the format
are settled without building the power. -/
def nearestDecimal (f : Format) (digits : Nat) (exponent : Int) : Nat :=
  let size : Int := (Nat.toDigits 10 digits).length
  if digits = 0 then 0
  else if 400 < exponent + size then f.infinity
  else if exponent + size < -400 then 0
  else if 0 ≤ exponent then f.nearest (digits * Nat.pow 10 exponent.toNat) 1
  else f.nearest digits (Nat.pow 10 (-exponent).toNat)

def withSign (f : Format) (negative : Bool) (word : Nat) : Nat :=
  if negative then Nat.pow 2 (f.fractionBits + f.exponentBits) + word else word

end Format

/-- The double nearest to `± digits · 10 ^ exponent`. -/
def toDouble (negative : Bool) (digits : Nat) (exponent : Int) : Float :=
  Float.ofBits (Format.double.withSign negative (Format.double.nearestDecimal digits exponent)).toUInt64

/-- The double nearest to an integer. -/
def ofInt (n : Int) : Float :=
  Float.ofBits (Format.double.withSign (n < 0) (Format.double.nearest n.natAbs 1)).toUInt64

def singleOfInt (n : Int) : Float32 :=
  Float32.ofBits (Format.single.withSign (n < 0) (Format.single.nearest n.natAbs 1)).toUInt32

def singleOfDouble (x : Float) : Float32 :=
  match Format.double.decode x.toBits.toNat with
  | .undefined => 0.0 / 0.0
  | .infinite negative =>
    Float32.ofBits (Format.single.withSign negative Format.single.infinity).toUInt32
  | .finite negative m q _ =>
    let (num, den) := Format.scaled m 1 (-q)
    Float32.ofBits (Format.single.withSign negative (Format.single.nearest num den)).toUInt32

def digitsValue (digits : List Char) : Nat :=
  digits.foldl (fun n c => 10 * n + (c.toNat - '0'.toNat)) 0

end SearchCompiler.Decimal
