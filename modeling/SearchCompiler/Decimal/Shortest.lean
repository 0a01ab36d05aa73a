import SearchCompiler.Decimal.Binary

/-!
# Shortest decimals

The fewest decimal digits that read back as a given binary number, and of those the nearest to it.
For one, two, … digits the number lies between two neighbours on the grid of decimals with so many
digits; the first grid with a neighbour that reads back wins. All arithmetic is exact.
-/

namespace SearchCompiler.Decimal

/-- Which of two equally near decimals is written. -/
inductive Tie where
  | up
  | toEven
deriving DecidableEq, Repr

/-- The reals that round to a number `mid / den`: those from `low / den` to `high / den`, the ends
included when `closed`. -/
structure Range where
  low : Nat
  mid : Nat
  high : Nat
  den : Nat
  closed : Bool
deriving Repr

namespace Range

/-- The reals that round to `m · 2 ^ q`, counted in quarters of the last place. -/
def ofBinary (m : Nat) (q : Int) (narrow : Bool) : Range :=
  let low := if narrow then 4 * m - 1 else 4 * m - 2
  let closed := m % 2 == 0
  let e := q - 2
  if 0 ≤ e then
    let s := Nat.pow 2 e.toNat
    ⟨low * s, 4 * m * s, (4 * m + 2) * s, 1, closed⟩
  else ⟨low, 4 * m, 4 * m + 2, Nat.pow 2 (-e).toNat, closed⟩

/-- The same range in units of `10 ^ u`. -/
def inUnits (r : Range) (u : Int) : Range :=
  if 0 ≤ u then { r with den := r.den * Nat.pow 10 u.toNat }
  else
    let s := Nat.pow 10 (-u).toNat
    { r with low := r.low * s, mid := r.mid * s, high := r.high * s }

def holds (r : Range) (n : Nat) : Bool :=
  if r.closed then r.low ≤ n * r.den && n * r.den ≤ r.high
  else r.low < n * r.den && n * r.den < r.high

/-- The better of the two naturals around the middle that lie in the range. -/
def hit (r : Range) (tie : Tie) : Option Nat :=
  let below := r.mid / r.den
  match r.holds below, r.holds (below + 1) with
  | false, false => none
  | true, false => some below
  | false, true => some (below + 1)
  | true, true =>
    let rest := 2 * (r.mid % r.den)
    if rest < r.den then some below
    else if r.den < rest then some (below + 1)
    else match tie with
      | .up => some (below + 1)
      | .toEven => some (if below % 2 = 0 then below else below + 1)

end Range

/-- The exponent of the first decimal digit of `num / den`. -/
def leadingExponent (num den : Nat) : Int :=
  if den ≤ num then ((Nat.toDigits 10 (num / den)).length : Int) - 1
  else
    let size := (Nat.toDigits 10 (den / num)).length
    if den ≤ num * Nat.pow 10 (size - 1) then 1 - (size : Int) else -(size : Int)

/-- Moves trailing zeros of the digits into the exponent. -/
def dropZeros : Nat → Nat → Int → Nat × Int
  | 0, digits, exponent => (digits, exponent)
  | fuel + 1, digits, exponent =>
    if digits % 10 = 0 then dropZeros fuel (digits / 10) (exponent + 1) else (digits, exponent)

/-- The shortest decimal `digits · 10 ^ exponent` that reads back as `m · 2 ^ q`; seventeen digits
always do. -/
def shortest (tie : Tie) (m : Nat) (q : Int) (narrow : Bool) : Nat × Int :=
  let r := Range.ofBinary m q narrow
  let first := leadingExponent r.mid r.den
  let found := (List.range 17).findSome? fun (n : Nat) =>
    let u := first - n
    ((r.inUnits u).hit tie).map fun digits => (digits, u)
  match found with
  | some (digits, u) => dropZeros 20 digits u
  | none => (0, 0)

end SearchCompiler.Decimal
