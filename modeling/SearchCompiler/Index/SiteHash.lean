/-!
# Site hashes

Sites that share a backend are told apart by a short hash of their names: the SipHash-1-3 digest of
the name's bytes under the zero key, of which the last six digits to the base 36 are kept.
-/

namespace SearchCompiler.Index

/-- The four words of the state of the hash. -/
structure SipState where
  v0 : UInt64
  v1 : UInt64
  v2 : UInt64
  v3 : UInt64

namespace SipState

def rotate (x : UInt64) (n : UInt64) : UInt64 :=
  (x <<< n) ||| (x >>> (64 - n))

/-- The state for the zero key. -/
def initial : SipState :=
  ⟨0x736f6d6570736575, 0x646f72616e646f6d, 0x6c7967656e657261, 0x7465646279746573⟩

def round (s : SipState) : SipState :=
  let v0 := s.v0 + s.v1
  let v1 := rotate s.v1 13 ^^^ v0
  let v0 := rotate v0 32
  let v2 := s.v2 + s.v3
  let v3 := rotate s.v3 16 ^^^ v2
  let v0 := v0 + v3
  let v3 := rotate v3 21 ^^^ v0
  let v2 := v2 + v1
  let v1 := rotate v1 17 ^^^ v2
  let v2 := rotate v2 32
  ⟨v0, v1, v2, v3⟩

/-- Takes in a word with one round. -/
def absorb (s : SipState) (word : UInt64) : SipState :=
  let s := round { s with v3 := s.v3 ^^^ word }
  { s with v0 := s.v0 ^^^ word }

/-- The digest after three closing rounds. -/
def finish (s : SipState) : UInt64 :=
  let s := round (round (round { s with v2 := s.v2 ^^^ 0xff }))
  s.v0 ^^^ s.v1 ^^^ s.v2 ^^^ s.v3

end SipState

/-- The word of up to eight bytes, least significant first. -/
def littleEndian (bytes : List UInt8) : UInt64 :=
  bytes.foldr (fun b acc => (acc <<< 8) ||| b.toUInt64) 0

/-- Takes in bytes eight at a time; the last word holds the rest and, on top, the length. -/
def absorbAll (s : SipState) (total : Nat) (bytes : List UInt8) : SipState :=
  if _h : 8 ≤ bytes.length then
    absorbAll (s.absorb (littleEndian (bytes.take 8))) total (bytes.drop 8)
  else s.absorb (littleEndian bytes ||| (UInt64.ofNat (total % 256) <<< 56))
termination_by bytes.length
decreasing_by simp only [List.length_drop]; omega

/-- The digest of bytes under the zero key. -/
def digest (bytes : List UInt8) : UInt64 :=
  (absorbAll .initial bytes.length bytes).finish

/-- The last `count` digits of a number to the base 36. -/
def lastDigits : Nat → Nat → List Char
  | 0, _ => []
  | count + 1, n =>
    let d := n % 36
    lastDigits count (n / 36) ++
      [if d < 10 then Char.ofNat ('0'.toNat + d) else Char.ofNat ('a'.toNat + (d - 10))]

def siteHash (name : String) : String :=
  String.ofList (lastDigits 6 (digest name.toUTF8.toList).toNat)

end SearchCompiler.Index
