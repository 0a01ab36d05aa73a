/-!
# Encoded names

A name is made safe for the backend by replacing characters with `_X<hex>_`, where `<hex>` are the
lower-case digits of the character's bytes in UTF-8. Replaced are all characters outside
`[A-Za-z0-9_]`, a digit at the start, and an underscore in front of an `X`; so an encoded name holds
no mark `_X` but those of escapes, and decoding loses nothing. Decoding accepts every text and keeps
what is no well-formed escape.
-/

namespace SearchCompiler.Name

/-- The two lower-case hexadecimal digits of a byte. -/
def hexPair (byte : UInt8) : List Char :=
  [Nat.digitChar (byte.toNat / 16), Nat.digitChar (byte.toNat % 16)]

def escape (c : Char) : List Char :=
  '_' :: 'X' :: ((String.utf8EncodeChar c).flatMap hexPair ++ ['_'])

/-- Whether a character is replaced, given whether it is the first and which one follows. -/
def needsEscape (first : Bool) (c : Char) (next : Option Char) : Bool :=
  if c.isAlpha then false
  else if c.isDigit then first
  else if c = '_' then next == some 'X'
  else true

def encodeFrom (first : Bool) : List Char → List Char
  | [] => []
  | c :: rest =>
    (if needsEscape first c rest.head? then escape c else [c]) ++ encodeFrom false rest

def encode (name : String) : String :=
  String.ofList (encodeFrom true name.toList)

/-- The value of a lower-case hexadecimal digit. -/
def hexValue? (c : Char) : Option Nat :=
  if '0' ≤ c ∧ c ≤ '9' then some (c.toNat - '0'.toNat)
  else if 'a' ≤ c ∧ c ≤ 'f' then some (c.toNat - 'a'.toNat + 10)
  else none

def isHex (c : Char) : Bool :=
  (hexValue? c).isSome

/-- The bytes of pairs of hexadecimal digits. -/
def bytesOfHex? : List Char → Option (List UInt8)
  | [] => some []
  | [_] => none
  | a :: b :: rest => do
    return UInt8.ofNat (16 * (← hexValue? a) + (← hexValue? b)) :: (← bytesOfHex? rest)

/-- The one character that bytes encode, if they are exactly one. -/
def charOfBytes? (bytes : List UInt8) : Option Char :=
  match bytes.toByteArray.utf8DecodeChar? 0 with
  | some c => if c.utf8Size = bytes.length then some c else none
  | none => none

/-- The character of the escape whose mark has just been read: up to eight digits and an
underscore. -/
def escaped? (cs : List Char) : Option Char :=
  let digits := cs.takeWhile isHex
  if digits.length ≤ 8 ∧ (cs.dropWhile isHex).head? = some '_' then
    (bytesOfHex? digits).bind charOfBytes?
  else none

/-- What stands behind the escape whose mark has just been read. -/
def afterEscape (cs : List Char) : List Char :=
  (cs.dropWhile isHex).tail

theorem length_afterEscape_le (cs : List Char) : (afterEscape cs).length ≤ cs.length := by
  have := (List.dropWhile_suffix (l := cs) isHex).length_le
  simp only [afterEscape, List.length_tail]
  omega

def decodeFrom : List Char → List Char
  | [] => []
  | c :: rest =>
    match c, rest with
    | '_', 'X' :: after =>
      match escaped? after with
      | some d => d :: decodeFrom (afterEscape after)
      | none => '_' :: 'X' :: decodeFrom after
    | c, rest => c :: decodeFrom rest
termination_by cs => cs.length
decreasing_by
  · have := length_afterEscape_le after
    simp only [List.length_cons]
    omega
  · simp only [List.length_cons]
    omega
  · simp only [List.length_cons]
    omega

def decode (name : String) : String :=
  String.ofList (decodeFrom name.toList)

end SearchCompiler.Name
