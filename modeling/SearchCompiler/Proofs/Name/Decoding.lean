import Mathlib.Algebra.Group.Nat.Even
import SearchCompiler.Proofs.Name.Codec

/-!
# What decoding replaces

Any text can be decoded. An escape of a character (`IsEscapeOf`) is the mark `_X`, two to eight
lower-case hexadecimal digits that write out the bytes of the character in UTF-8, and an underscore.
Decoding goes through a text from left to right (`Decodes`): where an escape begins it is replaced
by its character, and reading goes on behind it; any other character stays. The decoder does just
that (`decode_eq_iff`), although it passes over the mark of a sequence that is no escape as a whole.

A sequence is an escape only if encoding writes it (`isEscapeOf_iff`): bytes that are longer than
they need to be, halves of a pair of surrogates, and the bytes of two characters are none.
-/

namespace SearchCompiler.Name

/-- The lower-case hexadecimal digits, each at the place of its value. -/
def lowerHex : List Char :=
  ['0', '1', '2', '3', '4', '5', '6', '7', '8', '9', 'a', 'b', 'c', 'd', 'e', 'f']

/-- Digits write out bytes: of every byte the high half and then the low one. -/
def WriteOut (digits : List Char) (bytes : List UInt8) : Prop :=
  digits.map lowerHex.idxOf = bytes.flatMap fun byte => [byte.toNat / 16, byte.toNat % 16]

/-- A well-formed escape of a character. -/
def IsEscapeOf (c : Char) (text : List Char) : Prop :=
  ∃ digits, text = ['_', 'X'] ++ digits ++ ['_'] ∧ (∀ d ∈ digits, d ∈ lowerHex) ∧
    Even digits.length ∧ 2 ≤ digits.length ∧ digits.length ≤ 8 ∧
    WriteOut digits (String.utf8EncodeChar c)

/-- What is read of a text, from left to right. -/
inductive Decodes : List Char → List Char → Prop where
  | nil : Decodes [] []
  /-- An escape is replaced by its character. -/
  | escape {c : Char} {text rest read : List Char} (written : IsEscapeOf c text)
      (more : Decodes rest read) : Decodes (text ++ rest) (c :: read)
  /-- A character where no escape begins stays. -/
  | keep {c : Char} {rest read : List Char}
      (plain : ¬ ∃ d text after, IsEscapeOf d text ∧ c :: rest = text ++ after)
      (more : Decodes rest read) : Decodes (c :: rest) (c :: read)

/-! ### Escapes are what encoding writes -/

theorem lowerHex_eq : lowerHex = (List.range 16).map Nat.digitChar := rfl

theorem idxOf_digitChar {n : Nat} (digit : n < 16) : lowerHex.idxOf (Nat.digitChar n) = n := by
  have all : ∀ n : Fin 16, lowerHex.idxOf (Nat.digitChar n) = n.val := by decide
  exact all ⟨n, digit⟩

theorem digitChar_idxOf {d : Char} (digit : d ∈ lowerHex) :
    Nat.digitChar (lowerHex.idxOf d) = d := by
  rw [lowerHex_eq, List.mem_map] at digit
  obtain ⟨n, small, rfl⟩ := digit
  rw [idxOf_digitChar (List.mem_range.mp small)]

theorem writeOut_hexDigits (c : Char) : WriteOut (hexDigits c) (String.utf8EncodeChar c) := by
  rw [WriteOut, hexDigits, List.map_flatMap]
  congr 1
  funext byte
  have small : byte.toNat < 256 := byte.toNat_lt
  rw [hexPair, List.map_cons, List.map_cons, List.map_nil, idxOf_digitChar (by omega),
    idxOf_digitChar (by omega)]

/-- Bytes are written out in one way. -/
theorem WriteOut.eq_flatMap {digits : List Char} {bytes : List UInt8}
    (written : WriteOut digits bytes) (hex : ∀ d ∈ digits, d ∈ lowerHex) :
    digits = bytes.flatMap hexPair := by
  have values : (digits.map lowerHex.idxOf).map Nat.digitChar = digits := by
    rw [List.map_map]
    exact (List.map_congr_left fun d among => digitChar_idxOf (hex d among)).trans (List.map_id _)
  rw [← values, written, List.map_flatMap]
  rfl

/-- The escapes of a character are the one that encoding writes for it. -/
theorem isEscapeOf_iff {c : Char} {text : List Char} : IsEscapeOf c text ↔ text = escape c := by
  constructor
  · rintro ⟨digits, rfl, hex, -, -, -, written⟩
    rw [escape_eq, hexDigits, ← written.eq_flatMap hex]
    rfl
  · rintro rfl
    have size := length_hexDigits c
    have some_bytes := c.utf8Size_pos
    have few_bytes := c.utf8Size_le_four
    refine ⟨hexDigits c, rfl, fun d among => ?_, ⟨c.utf8Size, by omega⟩, by omega, by omega,
      writeOut_hexDigits c⟩
    obtain ⟨n, small, rfl⟩ := mem_hexDigits among
    exact List.mem_map_of_mem (List.mem_range.mpr small)

/-- An escape begins a text iff a well-formed one stands in front. -/
theorem beginsEscape_iff {cs : List Char} :
    BeginsEscape cs ↔ ∃ d text after, IsEscapeOf d text ∧ cs = text ++ after := by
  simp only [isEscapeOf_iff]
  constructor
  · rintro ⟨c, rest, rfl⟩
    exact ⟨c, _, rest, rfl, rfl⟩
  · rintro ⟨d, _, after, rfl, rfl⟩
    exact ⟨d, after, rfl⟩

/-! ### The decoder recognises just the escapes -/

theorem digitChar_of_hexValue? {d : Char} {n : Nat} (value : hexValue? d = some n) :
    n < 16 ∧ d = Nat.digitChar n := by
  have letters : ∀ k : Fin 6, (Nat.digitChar (10 + k)).toNat = 97 + k := by decide
  unfold hexValue? at value
  simp only [Char.le_def, UInt32.le_iff_toNat_le] at value
  split at value
  · next digit =>
    obtain ⟨low, high⟩ := digit
    change 48 ≤ d.toNat at low
    change d.toNat ≤ 57 at high
    change some (d.toNat - 48) = some n at value
    obtain rfl := Option.some.inj value
    refine ⟨by omega, Char.toNat_inj.mp ?_⟩
    rw [Nat.toNat_digitChar_of_lt_ten (by omega)]
    omega
  · split at value
    · next digit =>
      obtain ⟨low, high⟩ := digit
      change 97 ≤ d.toNat at low
      change d.toNat ≤ 102 at high
      change some (d.toNat - 97 + 10) = some n at value
      obtain rfl := Option.some.inj value
      refine ⟨by omega, Char.toNat_inj.mp ?_⟩
      have letter := letters ⟨d.toNat - 97, by omega⟩
      rw [Nat.add_comm, letter]
      dsimp only
      omega
    · cases value

/-- Bytes are read of the pairs of digits that they are written as, and of no others. -/
theorem eq_flatMap_of_bytesOfHex? {digits : List Char} {bytes : List UInt8}
    (read : bytesOfHex? digits = some bytes) : digits = bytes.flatMap hexPair := by
  induction digits using bytesOfHex?.induct generalizing bytes with
  | case1 =>
    cases read
    rfl
  | case2 => cases read
  | case3 high low rest ih =>
    simp only [bytesOfHex?, Option.bind_eq_bind, Option.bind_eq_some_iff, Option.pure_def,
      Option.some.injEq] at read
    obtain ⟨m, first, n, second, others, more, rfl⟩ := read
    obtain ⟨small, rfl⟩ := digitChar_of_hexValue? first
    obtain ⟨small', rfl⟩ := digitChar_of_hexValue? second
    have value : (UInt8.ofNat (16 * m + n)).toNat = 16 * m + n := by
      rw [UInt8.toNat_ofNat']
      omega
    have high : (16 * m + n) / 16 = m := by omega
    have low : (16 * m + n) % 16 = n := by omega
    rw [List.flatMap_cons, hexPair, value, high, low, ← ih more]
    rfl

theorem utf8EncodeChar_of_charOfBytes? {bytes : List UInt8} {c : Char}
    (read : charOfBytes? bytes = some c) : bytes = String.utf8EncodeChar c := by
  unfold charOfBytes? at read
  split at read
  · next d first =>
    split at read
    · next size =>
      obtain rfl := Option.some.inj read
      have whole := String.toByteArray_utf8EncodeChar_of_utf8DecodeChar?_eq_some first
      rw [size, ← List.size_toByteArray, ByteArray.extract_zero_size] at whole
      exact (List.toByteArray_inj.mp whole).symm
    · cases read
  · cases read

/-- Behind a mark the decoder finds the character whose escape stands there, and no other. -/
theorem escaped?_eq_some_iff {cs : List Char} {c : Char} :
    escaped? cs = some c ↔ ∃ rest, cs = hexDigits c ++ '_' :: rest := by
  constructor
  · intro found
    unfold escaped? at found
    dsimp only at found
    split at found
    · next shape =>
      obtain ⟨bytes, digits, char⟩ := Option.bind_eq_some_iff.mp found
      obtain ⟨rest, behind⟩ := List.head?_eq_some_iff.mp shape.2
      refine ⟨rest, ?_⟩
      rw [hexDigits, ← utf8EncodeChar_of_charOfBytes? char, ← eq_flatMap_of_bytesOfHex? digits,
        ← behind, List.takeWhile_append_dropWhile]
    · cases found
  · rintro ⟨rest, rfl⟩
    exact escaped?_hexDigits c rest

/-- Decoding stops at a mark iff an escape begins there. -/
theorem beginsEscape_mark_iff {after : List Char} :
    BeginsEscape ('_' :: 'X' :: after) ↔ ∃ c, escaped? after = some c := by
  simp only [escaped?_eq_some_iff]
  constructor
  · rintro ⟨c, rest, begins⟩
    rw [escape_append] at begins
    exact ⟨c, rest, List.tail_eq_of_cons_eq (List.tail_eq_of_cons_eq begins)⟩
  · rintro ⟨c, rest, rfl⟩
    exact ⟨c, rest, (escape_append c rest).symm⟩

/-- A character where no escape begins is kept. Behind a mark that begins none, the decoder goes on
behind the `X`, where no escape begins either. -/
theorem decodeFrom_plain {c : Char} {rest : List Char} (plain : ¬ BeginsEscape (c :: rest)) :
    decodeFrom (c :: rest) = c :: decodeFrom rest := by
  by_cases mark : c = '_' ∧ rest.head? = some 'X'
  · obtain ⟨rfl, first⟩ := mark
    obtain ⟨after, rfl⟩ := List.head?_eq_some_iff.mp first
    have none_found : escaped? after = none :=
      Option.eq_none_iff_forall_ne_some.mpr fun d found =>
        plain (beginsEscape_mark_iff.mpr ⟨d, found⟩)
    have other : 'X' ≠ '_' := by decide
    rw [decodeFrom, none_found, decodeFrom_keep fun same => absurd same other]
  · exact decodeFrom_keep fun underscore first => mark ⟨underscore, first⟩

/-! ### Decoding as a whole -/

/-- Every text can be decoded, into what the decoder gives. -/
theorem decodes_decodeFrom (cs : List Char) : Decodes cs (decodeFrom cs) := by
  induction size : cs.length using Nat.strong_induction_on generalizing cs with
  | h n ih =>
    subst size
    by_cases begins : BeginsEscape cs
    · obtain ⟨c, rest, rfl⟩ := begins
      rw [decodeFrom_escape]
      refine .escape (isEscapeOf_iff.mpr rfl) (ih _ ?_ rest rfl)
      rw [escape_append]
      simp only [List.length_cons, List.length_append]
      omega
    · cases cs with
      | nil =>
        rw [decodeFrom]
        exact .nil
      | cons c rest =>
        rw [decodeFrom_plain begins]
        exact .keep (beginsEscape_iff.not.mp begins) (ih _ (Nat.lt_succ_self _) rest rfl)

/-- A text is decoded in one way. -/
theorem Decodes.eq_decodeFrom {cs read : List Char} (decodes : Decodes cs read) :
    read = decodeFrom cs := by
  induction decodes with
  | nil => rw [decodeFrom]
  | escape written _ ih =>
    obtain rfl := isEscapeOf_iff.mp written
    rw [decodeFrom_escape, ih]
  | keep plain _ ih => rw [decodeFrom_plain (beginsEscape_iff.not.mpr plain), ih]

/-- Decoding a text gives the text in which, from left to right, every escape is replaced by its
character and any other character stays. -/
theorem decode_eq_iff (text decoded : String) :
    decode text = decoded ↔ Decodes text.toList decoded.toList := by
  rw [← String.toList_inj, decode, String.toList_ofList]
  constructor
  · intro same
    rw [← same]
    exact decodes_decodeFrom text.toList
  · intro decodes
    exact decodes.eq_decodeFrom.symm

example : decode "_X_X3a__Xc080__X3a3a_" = "_X:_Xc080__X3a3a_" := by decide +kernel

end SearchCompiler.Name
