import SearchCompiler.Name.Codec
import SearchCompiler.Proofs.Clause

/-!
# Encoded names are a code

Encoding a name loses nothing, and what it writes is safe as the name of a backend field: letters,
digits and underscores only, and no digit in front (`encode_code`).

Decoding runs from left to right and stops at every mark `_X`. In an encoded name all these marks
are those of escapes (`marksFrom_encodeFrom`). An underscore that was kept never comes to stand in
front of an `X`: encoding looks at the character behind it, and an escape behind it begins with an
underscore (`head?_encodeFrom`).
-/

namespace SearchCompiler.Name

theorem hexValue?_digitChar {n : Nat} (digit : n < 16) : hexValue? (Nat.digitChar n) = some n := by
  have all : ∀ n : Fin 16, hexValue? (Nat.digitChar n) = some n.val := by decide
  exact all ⟨n, digit⟩

/-- The bytes are read back from their digits. -/
theorem bytesOfHex?_hexPairs (bytes : List UInt8) :
    bytesOfHex? (bytes.flatMap hexPair) = some bytes := by
  induction bytes with
  | nil => rfl
  | cons byte rest ih =>
    have small : byte.toNat < 256 := byte.toNat_lt
    have high : hexValue? (Nat.digitChar (byte.toNat / 16)) = some (byte.toNat / 16) :=
      hexValue?_digitChar (by omega)
    have low : hexValue? (Nat.digitChar (byte.toNat % 16)) = some (byte.toNat % 16) :=
      hexValue?_digitChar (by omega)
    have sum : 16 * (byte.toNat / 16) + byte.toNat % 16 = byte.toNat := by omega
    rw [List.flatMap_cons, hexPair, List.cons_append, List.cons_append, List.nil_append,
      bytesOfHex?, high, low, ih]
    change some (UInt8.ofNat (16 * (byte.toNat / 16) + byte.toNat % 16) :: rest) =
      some (byte :: rest)
    rw [sum, UInt8.ofNat_toNat]

def hexDigits (c : Char) : List Char :=
  (String.utf8EncodeChar c).flatMap hexPair

theorem escape_eq (c : Char) : escape c = '_' :: 'X' :: (hexDigits c ++ ['_']) := rfl

theorem escape_append (c : Char) (rest : List Char) :
    escape c ++ rest = '_' :: 'X' :: (hexDigits c ++ '_' :: rest) := by
  simp [escape_eq]

theorem mem_hexDigits {c d : Char} (among : d ∈ hexDigits c) : ∃ n < 16, d = Nat.digitChar n := by
  obtain ⟨byte, -, within⟩ := List.mem_flatMap.mp among
  have small : byte.toNat < 256 := byte.toNat_lt
  simp only [hexPair, List.mem_cons, List.not_mem_nil, or_false] at within
  rcases within with rfl | rfl
  · exact ⟨byte.toNat / 16, by omega, rfl⟩
  · exact ⟨byte.toNat % 16, by omega, rfl⟩

theorem isHex_hexDigits {c d : Char} (among : d ∈ hexDigits c) : isHex d = true := by
  obtain ⟨n, digit, rfl⟩ := mem_hexDigits among
  rw [isHex, hexValue?_digitChar digit]
  rfl

theorem length_hexDigits (c : Char) : (hexDigits c).length = 2 * c.utf8Size := by
  have pairs : ∀ bytes : List UInt8, (bytes.flatMap hexPair).length = 2 * bytes.length := by
    intro bytes
    induction bytes with
    | nil => rfl
    | cons byte rest ih =>
      rw [List.flatMap_cons, List.length_append, ih, List.length_cons]
      simp only [hexPair, List.length_cons, List.length_nil]
      omega
  rw [hexDigits, pairs, String.length_utf8EncodeChar]

theorem charOfBytes?_utf8EncodeChar (c : Char) :
    charOfBytes? (String.utf8EncodeChar c) = some c := by
  have decoded : ((String.utf8EncodeChar c).toByteArray ++ ByteArray.empty).utf8DecodeChar? 0 =
      some c :=
    ByteArray.utf8DecodeChar?_utf8EncodeChar_append
  rw [ByteArray.append_empty] at decoded
  rw [charOfBytes?, decoded]
  simp [String.length_utf8EncodeChar]

section

variable (c : Char) (rest : List Char)

theorem takeWhile_hexDigits : (hexDigits c ++ '_' :: rest).takeWhile isHex = hexDigits c := by
  rw [List.takeWhile_append_of_pos fun d among => isHex_hexDigits among]
  simp [show isHex '_' = false from by decide]

theorem dropWhile_hexDigits : (hexDigits c ++ '_' :: rest).dropWhile isHex = '_' :: rest := by
  rw [List.dropWhile_append_of_pos fun d among => isHex_hexDigits among]
  simp [show isHex '_' = false from by decide]

theorem escaped?_hexDigits : escaped? (hexDigits c ++ '_' :: rest) = some c := by
  have size : (hexDigits c).length ≤ 8 := by
    rw [length_hexDigits]
    have := c.utf8Size_le_four
    omega
  rw [escaped?, takeWhile_hexDigits, dropWhile_hexDigits]
  rw [if_pos ⟨size, List.head?_cons⟩, hexDigits, bytesOfHex?_hexPairs]
  exact charOfBytes?_utf8EncodeChar c

theorem afterEscape_hexDigits : afterEscape (hexDigits c ++ '_' :: rest) = rest := by
  rw [afterEscape, dropWhile_hexDigits]
  rfl

end

theorem decodeFrom_escape (c : Char) (rest : List Char) :
    decodeFrom (escape c ++ rest) = c :: decodeFrom rest := by
  rw [escape_append, decodeFrom, escaped?_hexDigits, afterEscape_hexDigits]

theorem decodeFrom_keep {c : Char} {rest : List Char} (plain : c = '_' → rest.head? ≠ some 'X') :
    decodeFrom (c :: rest) = c :: decodeFrom rest := by
  rw [decodeFrom]
  rintro after rfl rfl
  exact plain rfl rfl

/-- The rests of a name that begin with a mark at which decoding stops, from left to right. -/
def marksFrom : List Char → List (List Char)
  | [] => []
  | c :: rest =>
    match c, rest with
    | '_', 'X' :: after =>
      ('_' :: 'X' :: after) ::
        match escaped? after with
        | some _ => marksFrom (afterEscape after)
        | none => marksFrom after
    | _, rest => marksFrom rest
termination_by cs => cs.length
decreasing_by
  · have := length_afterEscape_le after
    simp only [List.length_cons]
    omega
  · simp only [List.length_cons]
    omega
  · simp only [List.length_cons]
    omega

/-- A text that begins with the escape of a character. -/
def BeginsEscape (cs : List Char) : Prop :=
  ∃ c rest, cs = escape c ++ rest

theorem marksFrom_escape (c : Char) (rest : List Char) :
    marksFrom (escape c ++ rest) = (escape c ++ rest) :: marksFrom rest := by
  rw [escape_append, marksFrom, escaped?_hexDigits, afterEscape_hexDigits]

theorem marksFrom_keep {c : Char} {rest : List Char} (plain : c = '_' → rest.head? ≠ some 'X') :
    marksFrom (c :: rest) = marksFrom rest := by
  rw [marksFrom]
  rintro after rfl rfl
  exact plain rfl rfl

theorem encodeFrom_cons (first : Bool) (c : Char) (rest : List Char) :
    encodeFrom first (c :: rest) =
      (if needsEscape first c rest.head? then escape c else [c]) ++ encodeFrom false rest := rfl

theorem encodeFrom_escape {first : Bool} {c : Char} {rest : List Char}
    (escaped : needsEscape first c rest.head? = true) :
    encodeFrom first (c :: rest) = escape c ++ encodeFrom false rest := by
  rw [encodeFrom_cons, if_pos escaped]

theorem encodeFrom_keep {first : Bool} {c : Char} {rest : List Char}
    (kept : needsEscape first c rest.head? = false) :
    encodeFrom first (c :: rest) = c :: encodeFrom false rest := by
  rw [encodeFrom_cons, kept]
  rfl

/-- A character that is kept is a letter, an underscore without an `X` behind it, or a digit that is
not the first character. -/
theorem kept_cases {first : Bool} {c : Char} {next : Option Char}
    (kept : needsEscape first c next = false) :
    c.isAlpha = true ∨ (c.isDigit = true ∧ first = false) ∨ (c = '_' ∧ next ≠ some 'X') := by
  unfold needsEscape at kept
  split at kept
  · next letter => exact .inl letter
  · split at kept
    · next digit => exact .inr (.inl ⟨digit, kept⟩)
    · split at kept
      · next underscore => exact .inr (.inr ⟨underscore, by simpa using kept⟩)
      · cases kept

/-- An encoded name begins with an `X` only where the name does. -/
theorem head?_encodeFrom (first : Bool) {cs : List Char}
    (begins : (encodeFrom first cs).head? = some 'X') : cs.head? = some 'X' := by
  cases cs with
  | nil => cases begins
  | cons c rest =>
    cases kept : needsEscape first c rest.head? with
    | true =>
      rw [encodeFrom_escape kept] at begins
      cases begins
    | false =>
      rw [encodeFrom_keep kept] at begins
      exact begins

/-- A character that is kept is no part of a mark. -/
theorem kept_plain {first : Bool} {c : Char} {rest : List Char}
    (kept : needsEscape first c rest.head? = false) :
    c = '_' → (encodeFrom false rest).head? ≠ some 'X' := by
  rintro rfl marked
  rcases kept_cases kept with letter | ⟨digit, -⟩ | ⟨-, other⟩
  · exact absurd letter (by decide)
  · exact absurd digit (by decide)
  · exact other (head?_encodeFrom false marked)

theorem decodeFrom_encodeFrom (first : Bool) (cs : List Char) :
    decodeFrom (encodeFrom first cs) = cs := by
  induction cs generalizing first with
  | nil => rw [encodeFrom, decodeFrom]
  | cons c rest ih =>
    cases kept : needsEscape first c rest.head? with
    | true => rw [encodeFrom_escape kept, decodeFrom_escape, ih]
    | false => rw [encodeFrom_keep kept, decodeFrom_keep (kept_plain kept), ih]

/-- Every mark at which decoding stops begins an escape. -/
theorem marksFrom_encodeFrom (first : Bool) (cs : List Char) :
    ∀ mark ∈ marksFrom (encodeFrom first cs), BeginsEscape mark := by
  induction cs generalizing first with
  | nil =>
    rw [encodeFrom, marksFrom]
    exact List.forall_mem_nil _
  | cons c rest ih =>
    cases kept : needsEscape first c rest.head? with
    | true =>
      rw [encodeFrom_escape kept, marksFrom_escape, List.forall_mem_cons]
      exact ⟨⟨c, _, rfl⟩, ih false⟩
    | false =>
      rw [encodeFrom_keep kept, marksFrom_keep (kept_plain kept)]
      exact ih false

theorem encodeFrom_injective {first second : Bool} {cs ds : List Char}
    (same : encodeFrom first cs = encodeFrom second ds) : cs = ds := by
  rw [← decodeFrom_encodeFrom first cs, same, decodeFrom_encodeFrom]

theorem isWordChar_escape {c d : Char} (among : d ∈ escape c) : isWordChar d = true := by
  rw [escape_eq, List.mem_cons, List.mem_cons, List.mem_append, List.mem_singleton] at among
  rcases among with rfl | rfl | digit | rfl
  · decide
  · decide
  · obtain ⟨n, small, rfl⟩ := mem_hexDigits digit
    have all : ∀ n : Fin 16, isWordChar (Nat.digitChar n) = true := by decide
    exact all ⟨n, small⟩
  · decide

theorem isWordChar_kept {first : Bool} {c : Char} {next : Option Char}
    (kept : needsEscape first c next = false) : isWordChar c = true := by
  unfold isWordChar Char.isAlphanum
  rcases kept_cases kept with letter | ⟨digit, -⟩ | ⟨rfl, -⟩
  · rw [letter]
    rfl
  · rw [digit, Bool.or_true]
    rfl
  · decide

/-- Encoded names are words. -/
theorem isWordChar_encodeFrom (first : Bool) (cs : List Char) :
    ∀ c ∈ encodeFrom first cs, isWordChar c = true := by
  induction cs generalizing first with
  | nil => exact List.forall_mem_nil _
  | cons c rest ih =>
    cases kept : needsEscape first c rest.head? with
    | true =>
      rw [encodeFrom_escape kept, List.forall_mem_append]
      exact ⟨fun d among => isWordChar_escape among, ih false⟩
    | false =>
      rw [encodeFrom_keep kept, List.forall_mem_cons]
      exact ⟨isWordChar_kept kept, ih false⟩

theorem isDigit_of_isAlpha {c : Char} (letter : c.isAlpha = true) : c.isDigit = false := by
  rw [Bool.eq_false_iff]
  intro digit
  delta Char.isAlpha Char.isUpper Char.isLower at letter
  delta Char.isDigit at digit
  simp only [Bool.or_eq_true, Bool.and_eq_true, decide_eq_true_eq, UInt32.le_iff_toNat_le,
    ge_iff_le] at letter digit
  simp at letter digit
  omega

/-- An encoded name does not begin with a digit. -/
theorem isDigit_head?_encodeFrom (cs : List Char) :
    ∀ c ∈ (encodeFrom true cs).head?, c.isDigit = false := by
  cases cs with
  | nil => nofun
  | cons c rest =>
    cases kept : needsEscape true c rest.head? with
    | true =>
      rw [encodeFrom_escape kept]
      rintro _ ⟨⟩
      decide
    | false =>
      rw [encodeFrom_keep kept]
      rintro _ ⟨⟩
      rcases kept_cases kept with letter | ⟨-, never⟩ | ⟨rfl, -⟩
      · exact isDigit_of_isAlpha letter
      · cases never
      · decide

theorem toList_encode (raw : String) : (encode raw).toList = encodeFrom true raw.toList := by
  simp [encode]

/-- Encoding is a reversible code into safe names: decoding gives the name back, so that no two
names have one encoding; the encoding consists of letters, digits and underscores and does not
begin with a digit; and every mark at which decoding it stops begins an escape. -/
theorem encode_code (raw : String) :
    decode (encode raw) = raw ∧ (∀ other, encode other = encode raw → other = raw) ∧
      IsWord (encode raw) ∧ (∀ c ∈ (encode raw).toList.head?, c.isDigit = false) ∧
      ∀ mark ∈ marksFrom (encode raw).toList, BeginsEscape mark := by
  have decoded : ∀ name, decode (encode name) = name := by
    intro name
    rw [decode, toList_encode, decodeFrom_encodeFrom, String.ofList_toList]
  refine ⟨decoded raw, fun other same => ?_, ?_, ?_, ?_⟩
  · rw [← decoded other, same, decoded raw]
  · rw [IsWord, toList_encode, List.all_eq_true]
    exact isWordChar_encodeFrom true raw.toList
  · rw [toList_encode]
    exact isDigit_head?_encodeFrom raw.toList
  · rw [toList_encode]
    exact marksFrom_encodeFrom true raw.toList

example : encode "1:é_X" = "_X31__X3a__Xc3a9__X5f_X" := by decide +kernel

end SearchCompiler.Name
