import SearchCompiler.Proofs.Keys.Spans
import SearchCompiler.Proofs.Name.Codec

/-!
# Names that need no encoding

A name is plain if it consists of letters, digits and underscores, does not begin with a digit and
holds no mark `_X`. Encoding leaves plain names as they are and makes any other name longer, in
characters as well as in bytes (`encode_plain_iff`): an escape has at least five characters in place
of one, and no character is ever taken away (`encodeFrom_grows`).
-/

namespace SearchCompiler.Name

open Keys (bytes bytes_cons bytes_append utf8ByteSize_eq_bytes)

/-- Characters of a plain name; at the start of a name no digit may stand. -/
structure IsPlainFrom (first : Bool) (cs : List Char) : Prop where
  word : ∀ c ∈ cs, isWordChar c = true
  start : first = true → ∀ c ∈ cs.head?, c.isDigit = false
  unmarked : ¬ ['_', 'X'] <:+: cs

/-- A name of letters, digits and underscores that does not begin with a digit and holds no mark of
an escape. -/
def IsPlain (name : String) : Prop :=
  IsWord name ∧ (∀ c ∈ name.toList.head?, c.isDigit = false) ∧ ¬ ['_', 'X'] <:+: name.toList

theorem isPlain_iff {name : String} : IsPlain name ↔ IsPlainFrom true name.toList := by
  rw [IsPlain, IsWord, List.all_eq_true]
  constructor
  · rintro ⟨word, start, unmarked⟩
    exact ⟨word, fun _ => start, unmarked⟩
  · rintro ⟨word, start, unmarked⟩
    exact ⟨word, start rfl, unmarked⟩

/-! ### Encoding never shortens -/

theorem length_escape (c : Char) : (escape c).length = 2 * c.utf8Size + 3 := by
  rw [escape_eq]
  simp only [List.length_cons, List.length_append, List.length_nil, length_hexDigits]

theorem length_le_bytes (cs : List Char) : cs.length ≤ bytes cs := by
  induction cs with
  | nil => exact Nat.le_refl _
  | cons c rest ih =>
    have some_bytes := c.utf8Size_pos
    rw [bytes_cons, List.length_cons]
    omega

/-- Some characters are more than others, and so are their bytes. -/
def IsLonger (ds cs : List Char) : Prop :=
  cs.length < ds.length ∧ bytes cs < bytes ds

/-- An escape is longer than its character, so that one escape makes a name longer if the rest does
not become shorter. -/
theorem isLonger_escape (c : Char) {cs ds : List Char} (kept : ds = cs ∨ IsLonger ds cs) :
    IsLonger (escape c ++ ds) (c :: cs) := by
  have some_bytes := c.utf8Size_pos
  have size := length_escape c
  have least := length_le_bytes (escape c)
  have rest : cs.length ≤ ds.length ∧ bytes cs ≤ bytes ds := by
    rcases kept with rfl | ⟨longer, more⟩
    · exact ⟨Nat.le_refl _, Nat.le_refl _⟩
    · exact ⟨longer.le, more.le⟩
  rw [IsLonger, bytes_append, bytes_cons, List.length_append, List.length_cons]
  omega

/-- Encoding leaves characters as they are or makes them longer. -/
theorem encodeFrom_grows (first : Bool) (cs : List Char) :
    encodeFrom first cs = cs ∨ IsLonger (encodeFrom first cs) cs := by
  induction cs generalizing first with
  | nil => exact .inl rfl
  | cons c rest ih =>
    cases kept : needsEscape first c rest.head? with
    | true =>
      rw [encodeFrom_escape kept]
      exact .inr (isLonger_escape c (ih false))
    | false =>
      rw [encodeFrom_keep kept]
      rcases ih false with same | ⟨longer, more⟩
      · exact .inl (congrArg (c :: ·) same)
      · exact .inr ⟨Nat.succ_lt_succ longer, Nat.add_lt_add_left more _⟩

/-! ### What is left as it is -/

/-- A character is kept iff it needs no escape, and the rest is kept. -/
theorem encodeFrom_cons_eq_self_iff {first : Bool} {c : Char} {rest : List Char} :
    encodeFrom first (c :: rest) = c :: rest ↔
      needsEscape first c rest.head? = false ∧ encodeFrom false rest = rest := by
  cases kept : needsEscape first c rest.head? with
  | true =>
    have longer := isLonger_escape c (encodeFrom_grows false rest)
    refine iff_of_false (fun same => ?_) (by rintro ⟨⟨⟩, -⟩)
    rw [← encodeFrom_escape kept, same] at longer
    exact Nat.lt_irrefl _ longer.1
  | false => rw [encodeFrom_keep kept, List.cons_inj_right, and_iff_right rfl]

/-- A character stays as it is if it may occur in a name, is no digit at the start and begins no
mark. -/
theorem needsEscape_eq_false_iff {first : Bool} {c : Char} {next : Option Char} :
    needsEscape first c next = false ↔
      isWordChar c = true ∧ (first = true → c.isDigit = false) ∧ (c = '_' → next ≠ some 'X') := by
  constructor
  · intro kept
    refine ⟨isWordChar_kept kept, ?_, ?_⟩
    · rintro rfl
      rcases kept_cases kept with letter | ⟨-, never⟩ | ⟨rfl, -⟩
      · exact isDigit_of_isAlpha letter
      · cases never
      · decide
    · rintro rfl
      rcases kept_cases kept with letter | ⟨digit, -⟩ | ⟨-, unmarked⟩
      · exact absurd letter (by decide)
      · exact absurd digit (by decide)
      · exact unmarked
  · rintro ⟨word, start, unmarked⟩
    unfold needsEscape
    split
    · rfl
    · next noLetter =>
      split
      · next digit =>
        cases first with
        | true => exact digit.symm.trans (start rfl)
        | false => rfl
      · next noDigit =>
        have underscore : c = '_' := by
          simpa [isWordChar, Char.isAlphanum, noLetter, noDigit] using word
        rw [if_pos underscore]
        exact beq_eq_false_iff_ne.mpr (unmarked underscore)

theorem mark_prefix_iff {c : Char} {rest : List Char} :
    ['_', 'X'] <+: c :: rest ↔ c = '_' ∧ rest.head? = some 'X' := by
  rw [List.cons_prefix_cons, List.head?_eq_some_iff, eq_comm]
  refine and_congr_right fun _ => ?_
  constructor
  · rintro ⟨after, rfl⟩
    exact ⟨after, rfl⟩
  · rintro ⟨after, rfl⟩
    exact ⟨after, rfl⟩

/-- Plain names from left to right. -/
theorem isPlainFrom_cons_iff {first : Bool} {c : Char} {rest : List Char} :
    IsPlainFrom first (c :: rest) ↔
      needsEscape first c rest.head? = false ∧ IsPlainFrom false rest := by
  rw [needsEscape_eq_false_iff]
  constructor
  · rintro ⟨word, start, unmarked⟩
    obtain ⟨own, others⟩ := List.forall_mem_cons.mp word
    rw [List.infix_cons_iff, not_or, mark_prefix_iff] at unmarked
    exact ⟨⟨own, fun leading => start leading c rfl, fun underscore marked =>
      unmarked.1 ⟨underscore, marked⟩⟩, others, nofun, unmarked.2⟩
  · rintro ⟨⟨own, start, unmarked⟩, others, -, rest_unmarked⟩
    refine ⟨List.forall_mem_cons.mpr ⟨own, others⟩, ?_, ?_⟩
    · rintro leading _ ⟨⟩
      exact start leading
    · rw [List.infix_cons_iff, not_or, mark_prefix_iff]
      exact ⟨fun marked => unmarked marked.1 marked.2, rest_unmarked⟩

theorem encodeFrom_eq_self_iff (first : Bool) (cs : List Char) :
    encodeFrom first cs = cs ↔ IsPlainFrom first cs := by
  induction cs generalizing first with
  | nil => exact iff_of_true rfl ⟨List.forall_mem_nil _, fun _ => nofun, by simp⟩
  | cons c rest ih => rw [encodeFrom_cons_eq_self_iff, isPlainFrom_cons_iff, ih]

/-- Encoding leaves a name as it is iff the name is plain; iff it is not, the encoded name is
longer, in characters and in bytes. -/
theorem encode_plain_iff (name : String) :
    (encode name = name ↔ IsPlain name) ∧
      (¬ IsPlain name ↔
        name.length < (encode name).length ∧ name.utf8ByteSize < (encode name).utf8ByteSize) := by
  have same : encode name = name ↔ encodeFrom true name.toList = name.toList := by
    rw [← String.toList_inj, toList_encode]
  rw [isPlain_iff, ← encodeFrom_eq_self_iff, same, ← String.length_toList, ← String.length_toList,
    utf8ByteSize_eq_bytes, utf8ByteSize_eq_bytes, toList_encode]
  refine ⟨.rfl, fun changed => (encodeFrom_grows true _).resolve_left changed, ?_⟩
  rintro ⟨longer, -⟩ unchanged
  rw [unchanged] at longer
  exact Nat.lt_irrefl _ longer

end SearchCompiler.Name
