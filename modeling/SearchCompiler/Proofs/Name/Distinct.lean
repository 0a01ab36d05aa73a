import SearchCompiler.Name.Special
import SearchCompiler.Proofs.Name.Codec

/-!
# When two fields share a name

A derived name is the mark of the type, the encoded language of a text field, an underscore and the
encoded id. The mark is read off the name, so that fields of one name have one mark. Behind it the
name tells language and id apart but for one case: the underscore in front of an id is written as it
is, and with an id that begins with `X` it makes a mark of an escape that was never written. Two
fields share a name exactly when they agree in mark, id and language, or when the id of one spells
the rest of the language and the id of the other (`fieldName_eq_iff`). Ids that do not begin with
`X` never do that.
-/

namespace SearchCompiler.Name

/-- A field whose name is derived: its id is not reserved and it has no pinned name. -/
structure IsDerived (field : Field) : Prop where
  own : field.id ∉ reservedIds
  free : field.pinned = none

/-- The language that a derived name holds, behind a semicolon; nothing where it holds none. -/
def languageKey (field : Field) (language : LanguageId) : List Char :=
  if field.isText && language ≠ LanguageId.unspecified then ';' :: language.text.toList else []

/-- The id of one field spells in its encoding what the language of the other has beyond its own,
and the id of the other. -/
def Overlaps (field : Field) (language : LanguageId) (other : Field) (language' : LanguageId) :
    Prop :=
  ∃ beyond, beyond ≠ [] ∧ languageKey other language' = languageKey field language ++ beyond ∧
    '_' :: (encode field.id).toList = encodeFrom false beyond ++ '_' :: (encode other.id).toList

theorem nameOf?_eq_none {special : Special} {id : String} (own : id ∉ reservedIds) :
    special.nameOf? id = none := by
  simp only [reservedIds, List.mem_cons, List.not_mem_nil, or_false, not_or] at own
  obtain ⟨item, relevance, language, datasource⟩ := own
  rw [Special.nameOf?, if_neg item, if_neg relevance, if_neg language, if_neg datasource]

theorem fieldName_eq_derived (special : Special) {field : Field} (own : IsDerived field)
    (language : LanguageId) : special.fieldName field language = derived field language := by
  rw [Special.fieldName, nameOf?_eq_none own.own, own.free]
  rfl

/-! ### Parts of a name -/

def NoUnderscore (cs : List Char) : Prop :=
  ∀ c ∈ cs, c ≠ '_'

theorem noUnderscore_language (language : LanguageId) : NoUnderscore language.text.toList := by
  rintro c among rfl
  have plain : isLanguageChar '_' = true := List.all_eq_true.mp language.plain _ among
  exact absurd plain (by decide)

theorem noUnderscore_languageKey (field : Field) (language : LanguageId) :
    NoUnderscore (languageKey field language) := by
  unfold languageKey
  split
  · refine List.forall_mem_cons.mpr ⟨by decide, noUnderscore_language language⟩
  · exact List.forall_mem_nil _

theorem noUnderscore_typeMark (type : DataType) (cardinality : Cardinality) :
    NoUnderscore (typeMark type cardinality).toList := by
  have plain : (typeMark type cardinality).toList.all (· != '_') = true := by
    cases type <;> cases cardinality <;> rfl
  intro c among
  simpa using List.all_eq_true.mp plain c among

theorem typeMark_isText (type : DataType) (cardinality : Cardinality) :
    type.isText = ((typeMark type cardinality).toList.head? == some 't') := by
  cases type <;> cases cardinality <;> decide

/-- Whether a character other than the underscore is escaped inside a name does not depend on what
follows it. -/
theorem needsEscape_next {c : Char} (other : c ≠ '_') (next next' : Option Char) :
    needsEscape false c next = needsEscape false c next' := by
  rw [needsEscape, needsEscape, if_neg other, if_neg other]

theorem encodeFrom_append {cs : List Char} (plain : NoUnderscore cs) (ds : List Char) :
    encodeFrom false (cs ++ ds) = encodeFrom false cs ++ encodeFrom false ds := by
  induction cs with
  | nil => rfl
  | cons c rest ih =>
    obtain ⟨other, inner⟩ := List.forall_mem_cons.mp plain
    rw [List.cons_append, encodeFrom_cons, encodeFrom_cons, ih inner,
      needsEscape_next other (rest ++ ds).head? rest.head?, List.append_assoc]

/-- The escape of the semicolon does not depend on its place. -/
theorem encodeFrom_languageKey (field : Field) (language : LanguageId) :
    encodeFrom true (languageKey field language) =
      encodeFrom false (languageKey field language) := by
  unfold languageKey
  split
  · rfl
  · rfl

/-- A derived name: its mark, the encoded language and, behind an underscore, the encoded id. -/
theorem toList_derived (field : Field) (language : LanguageId) :
    (derived field language).toList = (typeMark field.type field.cardinality).toList ++
      (encodeFrom false (languageKey field language) ++ '_' :: (encode field.id).toList) := by
  have segment : (if field.isText && language ≠ LanguageId.unspecified then languageSegment language
      else "").toList = encodeFrom false (languageKey field language) := by
    rw [← encodeFrom_languageKey, languageKey]
    split
    · rw [languageSegment, toList_encode, String.toList_append]
      rfl
    · rfl
  unfold derived
  dsimp only
  rw [String.toList_append, String.toList_append, String.toList_append, segment, List.append_assoc,
    List.append_assoc]
  rfl

/-- A character without a mark of its own is told from another one, and what follows it as well. -/
theorem encodeFrom_cons_inj {c d : Char} (first : c ≠ '_') (second : d ≠ '_')
    {cs ds tail tail' : List Char}
    (same : encodeFrom false (c :: cs) ++ tail = encodeFrom false (d :: ds) ++ tail') :
    c = d ∧ encodeFrom false cs ++ tail = encodeFrom false ds ++ tail' := by
  cases kept : needsEscape false c cs.head? with
  | true =>
    rw [encodeFrom_escape kept, List.append_assoc, escape_append] at same
    cases kept' : needsEscape false d ds.head? with
    | true =>
      rw [encodeFrom_escape kept', List.append_assoc, escape_append, List.cons_inj_right,
        List.cons_inj_right] at same
      have char := congrArg escaped? same
      have rest := congrArg afterEscape same
      rw [escaped?_hexDigits, escaped?_hexDigits, Option.some_inj] at char
      rw [afterEscape_hexDigits, afterEscape_hexDigits] at rest
      exact ⟨char, rest⟩
    | false =>
      rw [encodeFrom_keep kept', List.cons_append, List.cons.injEq] at same
      exact absurd same.1.symm second
  | false =>
    rw [encodeFrom_keep kept, List.cons_append] at same
    cases kept' : needsEscape false d ds.head? with
    | true =>
      rw [encodeFrom_escape kept', List.append_assoc, escape_append, List.cons.injEq] at same
      exact absurd same.1 first
    | false =>
      rw [encodeFrom_keep kept', List.cons_append, List.cons.injEq] at same
      exact same

/-- Two encoded lists in front of an underscore agree in what they have in common; the rest of the
longer one is spelled by what follows the shorter one. -/
theorem encodeFrom_eq_iff {cs ds : List Char} (first : NoUnderscore cs) (second : NoUnderscore ds)
    (a b : List Char) :
    encodeFrom false cs ++ '_' :: a = encodeFrom false ds ++ '_' :: b ↔
      (∃ beyond, ds = cs ++ beyond ∧ '_' :: a = encodeFrom false beyond ++ '_' :: b) ∨
      ∃ beyond, cs = ds ++ beyond ∧ '_' :: b = encodeFrom false beyond ++ '_' :: a := by
  constructor
  · intro same
    induction cs generalizing ds with
    | nil => exact .inl ⟨ds, rfl, same⟩
    | cons c cs ih =>
      cases ds with
      | nil => exact .inr ⟨c :: cs, rfl, same.symm⟩
      | cons d ds =>
        obtain ⟨notFirst, inner⟩ := List.forall_mem_cons.mp first
        obtain ⟨notSecond, inner'⟩ := List.forall_mem_cons.mp second
        obtain ⟨rfl, rest⟩ := encodeFrom_cons_inj notFirst notSecond same
        rcases ih inner inner' rest with ⟨beyond, rfl, spelled⟩ | ⟨beyond, rfl, spelled⟩
        · exact .inl ⟨beyond, rfl, spelled⟩
        · exact .inr ⟨beyond, rfl, spelled⟩
  · rintro (⟨beyond, rfl, spelled⟩ | ⟨beyond, rfl, spelled⟩)
    · rw [encodeFrom_append first, spelled, List.append_assoc]
    · rw [encodeFrom_append second, spelled, List.append_assoc]

/-- What begins with an underscore is cut off from what has none. -/
theorem append_underscore_inj {cs ds a b : List Char} (first : NoUnderscore cs)
    (second : NoUnderscore ds) (begins : a.head? = some '_') (begins' : b.head? = some '_') :
    cs ++ a = ds ++ b ↔ cs = ds ∧ a = b := by
  constructor
  · intro same
    induction cs generalizing ds with
    | nil =>
      cases ds with
      | nil => exact ⟨rfl, same⟩
      | cons d ds =>
        rw [List.nil_append] at same
        rw [same, List.cons_append, List.head?_cons, Option.some_inj] at begins
        exact absurd begins (second d List.mem_cons_self)
    | cons c cs ih =>
      cases ds with
      | nil =>
        rw [List.nil_append] at same
        rw [← same, List.cons_append, List.head?_cons, Option.some_inj] at begins'
        exact absurd begins' (first c List.mem_cons_self)
      | cons d ds =>
        rw [List.cons_append, List.cons_append, List.cons.injEq] at same
        obtain ⟨rfl, rest⟩ := same
        obtain ⟨rfl, tails⟩ := ih (List.forall_mem_cons.mp first).2
          (List.forall_mem_cons.mp second).2 rest
        exact ⟨rfl, tails⟩
  · rintro ⟨rfl, rfl⟩
    rfl

theorem head?_languageKey (field : Field) (language : LanguageId) (tail : List Char) :
    (encodeFrom false (languageKey field language) ++ '_' :: tail).head? = some '_' := by
  unfold languageKey
  split <;> rfl

/-! ### Equal names -/

/-- Fields of one mark have one language in their names iff they are no text fields or the languages
are the same. -/
theorem languageKey_eq_iff {field other : Field} (texts : field.isText = other.isText)
    (language language' : LanguageId) :
    languageKey other language' = languageKey field language ↔
      (field.isText = true → language = language') := by
  unfold languageKey
  rw [← texts]
  cases field.isText with
  | false => simp
  | true =>
    have ext : language'.text.toList = language.text.toList ↔ language = language' := by
      rw [String.toList_inj]
      constructor
      · intro same
        cases language
        cases language'
        cases same
        rfl
      · rintro rfl
        rfl
    by_cases first : language = LanguageId.unspecified
    · by_cases second : language' = LanguageId.unspecified
      · simp [first, second]
      · simp [first, second, Ne.symm second]
    · by_cases second : language' = LanguageId.unspecified
      · simp [first, second]
      · simp [first, second, ext]

/-- When two derived names are the same. -/
theorem derived_eq_iff (field other : Field) (language language' : LanguageId) :
    derived field language = derived other language' ↔
      typeMark field.type field.cardinality = typeMark other.type other.cardinality ∧
        ((field.id = other.id ∧ (field.isText = true → language = language')) ∨
          Overlaps field language other language' ∨ Overlaps other language' field language) := by
  have ids : (encode field.id).toList = (encode other.id).toList ↔ field.id = other.id := by
    constructor
    · rw [toList_encode, toList_encode]
      exact fun same => String.toList_injective (encodeFrom_injective same)
    · exact fun same => by rw [same]
  rw [← String.toList_inj, toList_derived, toList_derived,
    append_underscore_inj (noUnderscore_typeMark _ _) (noUnderscore_typeMark _ _)
      (head?_languageKey _ _ _) (head?_languageKey _ _ _), String.toList_inj]
  refine and_congr_right fun marks => ?_
  have texts : field.isText = other.isText := by
    rw [Field.isText, Field.isText, typeMark_isText _ field.cardinality, marks, ← typeMark_isText]
  rw [encodeFrom_eq_iff (noUnderscore_languageKey _ _) (noUnderscore_languageKey _ _),
    ← languageKey_eq_iff texts, ← ids]
  -- Nothing beyond the common part means equal languages and equal ids, in both orders.
  constructor
  · rintro (⟨beyond, longer, spelled⟩ | ⟨beyond, longer, spelled⟩)
    · cases beyond with
      | nil =>
        rw [List.append_nil] at longer
        exact .inl ⟨(List.cons.inj spelled).2, longer⟩
      | cons c rest => exact .inr (.inl ⟨c :: rest, by simp, longer, spelled⟩)
    · cases beyond with
      | nil =>
        rw [List.append_nil] at longer
        exact .inl ⟨(List.cons.inj spelled).2.symm, longer.symm⟩
      | cons c rest => exact .inr (.inr ⟨c :: rest, by simp, longer, spelled⟩)
  · rintro (⟨same, keys⟩ | ⟨beyond, -, longer, spelled⟩ | ⟨beyond, -, longer, spelled⟩)
    · exact .inl ⟨[], by rw [keys, List.append_nil], by rw [same]; rfl⟩
    · exact .inl ⟨beyond, longer, spelled⟩
    · exact .inr ⟨beyond, longer, spelled⟩

/-- Only an id that begins with `X` can spell the name of another field. -/
theorem Overlaps.head? {field other : Field} {language language' : LanguageId}
    (overlaps : Overlaps field language other language') : field.id.toList.head? = some 'X' := by
  obtain ⟨beyond, nonempty, longer, spelled⟩ := overlaps
  obtain ⟨c, rest, rfl⟩ := List.exists_cons_of_ne_nil nonempty
  have other : c ≠ '_' :=
    noUnderscore_languageKey _ _ c (longer ▸ List.mem_append_right _ List.mem_cons_self)
  rw [toList_encode] at spelled
  apply head?_encodeFrom true
  cases kept : needsEscape false c rest.head? with
  | true =>
    rw [encodeFrom_escape kept, List.append_assoc, escape_append, List.cons_inj_right] at spelled
    rw [spelled]
    rfl
  | false =>
    rw [encodeFrom_keep kept, List.cons_append, List.cons.injEq] at spelled
    exact absurd spelled.1.symm other

/-- The name of a field that is no text field is spelled by no id. -/
theorem not_overlaps {field other : Field} {language language' : LanguageId}
    (plain : other.isText = false) : ¬ Overlaps field language other language' := by
  rintro ⟨beyond, nonempty, longer, -⟩
  rw [languageKey, plain] at longer
  exact nonempty (List.append_eq_nil_iff.mp longer.symm).2

/-- The standard names of the reserved ids. One is no derived name at all; all others are derived
from single strings of the reserved ids themselves. -/
theorem standard_names {id name : String} (fixed : Special.standard.nameOf? id = some name) :
    name = "score" ∨
      ∃ reserved ∈ reservedIds, name = derived (.simple reserved .string) .unspecified := by
  unfold Special.nameOf? at fixed
  split at fixed
  · cases fixed
    exact .inr ⟨itemId, by decide, by decide +kernel⟩
  · split at fixed
    · cases fixed
      exact .inl rfl
    · split at fixed
      · cases fixed
        exact .inr ⟨languageId, by decide, by decide +kernel⟩
      · split at fixed
        · cases fixed
          exact .inr ⟨datasourceId, by decide, by decide +kernel⟩
        · cases fixed

/-- A derived name is the standard name of no reserved id. -/
theorem derived_ne_standard {field : Field} (own : field.id ∉ reservedIds) (language : LanguageId)
    (id : String) : Special.standard.nameOf? id ≠ some (derived field language) := by
  intro fixed
  rcases standard_names fixed with score | ⟨reserved, among, same⟩
  · have letters := congrArg String.toList score
    rw [toList_derived] at letters
    have underscore : '_' ∈ "score".toList := by
      rw [← letters]
      simp
    exact absurd underscore (by decide)
  · obtain ⟨marks, parts⟩ := (derived_eq_iff _ _ _ _).mp same
    have plain : field.isText = false := by
      rw [Field.isText, typeMark_isText _ field.cardinality, marks]
      exact (typeMark_isText .string .single).symm
    rcases parts with ⟨rfl, -⟩ | overlaps | overlaps
    · exact own among
    · exact not_overlaps rfl overlaps
    · exact not_overlaps plain overlaps

/-- Two fields with derived names share one iff they agree in mark and id, and as text fields in the
language, or the id of one spells the name of the other, for which it has to begin with `X`. No
derived name is the standard name of a reserved id. -/
theorem fieldName_eq_iff (special : Special) (field other : Field) (language language' : LanguageId)
    (own : IsDerived field) (own' : IsDerived other) :
    (special.fieldName field language = special.fieldName other language' ↔
      typeMark field.type field.cardinality = typeMark other.type other.cardinality ∧
        ((field.id = other.id ∧ (field.isText = true → language = language')) ∨
          Overlaps field language other language' ∨ Overlaps other language' field language)) ∧
      (Overlaps field language other language' → field.id.toList.head? = some 'X') ∧
      (Overlaps other language' field language → other.id.toList.head? = some 'X') ∧
      ∀ id, Special.standard.nameOf? id ≠ some (Special.standard.fieldName field language) := by
  refine ⟨?_, Overlaps.head?, Overlaps.head?, fun id => ?_⟩
  · rw [fieldName_eq_derived special own, fieldName_eq_derived special own']
    exact derived_eq_iff field other language language'
  · rw [fieldName_eq_derived _ own]
    exact derived_ne_standard own.own language id

def languageOf (token : String) : LanguageId :=
  (LanguageId.parse token).toOption.getD .unspecified

def english : LanguageId := languageOf "en"

def british : LanguageId := languageOf "en-gb"

def bodyField : Field := .simple "body" .text

/-- A text field whose id spells the language `en` in front of the id of another field. -/
def spellingField : Field := .simple "X3b_en_body" .text

/-- The region of a language, and an id that spells it in front of the other id. -/
theorem fieldName_eq_iff_regions :
    IsDerived bodyField ∧ IsDerived (.simple "X2d_gb_body" .text) ∧
      Special.standard.fieldName bodyField british = "ts_X3b_en_X2d_gb_body" ∧
      Special.standard.fieldName (.simple "X2d_gb_body" .text) english = "ts_X3b_en_X2d_gb_body" ∧
      Overlaps (.simple "X2d_gb_body" .text) english bodyField british ∧
      ∀ id, Special.standard.nameOf? id ≠ some (Special.standard.fieldName bodyField british) := by
  have own : IsDerived bodyField := ⟨by decide, rfl⟩
  have own' : IsDerived (.simple "X2d_gb_body" .text) := ⟨by decide, rfl⟩
  have name : Special.standard.fieldName bodyField british = "ts_X3b_en_X2d_gb_body" := by
    decide +kernel
  have name' : Special.standard.fieldName (.simple "X2d_gb_body" .text) english =
      "ts_X3b_en_X2d_gb_body" := by
    decide +kernel
  obtain ⟨shared, -, -, reserved⟩ :=
    fieldName_eq_iff .standard bodyField (.simple "X2d_gb_body" .text) british english own own'
  refine ⟨own, own', name, name', ?_, reserved⟩
  obtain ⟨-, ⟨same, -⟩ | overlaps | overlaps⟩ := shared.mp (name.trans name'.symm)
  · exact absurd same (by decide)
  · obtain ⟨beyond, nonempty, longer, -⟩ := overlaps
    have regional : languageKey bodyField british = ";en-gb".toList := by decide +kernel
    have general : languageKey (.simple "X2d_gb_body" .text) english = ";en".toList := by
      decide +kernel
    have lengths := congrArg List.length longer
    rw [regional, general] at lengths
    simp at lengths
  · exact overlaps

/-- Two text fields of different ids share a name: one without a language, one in English. -/
theorem spelled_language_collides :
    IsDerived spellingField ∧ IsDerived bodyField ∧
      Special.standard.fieldName spellingField .unspecified = "ts_X3b_en_body" ∧
      Special.standard.fieldName bodyField english = "ts_X3b_en_body" ∧
      ¬ (spellingField.id = bodyField.id ∧
        (spellingField.isText = true → LanguageId.unspecified = english)) := by
  refine ⟨⟨by decide, rfl⟩, ⟨by decide, rfl⟩, by decide +kernel, by decide +kernel, ?_⟩
  rintro ⟨same, -⟩
  exact absurd same (by decide)

end SearchCompiler.Name
