import SearchCompiler.Proofs.Scan

/-!
# Where a literal ends

A literal is read off the front of a query by a reader that does not know how literals are written:
it goes to the first character that ends it, and a backslash takes the character behind it as it is.
A phrase is ended by a quote, a bare term by a blank, a quote or a mark.

What has a backslash in front of everything that could end it is read back whatever stands behind it
(`readLiteral_escapeWith`), and both written forms of a text are of that kind. So a phrase says
itself where it ends. A bare term does not: it has to be followed by something that ends it, and
that is all it takes (`escaped_literals_delimited`).
-/

namespace SearchCompiler.Text

/-- Characters in front of the part that is read. -/
def taking (cs : List Char) (read : Option (List Char × List Char)) :
    Option (List Char × List Char) :=
  read.map fun (text, rest) => (cs ++ text, rest)

@[simp] theorem taking_nil (read : Option (List Char × List Char)) : taking [] read = read := by
  cases read <;> rfl

@[simp] theorem taking_taking (cs ds : List Char) (read : Option (List Char × List Char)) :
    taking cs (taking ds read) = taking (cs ++ ds) read := by
  cases read <;> simp [taking]

/-- With nothing else read, what was put in front is all there is. -/
theorem taking_eq_some_iff {cs rest : List Char} {read : Option (List Char × List Char)} :
    taking cs read = some (cs, rest) ↔ read = some ([], rest) := by
  cases read <;> simp [taking, Prod.ext_iff]

theorem taking_cons_ne_empty (c : Char) (rest : List Char)
    (read : Option (List Char × List Char)) : taking [c] read ≠ some ([], rest) := by
  cases read <;> simp [taking]

/-- Reads a literal up to the first character that ends it, and leaves that one unread. Behind a
backslash (`escaped`) any character is part of the literal, and there has to be one. -/
def readLiteral (ends : Char → Bool) : (escaped : Bool) → List Char →
    Option (List Char × List Char)
  | false, [] => some ([], [])
  | true, [] => none
  | true, c :: rest => taking [c] (readLiteral ends false rest)
  | false, c :: rest =>
    if c = '\\' then readLiteral ends true rest
    else if ends c then some ([], c :: rest)
    else taking [c] (readLiteral ends false rest)

/-- Reads a phrase from its opening quote to the quote that ends it, and what stands behind. -/
def readPhrase? : List Char → Option (List Char × List Char)
  | [] => none
  | first :: inside =>
    if first = '"' then
      match readLiteral (· == '"') false inside with
      | some (text, _ :: rest) => some (text, rest)
      | _ => none
    else none

/-- Whether a character ends a bare term that has no backslash in front of it. -/
def endsTerm (c : Char) : Bool :=
  isMark c || c == '"'

/-- What ends a bare term is what has to be escaped in one, the backslash apart. -/
theorem endsTerm_eq (c : Char) : endsTerm c = (needsEscape c && c != '\\') := by
  unfold endsTerm isMark needsEscape
  by_cases escape : c = '\\'
  · subst escape
    rfl
  · have known : syntaxChars.contains c = (markChars.contains c || c == '"') := by
      rw [Bool.eq_iff_iff]
      simp only [syntaxChars, markChars, List.contains_cons, Bool.or_eq_true, beq_iff_eq]
      grind
    rw [known, bne_iff_ne.mpr escape, Bool.and_true, Bool.or_comm (isBlank c), Bool.or_right_comm]

def readTerm? (cs : List Char) : Option (List Char × List Char) :=
  readLiteral endsTerm false cs

/-- A query that ends a bare term in front of it. -/
def EndsTerm (cs : List Char) : Prop :=
  ∀ c ∈ cs.head?, endsTerm c = true

/-- A literal with a backslash in front of some characters. -/
def escapeWith (special : Char → Bool) : List Char → List Char
  | [] => []
  | c :: rest =>
    if special c then '\\' :: c :: escapeWith special rest else c :: escapeWith special rest

theorem bareTerm_eq_escapeWith (text : List Char) : bareTerm text = escapeWith needsEscape text := by
  induction text with
  | nil => rfl
  | cons c text ih => rw [bareTerm, escapeWith, ih]

theorem phraseBody_eq_escapeWith (text : List Char) :
    phraseBody text = escapeWith (fun c => c == '"' || c == '\\') text := by
  induction text with
  | nil => rfl
  | cons c text ih => simp only [phraseBody, escapeWith, ih, Bool.or_eq_true, beq_iff_eq]

/-- A literal with a backslash in front of everything that could end it is read back. -/
theorem readLiteral_escapeWith {ends special : Char → Bool}
    (covers : ∀ c, special c = false → c ≠ '\\' ∧ ends c = false) (text rest : List Char) :
    readLiteral ends false (escapeWith special text ++ rest) =
      taking text (readLiteral ends false rest) := by
  induction text with
  | nil => exact (taking_nil _).symm
  | cons c text ih =>
    rw [escapeWith]
    cases escaped : special c with
    | true =>
      rw [if_pos rfl, List.cons_append, List.cons_append, readLiteral, if_pos rfl, readLiteral, ih,
        taking_taking, List.singleton_append]
    | false =>
      obtain ⟨notEscape, goesOn⟩ := covers c escaped
      rw [if_neg Bool.false_ne_true, List.cons_append, readLiteral, if_neg notEscape,
        if_neg (by simp [goesOn]), ih, taking_taking, List.singleton_append]

/-- Nothing is read exactly where the query ends or begins with what ends the literal. -/
theorem readLiteral_stops_iff {ends : Char → Bool} (goesOn : ends '\\' = false)
    (rest : List Char) :
    readLiteral ends false rest = some ([], rest) ↔ ∀ c ∈ rest.head?, ends c = true := by
  cases rest with
  | nil => simp [readLiteral]
  | cons c rest =>
    rw [readLiteral]
    split
    · next escape =>
      subst escape
      -- What is read behind the backslash holds at least one character.
      have read : readLiteral ends true rest ≠ some ([], '\\' :: rest) := by
        cases rest with
        | nil => nofun
        | cons d rest => exact taking_cons_ne_empty d _ _
      simp [read, goesOn]
    · split
      · next stops => simp [stops]
      · next more => simp [taking_cons_ne_empty, more]

/-- A written phrase is read back whatever stands behind it. -/
theorem readPhrase?_phrase (text rest : List Char) :
    readPhrase? (phrase text ++ rest) = some (text, rest) := by
  have covers : ∀ c : Char, (c == '"' || c == '\\') = false → c ≠ '\\' ∧ (c == '"') = false := by
    intro c plain
    rw [Bool.or_eq_false_iff] at plain
    exact ⟨beq_eq_false_iff_ne.mp plain.2, plain.1⟩
  have inside : readLiteral (· == '"') false (phraseBody text ++ '"' :: rest) =
      some (text, '"' :: rest) := by
    rw [phraseBody_eq_escapeWith, readLiteral_escapeWith covers, taking_eq_some_iff]
    rfl
  rw [phrase, List.cons_append, List.append_assoc, List.singleton_append, readPhrase?, if_pos rfl,
    inside]

/-- A written bare term is read back iff something ends it. -/
theorem readTerm?_bareTerm_iff (text rest : List Char) :
    readTerm? (bareTerm text ++ rest) = some (text, rest) ↔ EndsTerm rest := by
  have covers : ∀ c, needsEscape c = false → c ≠ '\\' ∧ endsTerm c = false := by
    intro c plain
    exact ⟨(needsEscape_false plain).1, by rw [endsTerm_eq, plain, Bool.false_and]⟩
  rw [readTerm?, bareTerm_eq_escapeWith, readLiteral_escapeWith covers, taking_eq_some_iff,
    readLiteral_stops_iff (by decide), EndsTerm]

/-- Both written forms of a text are read back as that text, up to their last character and no
further: a phrase in front of any query, and a bare term in front of exactly those queries that are
empty or begin with a blank or a character with a meaning of its own other than the backslash. -/
theorem escaped_literals_delimited (text rest : String) :
    readPhrase? (escapePhrase text ++ rest).toList = some (text.toList, rest.toList) ∧
      (readTerm? (escapeTerm text ++ rest).toList = some (text.toList, rest.toList) ↔
        EndsTerm rest.toList) := by
  simp only [String.toList_append, escapePhrase, escapeTerm, String.toList_ofList]
  exact ⟨readPhrase?_phrase text.toList rest.toList,
    readTerm?_bareTerm_iff text.toList rest.toList⟩

example : readPhrase? "\"a\\\\\" b\"".toList = some ("a\\".toList, " b\"".toList) := by decide

example : readTerm? "c\\+\\+\\ \\\\ )".toList = some ("c++ \\".toList, " )".toList) := by decide

end SearchCompiler.Text
