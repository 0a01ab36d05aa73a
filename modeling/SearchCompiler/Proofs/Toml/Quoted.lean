import SearchCompiler.Toml.Reader
import SearchCompiler.Toml.Writer

/-!
# Quoted texts

A text between quotes is written piece by piece: characters that stand for themselves, escaped ones,
and quotes of which no three stand side by side. `Spells` says so, apart from the forms that a text
can be given and apart from how it is read. Every form spells its text (`spells_shortBody`,
`spells_longBody`, `spells_self`), and what is spelled is read (`Spells.readQuoted`). So every text
is read from its plainest form as it was written, whatever characters it has
(`readValue_writtenChars`), and so is every key (`readKey_writtenKey`).
-/

namespace SearchCompiler.Toml

/-! ### Pieces of a text -/

/-- Whether a backslash and a piece stand for a character, also on several lines. -/
structure Escapes (piece : List Char) (c : Char) : Prop where
  escaped : ∀ rest, escaped? (piece ++ rest) = some (c, rest)
  joins_nothing : ∀ rest, joined? (piece ++ rest) = none

theorem escapes_named {c d : Char} (named : namedEscape? d = some c) (letter : escapeDigits? d = none)
    (shown : d ≠ ' ' ∧ d ≠ '\t' ∧ d ≠ '\n' ∧ d ≠ '\r') : Escapes [d] c where
  escaped rest := by
    rw [List.singleton_append, escaped?, letter, named]
    rfl
  joins_nothing rest := by
    obtain ⟨space, tab, line, return_⟩ := shown
    rw [List.singleton_append, joined?, List.dropWhile_cons_of_neg (by simp [space, tab])]
    split
    · next same => exact absurd (List.cons.inj same).1 line
    · next same => exact absurd (List.cons.inj same).1 return_
    · rfl

theorem hexNumber?_upper : ∀ n < 0x80,
    Text.hexNumber? ['0', '0', upperHex (n / 16), upperHex (n % 16)] = some n := by
  decide

/-- A control character is escaped by its number. -/
theorem escapes_number {c : Char} (small : c.toNat < 0x80) :
    Escapes ['u', '0', '0', upperHex (c.toNat / 16), upperHex (c.toNat % 16)] c where
  escaped rest := by
    have digits := hexNumber?_upper c.toNat small
    have valid : c.toNat.isValidChar := .inl (by omega)
    change (Text.hexNumber? ['0', '0', upperHex (c.toNat / 16), upperHex (c.toNat % 16)] >>= _) = _
    rw [digits]
    change (if c.toNat.isValidChar then some (Char.ofNat c.toNat, rest) else none) = _
    rw [if_pos valid, Char.ofNat_toNat]
  joins_nothing _ := rfl

/-- A control character is written as a backslash and a piece that stands for it. -/
theorem exists_escape {c : Char} (control : isControl c = true) :
    ∃ piece, writtenControl c = '\\' :: piece ∧ Escapes piece c := by
  unfold writtenControl
  split
  · next same => exact ⟨_, rfl, same ▸ escapes_named rfl rfl (by decide)⟩
  split
  · next same => exact ⟨_, rfl, same ▸ escapes_named rfl rfl (by decide)⟩
  split
  · next same => exact ⟨_, rfl, same ▸ escapes_named rfl rfl (by decide)⟩
  split
  · next same => exact ⟨_, rfl, same ▸ escapes_named rfl rfl (by decide)⟩
  split
  · next same => exact ⟨_, rfl, same ▸ escapes_named rfl rfl (by decide)⟩
  · refine ⟨_, rfl, escapes_number ?_⟩
    simp only [isControl, Bool.or_eq_true, decide_eq_true_eq] at control
    omega

/-- How a text is spelled between quotes, behind a run of quotes that stand for themselves. -/
inductive Spells (q : Quoting) : Nat → List Char → List Char → Prop where
  | nil (run : Nat) : Spells q run [] []
  | mark {run : Nat} {body cs : List Char} : q.long = true → run < 2 → Spells q (run + 1) body cs →
      Spells q run (q.mark :: body) (q.mark :: cs)
  | shown {run : Nat} {body cs : List Char} {c : Char} : c ≠ q.mark →
      (c = '\\' → q.escapes = false) → isPlain c = true ∨ q.long = true ∧ c = '\n' →
      Spells q 0 body cs → Spells q run (c :: body) (c :: cs)
  | escape {run : Nat} {body cs piece : List Char} {c : Char} : q.escapes = true →
      Escapes piece c → Spells q 0 body cs → Spells q run ('\\' :: (piece ++ body)) (c :: cs)

/-! ### Reading what is spelled -/

section Reading

variable {q : Quoting} {run fuel : Nat} {c : Char} {body cs rest : List Char}

theorem Quoting.mark_ne_backslash (escapes : q.escapes = true) : q.mark ≠ '\\' := by
  rw [Quoting.escapes, beq_iff_eq] at escapes
  rw [escapes]
  decide

/-- A body begins with quotes and then ends, or goes on with something else. -/
theorem Spells.lead (spells : Spells q run body cs) (few : run ≤ 2) :
    ∃ k, run + k ≤ 2 ∧ (body = List.replicate k q.mark ∧ cs = body ∨
      ∃ d tail, body = List.replicate k q.mark ++ d :: tail ∧ d ≠ q.mark) := by
  induction spells with
  | nil run => exact ⟨0, few, .inl ⟨rfl, rfl⟩⟩
  | @mark run body cs _ one_more _ ih =>
    obtain ⟨k, room, alone | ⟨d, tail, rfl, other⟩⟩ := ih one_more
    · obtain ⟨rfl, rfl⟩ := alone
      exact ⟨k + 1, by omega, .inl ⟨rfl, rfl⟩⟩
    · exact ⟨k + 1, by omega, .inr ⟨d, tail, rfl, other⟩⟩
  | shown other => exact ⟨0, few, .inr ⟨_, _, rfl, other⟩⟩
  | escape escapes => exact ⟨0, few, .inr ⟨_, _, rfl, (q.mark_ne_backslash escapes).symm⟩⟩

theorem takeWhile_marks (mark : Char) (k : Nat) (ends : rest.head? ≠ some mark) :
    (List.replicate k mark ++ rest).takeWhile (· == mark) = List.replicate k mark := by
  have stops : rest.takeWhile (· == mark) = [] := by
    cases rest with
    | nil => rfl
    | cons d tail =>
      have other : d ≠ mark := fun same => ends (same ▸ rfl)
      exact List.takeWhile_cons_of_neg (by simpa using other)
  rw [List.takeWhile_append_of_pos (by simp), stops, List.append_nil]

/-- The last run of quotes ends a text on several lines; up to two of them belong to it. -/
theorem readQuoted_end (long : q.long = true) {k : Nat} (few : k ≤ 2)
    (ends : rest.head? ≠ some q.mark) :
    readQuoted q (fuel + 1) (List.replicate k q.mark ++ (List.replicate 3 q.mark ++ rest)) =
      some (List.replicate k q.mark, rest) := by
  have run := takeWhile_marks q.mark (k + 3) ends
  have all : List.replicate k q.mark ++ (List.replicate 3 q.mark ++ rest) =
      List.replicate (k + 3) q.mark ++ rest := by
    rw [← List.append_assoc, List.replicate_append_replicate]
  have front : List.replicate (k + 3) q.mark ++ rest =
      q.mark :: (List.replicate (k + 2) q.mark ++ rest) := rfl
  rw [all]
  rw [front] at run ⊢
  rw [readQuoted, if_pos rfl, if_pos long, run, ← front]
  have own : min (k + 3 - 3) 2 = k := by omega
  simp only [List.length_replicate, Nat.le_add_left, if_true, own, List.take_replicate,
    Nat.min_eq_left (Nat.le_add_right k 3)]
  rw [List.drop_left' (List.length_replicate ..)]

/-- Quotes that are fewer than three stand for themselves on several lines. -/
theorem readQuoted_mark (long : q.long = true)
    (few : ((q.mark :: rest).takeWhile (· == q.mark)).length < 3) :
    readQuoted q (fuel + 1) (q.mark :: rest) =
      (readQuoted q fuel rest).map fun (cs, left) => (q.mark :: cs, left) := by
  rw [readQuoted, if_pos rfl, if_pos long]
  exact if_neg (Nat.not_le.mpr few)

/-- A character that stands for itself is read as itself. -/
theorem readQuoted_shown (other : c ≠ q.mark) (plain : c = '\\' → q.escapes = false)
    (shown : isPlain c = true ∨ q.long = true ∧ c = '\n') :
    readQuoted q (fuel + 1) (c :: rest) =
      (readQuoted q fuel rest).map fun (cs, left) => (c :: cs, left) := by
  rw [readQuoted, if_neg other, if_neg fun ⟨same, escapes⟩ => by simp [plain same] at escapes]
  rcases shown with shown | ⟨long, rfl⟩
  · rw [if_pos shown]
  · exact (if_neg (by decide)).trans (if_pos ⟨long, .inl rfl⟩)

theorem readQuoted_escape {piece : List Char} (escapes : q.escapes = true)
    (stands : Escapes piece c) :
    readQuoted q (fuel + 1) ('\\' :: (piece ++ rest)) =
      (readQuoted q fuel rest).map fun (cs, left) => (c :: cs, left) := by
  rw [readQuoted, if_neg (q.mark_ne_backslash escapes).symm, if_pos ⟨rfl, escapes⟩,
    stands.joins_nothing, stands.escaped, ite_self]

/-- The quotes that close a text. -/
def Quoting.closing (q : Quoting) : List Char :=
  List.replicate (if q.long then 3 else 1) q.mark

/-- What is spelled is read, up to the closing quotes. -/
theorem Spells.readQuoted (spells : Spells q run body cs) (few : run ≤ 2)
    (ends : q.long = true → rest.head? ≠ some q.mark) (enough : body.length < fuel) :
    Toml.readQuoted q fuel (body ++ (q.closing ++ rest)) = some (cs, rest) := by
  induction spells generalizing fuel with
  | nil run =>
    obtain ⟨fuel, rfl⟩ := Nat.exists_eq_add_one_of_ne_zero (Nat.ne_zero_of_lt enough)
    unfold Quoting.closing
    cases long : q.long with
    | true => exact readQuoted_end long (Nat.zero_le 2) (ends long)
    | false =>
      change Toml.readQuoted q (fuel + 1) (q.mark :: rest) = _
      rw [Toml.readQuoted, if_pos rfl, long]
      rfl
  | @mark run body cs long one_more inner ih =>
    obtain ⟨fuel, rfl⟩ := Nat.exists_eq_add_one_of_ne_zero (Nat.ne_zero_of_lt enough)
    have closing : q.closing = List.replicate 3 q.mark := by rw [Quoting.closing, if_pos long]
    obtain ⟨k, room, alone | ⟨d, tail, rfl, other⟩⟩ := inner.lead one_more
    · -- Nothing but quotes is left: they are read at once, together with the closing ones.
      obtain ⟨rfl, rfl⟩ := alone
      have room' : k + 1 ≤ 2 := by omega
      rw [closing]
      exact readQuoted_end long room' (ends long)
    · have run : ((q.mark :: (List.replicate k q.mark ++ d :: tail ++ (q.closing ++ rest))).takeWhile
          (· == q.mark)).length < 3 := by
        have stop : (d :: (tail ++ (q.closing ++ rest))).head? ≠ some q.mark := by simpa using other
        have front := takeWhile_marks q.mark (k + 1) stop
        rw [List.replicate_succ, List.cons_append] at front
        rw [List.append_assoc, List.cons_append]
        rw [front, List.length_cons, List.length_replicate]
        omega
      rw [List.cons_append, readQuoted_mark long run,
        ih one_more (by rw [List.length_cons] at enough; omega)]
      rfl
  | shown other plain visible _ ih =>
    obtain ⟨fuel, rfl⟩ := Nat.exists_eq_add_one_of_ne_zero (Nat.ne_zero_of_lt enough)
    rw [List.cons_append, readQuoted_shown other plain visible,
      ih (Nat.zero_le 2) (by rw [List.length_cons] at enough; omega)]
    rfl
  | escape escapes stands _ ih =>
    obtain ⟨fuel, rfl⟩ := Nat.exists_eq_add_one_of_ne_zero (Nat.ne_zero_of_lt enough)
    rw [List.cons_append, List.append_assoc, readQuoted_escape escapes stands,
      ih (Nat.zero_le 2) (by rw [List.length_cons, List.length_append] at enough; omega)]
    rfl

end Reading

/-! ### The forms of a text -/

section Forms

variable {run : Nat} {cs rest : List Char}

theorem isPlain_of_not_control {c : Char} (shown : isControl c = false) : isPlain c = true := by
  simp only [isControl, isPlain, Bool.or_eq_false_iff, decide_eq_false_iff_not, Bool.or_eq_true,
    Bool.and_eq_true, decide_eq_true_eq, bne_iff_ne] at shown ⊢
  exact .inr ⟨by omega, shown.2⟩

theorem escapes_self {c : Char} (special : c = '"' ∨ c = '\\') : Escapes [c] c := by
  rcases special with rfl | rfl <;> exact escapes_named rfl rfl (by decide)

/-- Between double quotes on one line every character can be written. -/
theorem spells_shortBody (cs : List Char) : Spells ⟨'"', false⟩ 0 (shortBody cs) cs := by
  induction cs with
  | nil => exact .nil 0
  | cons c rest ih =>
    rw [shortBody]
    split
    · next special => exact .escape rfl (escapes_self special) ih
    next ordinary =>
    obtain ⟨quote, backslash⟩ := not_or.mp ordinary
    split
    · next control =>
      obtain ⟨piece, written, stands⟩ := exists_escape control
      rw [written]
      exact .escape rfl stands ih
    · next shown =>
      exact .shown quote (absurd · backslash)
        (.inl (isPlain_of_not_control (Bool.not_eq_true _ ▸ shown))) ih

/-- Between double quotes on several lines every character can be written. -/
theorem spells_longBody (cs : List Char) (few : run ≤ 2) :
    Spells ⟨'"', true⟩ run (longBody run cs) cs := by
  induction cs generalizing run with
  | nil => exact .nil run
  | cons c rest ih =>
    rw [longBody]
    split
    · next quote =>
      subst quote
      split
      · exact .escape rfl (escapes_self (.inl rfl)) (ih (Nat.zero_le 2))
      · exact .mark rfl (by omega) (ih (by omega))
    next quote =>
    split
    · next line => subst line; exact .shown quote nofun (.inr ⟨rfl, rfl⟩) (ih (Nat.zero_le 2))
    split
    · next backslash =>
      subst backslash
      exact .escape rfl (escapes_self (.inr rfl)) (ih (Nat.zero_le 2))
    next backslash =>
    split
    · next control =>
      obtain ⟨piece, written, stands⟩ := exists_escape control
      rw [written]
      exact .escape rfl stands (ih (Nat.zero_le 2))
    · next shown =>
      exact .shown quote (absurd · backslash)
        (.inl (isPlain_of_not_control (Bool.not_eq_true _ ▸ shown))) (ih (Nat.zero_le 2))

theorem le_longestRun (mark : Char) (run : Nat) (cs : List Char) :
    run ≤ longestRun mark run cs := by
  induction cs generalizing run with
  | nil => exact Nat.le_refl run
  | cons c rest ih =>
    rw [longestRun]
    split
    · exact Nat.le_of_succ_le (ih (run + 1))
    · exact Nat.le_max_left ..

theorem longestRun_of_not_mem {mark : Char} (run : Nat) (out : mark ∉ cs) :
    longestRun mark run cs = run := by
  induction cs generalizing run with
  | nil => rfl
  | cons c rest ih =>
    rw [List.mem_cons, not_or] at out
    rw [longestRun, if_neg (Ne.symm out.1), ih 0 out.2, Nat.max_zero]

/-- A text has no control characters besides tabs and line ends. -/
def Shows (cs : List Char) : Prop :=
  ∀ c ∈ cs, isControl c = true → c = '\t' ∨ c = '\n'

theorem isPlain_of_shows {c : Char} (visible : isControl c = true → c = '\t' ∨ c = '\n')
    (line : c ≠ '\n') : isPlain c = true := by
  cases control : isControl c with
  | false => exact isPlain_of_not_control control
  | true =>
    rcases visible control with rfl | same
    · rfl
    · exact absurd same line

/-- Between single quotes a text stands for itself: on one line without quotes and line ends, and on
several without three quotes side by side. -/
theorem spells_self {long : Bool} (shows_ : Shows cs)
    (quotes : longestRun '\'' run cs ≤ if long then 2 else 0) (lines : long = true ∨ '\n' ∉ cs) :
    Spells ⟨'\'', long⟩ run cs cs := by
  induction cs generalizing run with
  | nil => exact .nil run
  | cons c rest ih =>
    have inner : Shows rest := fun d among => shows_ d (List.mem_cons_of_mem _ among)
    have lines' : long = true ∨ '\n' ∉ rest :=
      lines.imp_right fun out among => out (List.mem_cons_of_mem _ among)
    rw [longestRun] at quotes
    split at quotes
    · next quote =>
      subst quote
      have more := le_longestRun '\'' (run + 1) rest
      cases long with
      | false => exact absurd (Nat.le_trans more quotes) (Nat.not_succ_le_zero run)
      | true => exact .mark rfl (by simp only [if_true] at quotes; omega) (ih inner quotes lines')
    · next quote =>
      have fewer : longestRun '\'' 0 rest ≤ if long then 2 else 0 := by omega
      refine .shown quote (fun _ => rfl) ?_ (ih inner fewer lines')
      by_cases line : c = '\n'
      · rcases lines with long | out
        · exact .inr ⟨long, line⟩
        · exact absurd (line ▸ List.mem_cons_self) out
      · exact .inl (isPlain_of_shows (shows_ c List.mem_cons_self) line)

end Forms

/-! ### Reading texts and keys -/

section Texts

variable {mark : Char} {body cs rest : List Char}

/-- A short text is read up to its closing quote. -/
theorem readShort_spelled (spells : Spells ⟨mark, false⟩ 0 body cs) (rest : List Char) :
    readShort mark (body ++ mark :: rest) = some (String.ofList cs, rest) := by
  have enough : body.length < (body ++ mark :: rest).length + 1 := by
    rw [List.length_append]
    omega
  have read : readQuoted ⟨mark, false⟩ ((body ++ mark :: rest).length + 1) (body ++ mark :: rest) =
      some (cs, rest) := spells.readQuoted (Nat.zero_le 2) nofun enough
  rw [readShort]
  exact congrArg (Option.map _) read

/-- The line end behind the opening quotes of a text with line ends is no part of it, and no line
end is taken from a text without. -/
theorem dropFirstLine_spelled {hasLines : Bool} (spells : Spells ⟨mark, true⟩ 0 body cs)
    (lines : hasLines = false → '\n' ∉ cs) (quote : mark ≠ '\n' ∧ mark ≠ '\r') (rest : List Char) :
    dropFirstLine ((if hasLines then ['\n'] else []) ++ (body ++ mark :: rest)) =
      body ++ mark :: rest := by
  have keep : ∀ {c : Char} {tail : List Char}, c ≠ '\n' ∧ c ≠ '\r' →
      dropFirstLine (c :: tail) = c :: tail := by
    rintro c tail ⟨line, return_⟩
    unfold dropFirstLine
    split
    · next same => exact absurd (List.cons.inj same).1 line
    · next same => exact absurd (List.cons.inj same).1 return_
    · rfl
  cases hasLines with
  | true => rfl
  | false =>
    cases spells with
    | nil => exact keep quote
    | mark => exact keep quote
    | @shown _ _ _ c _ _ visible _ =>
      have line : c ≠ '\n' := fun same => lines rfl (same ▸ List.mem_cons_self)
      refine keep ⟨line, ?_⟩
      rintro rfl
      rcases visible with plain | ⟨-, same⟩
      · exact absurd plain (by decide)
      · exact line same
    | escape => exact keep (by decide)

/-- A long text is read up to its closing quotes. -/
theorem readLong_spelled {hasLines : Bool} (spells : Spells ⟨mark, true⟩ 0 body cs)
    (lines : hasLines = false → '\n' ∉ cs) (quote : mark ≠ '\n' ∧ mark ≠ '\r')
    (ends : rest.head? ≠ some mark) :
    readLong mark ((if hasLines then ['\n'] else []) ++ (body ++ (List.replicate 3 mark ++ rest))) =
      some (String.ofList cs, rest) := by
  have enough : body.length <
      ((if hasLines then ['\n'] else []) ++ (body ++ (List.replicate 3 mark ++ rest))).length + 1 := by
    rw [List.length_append, List.length_append]
    omega
  have read := spells.readQuoted (Nat.zero_le 2) (fun _ => ends) enough
  have front : List.replicate 3 mark ++ rest = mark :: (List.replicate 2 mark ++ rest) := rfl
  rw [readLong, front, dropFirstLine_spelled spells lines quote, ← front]
  exact congrArg (Option.map _) read

end Texts

section Values

variable {fuel level : Nat} {cs rest : List Char}

theorem readValue_short {mark : Char} (quote : mark = '"' ∨ mark = '\'') {body : List Char}
    (spells : Spells ⟨mark, false⟩ 0 body cs) (ends : rest.head? ≠ some mark) :
    readValue (fuel + 1) level (mark :: (body ++ mark :: rest)) =
      some (.text (String.ofList cs), rest) := by
  -- Three quotes would open a text on several lines.
  have apart : ∀ tail, body ++ mark :: rest ≠ mark :: mark :: tail := by
    intro tail same
    cases spells with
    | nil => exact ends (by rw [(List.cons.inj same).2]; rfl)
    | mark long => cases long
    | shown other => exact other (List.cons.inj same).1
    | escape escapes =>
      exact Quoting.mark_ne_backslash escapes (List.cons.inj same).1.symm
  have read := readShort_spelled spells rest
  rcases quote with rfl | rfl
  · rw [readValue]
    · rw [read]
      rfl
    · exact fun tail same => apart tail same
  · rw [readValue]
    · rw [read]
      rfl
    · exact fun tail same => apart tail same

theorem readValue_long {mark : Char} (quote : mark = '"' ∨ mark = '\'') {body : List Char}
    {hasLines : Bool} (spells : Spells ⟨mark, true⟩ 0 body cs) (lines : hasLines = false → '\n' ∉ cs)
    (ends : rest.head? ≠ some mark) :
    readValue (fuel + 1) level (longText mark body hasLines ++ rest) =
      some (.text (String.ofList cs), rest) := by
  have read := readLong_spelled spells lines (by rcases quote with rfl | rfl <;> decide) ends
  have opened : longText mark body hasLines ++ rest = mark :: mark :: mark ::
      ((if hasLines then ['\n'] else []) ++ (body ++ (List.replicate 3 mark ++ rest))) := by
    simp [longText, List.replicate_succ]
  rw [opened]
  rcases quote with rfl | rfl <;> exact congrArg (Option.map _) read

/-- A text in its plainest form is read as it was, unless a quote follows. -/
theorem readValue_writtenChars (cs : List Char)
    (ends : rest.head? ≠ some '"' ∧ rest.head? ≠ some '\'') :
    readValue (fuel + 1) level (writtenChars cs ++ rest) =
      some (.text (String.ofList cs), rest) := by
  have double : readValue (fuel + 1) level (shortText cs ++ rest) =
      some (.text (String.ofList cs), rest) := by
    rw [shortText, List.cons_append, List.append_assoc]
    exact readValue_short (.inl rfl) (spells_shortBody cs) ends.1
  have doubles : ∀ {hasLines}, (hasLines = false → '\n' ∉ cs) →
      readValue (fuel + 1) level (longText '"' (longBody 0 cs) hasLines ++ rest) =
        some (.text (String.ofList cs), rest) := fun lines =>
    readValue_long (.inl rfl) (spells_longBody cs (Nat.zero_le 2)) lines ends.1
  have lines : cs.contains '\n' = false → '\n' ∉ cs := by simp
  have visible : (!cs.any fun c => isControl c && c != '\t' && c != '\n') = true → Shows cs := by
    intro shown c among control
    simp only [Bool.not_eq_true', List.any_eq_false] at shown
    have own := shown c among
    simp only [control, Bool.true_and, Bool.and_eq_true, bne_iff_ne] at own
    by_cases tab : c = '\t'
    · exact .inl tab
    · exact .inr (Decidable.not_not.mp fun line => own ⟨tab, line⟩)
  unfold writtenChars
  dsimp only
  split
  · exact double
  split
  · next form =>
    simp only [Bool.and_eq_true, decide_eq_true_eq] at form
    obtain ⟨⟨shown, no_lines⟩, no_quotes⟩ := form
    have spells : Spells ⟨'\'', false⟩ 0 cs cs :=
      spells_self (visible shown) (Nat.le_of_eq no_quotes) (.inr (lines (by simpa using no_lines)))
    rw [List.cons_append, List.append_assoc]
    exact readValue_short (.inr rfl) spells ends.2
  split
  · exact doubles lines
  split
  · next form =>
    simp only [Bool.and_eq_true, decide_eq_true_eq] at form
    have spells : Spells ⟨'\'', true⟩ 0 cs cs :=
      spells_self (visible form.1) form.2 (.inl rfl)
    exact readValue_long (.inr rfl) spells lines ends.2
  split
  · exact doubles lines
  · exact double

end Values

section Keys

variable {rest : List Char}

/-- A key without quotes is read up to where it ends. -/
theorem readKey_bare {key : String} (nonempty : key.toList ≠ [])
    (bare : key.toList.all isBareChar = true) (ends : ∀ c ∈ rest.head?, isKeyChar c = false) :
    readKey (key.toList ++ rest) = some (key, rest) := by
  have plain : ∀ c ∈ key.toList, isKeyChar c = true := List.all_eq_true.mp bare
  have stops : rest.takeWhile isKeyChar = [] ∧ rest.dropWhile isKeyChar = rest := by
    cases rest with
    | nil => exact ⟨rfl, rfl⟩
    | cons c tail =>
      have other : ¬isKeyChar c = true := by rw [ends c rfl]; exact Bool.false_ne_true
      exact ⟨List.takeWhile_cons_of_neg other, List.dropWhile_cons_of_neg other⟩
  have taken : (key.toList ++ rest).takeWhile isKeyChar = key.toList := by
    rw [List.takeWhile_append_of_pos plain, stops.1, List.append_nil]
  have left : (key.toList ++ rest).dropWhile isKeyChar = rest := by
    rw [List.dropWhile_append_of_pos plain, stops.2]
  have begins : ∀ c ∈ (key.toList ++ rest).head?, isKeyChar c = true := by
    obtain ⟨c, tail, same⟩ := List.exists_cons_of_ne_nil nonempty
    rw [same] at plain ⊢
    rintro d ⟨⟩
    exact plain c List.mem_cons_self
  unfold readKey
  split
  · next opened => rw [opened] at begins; exact absurd (begins _ rfl) (by decide)
  · next opened => rw [opened] at begins; exact absurd (begins _ rfl) (by decide)
  · dsimp only
    rw [taken, left, if_neg (by simpa using nonempty), String.ofList_toList]

/-- A key is read as it was written, unless a character follows that can stand in a key. -/
theorem readKey_writtenKey (key : String) (ends : ∀ c ∈ rest.head?, isKeyChar c = false) :
    readKey ((writtenKey key).toList ++ rest) = some (key, rest) := by
  have double : readKey (shortText key.toList ++ rest) = some (key, rest) := by
    rw [shortText, List.cons_append, List.append_assoc]
    exact (readShort_spelled (spells_shortBody key.toList) rest).trans
      (by rw [String.ofList_toList])
  unfold writtenKey
  rw [String.toList_ofList]
  split
  · next bare =>
    rw [Bool.and_eq_true, Bool.not_eq_true', List.isEmpty_eq_false_iff] at bare
    exact readKey_bare bare.1 bare.2 ends
  split
  · exact double
  split
  · next form =>
    simp only [Bool.and_eq_true, Bool.not_eq_true', List.any_eq_false,
      List.contains_eq_mem, decide_eq_false_iff_not, bne_iff_ne] at form
    obtain ⟨visible, no_quotes⟩ := form
    have shows_ : Shows key.toList := fun c among control =>
      .inl (Decidable.not_not.mp fun tab => visible c among ⟨control, tab⟩)
    have no_lines : '\n' ∉ key.toList := fun among =>
      visible '\n' among ⟨rfl, by decide⟩
    have spells : Spells ⟨'\'', false⟩ 0 key.toList key.toList :=
      spells_self shows_ (Nat.le_of_eq (longestRun_of_not_mem 0 no_quotes)) (.inr no_lines)
    rw [List.cons_append, List.append_assoc]
    exact (readShort_spelled spells rest).trans (by rw [String.ofList_toList])
  · exact double

end Keys

end SearchCompiler.Toml
