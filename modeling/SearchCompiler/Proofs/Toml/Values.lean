import Mathlib.Data.List.Forall2
import SearchCompiler.Proofs.Decimal
import SearchCompiler.Proofs.Json.Scalars
import SearchCompiler.Proofs.Toml.Quoted
import SearchCompiler.Toml.Record

/-!
# Values on the right of a key

What a value is written as, and what that is read as (`Writes`). Texts, truth values, naturals and
lists of such are read as what they were (`writes_text`, `writes_bool`, `writes_natural`,
`writes_list`). A number of single precision is written with its own digits and read in double
precision, as every other number is; whether it then comes back is a matter of rounding alone
(`ReadsBack`).
-/

namespace SearchCompiler.Toml

/-! ### Blanks and line ends -/

section Blanks

variable {fuel : Nat} {c : Char} {cs rest : List Char}

theorem skipSpace_cons (shown : isSpace c = false) (rest : List Char) :
    skipSpace (c :: rest) = c :: rest :=
  List.dropWhile_cons_of_neg (by rw [shown]; exact Bool.false_ne_true)

theorem skipSpace_append {pad : List Char} (space : pad.all isSpace = true) (cs : List Char) :
    skipSpace (pad ++ cs) = skipSpace cs :=
  List.dropWhile_append_of_pos (List.all_eq_true.mp space)

/-- A character that begins a value, a key or a header: no blank, no line end and no comment, and no
bracket that closes a list. -/
structure IsOpening (c : Char) : Prop where
  space : isSpace c = false
  comment : c ≠ '#'
  line : c ≠ '\n'
  return_ : c ≠ '\r'
  bracket : c ≠ ']'

theorem skipFill_shown (space : isSpace c = false) (comment : c ≠ '#') (line : c ≠ '\n')
    (return_ : c ≠ '\r') : skipFill (fuel + 1) (c :: rest) = some (c :: rest) := by
  have ended : lineEnd? (c :: rest) = none := by
    unfold lineEnd?
    split
    · next same => exact absurd (List.cons.inj same).1 line
    · next same => exact absurd (List.cons.inj same).1 return_
    · rfl
  rw [skipFill, skipSpace_cons space]
  split
  · next same => exact absurd (List.cons.inj same).1 comment
  · rw [ended]

theorem skipFill_opening (opening : IsOpening c) :
    skipFill (fuel + 1) (c :: rest) = some (c :: rest) :=
  skipFill_shown opening.space opening.comment opening.line opening.return_

theorem skipFill_blanks {pad : List Char} (space : pad.all isSpace = true) (cs : List Char) :
    skipFill (fuel + 1) (pad ++ cs) = skipFill (fuel + 1) cs := by
  rw [skipFill, skipFill, skipSpace_append space]

theorem skipFill_line (rest : List Char) :
    skipFill (fuel + 1) ('\n' :: rest) = skipFill fuel rest := rfl

end Blanks

/-! ### Written values -/

/-- A character that ends an unquoted value follows. -/
def EndsValue (rest : List Char) : Prop :=
  ∃ c tail, rest = c :: tail ∧ c ∈ closers

/-- A text is read as a value on a level of nesting, whatever follows once the value ends. -/
structure Writes (level : Nat) (text : List Char) (value : Toml) : Prop where
  begins : ∃ c tail, text = c :: tail ∧ IsOpening c
  read : ∀ fuel rest, text.length < fuel → EndsValue rest →
    readValue fuel level (text ++ rest) = some (value, rest)

section Written

variable {level : Nat} {cs rest : List Char}

theorem EndsValue.no_quote (ends : EndsValue rest) :
    rest.head? ≠ some '"' ∧ rest.head? ≠ some '\'' := by
  obtain ⟨c, tail, rfl, closer⟩ := ends
  constructor <;>
  · rintro ⟨⟩
    exact absurd closer (by decide)

theorem exists_writtenChars (cs : List Char) :
    ∃ c tail, writtenChars cs = c :: tail ∧ (c = '"' ∨ c = '\'') := by
  unfold writtenChars
  dsimp only
  repeat' split
  all_goals first
    | exact ⟨_, _, rfl, .inl rfl⟩
    | exact ⟨_, _, rfl, .inr rfl⟩

/-- A text is read back in whatever form it is written. -/
theorem writes_text (level : Nat) (s : String) :
    Writes level (writtenValue (.text s)).toList (.text s) := by
  rw [writtenValue, writtenText, String.toList_ofList]
  constructor
  · obtain ⟨c, tail, begins, rfl | rfl⟩ := exists_writtenChars s.toList
    · exact ⟨_, tail, begins, by constructor <;> decide⟩
    · exact ⟨_, tail, begins, by constructor <;> decide⟩
  · intro fuel rest enough ends
    obtain ⟨fuel, rfl⟩ := Nat.exists_eq_add_one_of_ne_zero (Nat.ne_zero_of_lt enough)
    rw [readValue_writtenChars s.toList ends.no_quote, String.ofList_toList]

/-! ### Unquoted values -/

/-- A character of an unquoted value that no quoted one begins with. -/
structure IsUnquotedChar (c : Char) : Prop where
  literal : isLiteralChar c = true
  no_quote : c ≠ '"' ∧ c ≠ '\''

theorem isUnquotedChar_of_all
    (plain : cs.all (fun c => isLiteralChar c && c != '"' && c != '\'') = true) :
    ∀ c ∈ cs, IsUnquotedChar c := by
  intro c among
  have own := List.all_eq_true.mp plain c among
  simp only [Bool.and_eq_true, bne_iff_ne] at own
  exact ⟨own.1.1, own.1.2, own.2⟩

theorem IsUnquotedChar.isOpening {c : Char} (plain : IsUnquotedChar c) : IsOpening c := by
  have literal := plain.literal
  rw [isLiteralChar, Bool.and_eq_true, Bool.not_eq_true', Bool.not_eq_true'] at literal
  obtain ⟨space, closer⟩ := literal
  refine ⟨space, ?_, ?_, ?_, ?_⟩ <;>
  · rintro rfl
    cases closer

/-- An unquoted value is taken up to where it ends. -/
theorem takeLiteral_append (plain : ∀ c ∈ cs, isLiteralChar c = true) (ends : EndsValue rest) :
    takeLiteral (cs ++ rest) = (cs, rest) := by
  induction cs with
  | nil =>
    obtain ⟨c, tail, rfl, closer⟩ := ends
    have stops : isLiteralChar c = false ∧ isSpace c = false := by
      simp only [closers, List.mem_cons, List.not_mem_nil, or_false] at closer
      rcases closer with rfl | rfl | rfl | rfl | rfl | rfl | rfl | rfl | rfl <;> exact ⟨rfl, rfl⟩
    rw [List.nil_append, takeLiteral, stops.1, stops.2]
    rfl
  | cons c tail ih =>
    rw [List.forall_mem_cons] at plain
    rw [List.cons_append, takeLiteral, plain.1, Bool.true_or, if_pos rfl, ih plain.2]

/-- An unquoted value is read as the value that its text stands for. -/
theorem writes_literal {value : Toml} (stands : literal? cs = some value)
    (plain : ∀ c ∈ cs, IsUnquotedChar c) : Writes level cs value := by
  obtain ⟨c, tail, rfl⟩ : ∃ c tail, cs = c :: tail := by
    cases cs with
    | nil => cases stands
    | cons c tail => exact ⟨c, tail, rfl⟩
  have first := plain c List.mem_cons_self
  refine ⟨⟨c, tail, rfl, first.isOpening⟩, fun fuel rest enough ends => ?_⟩
  obtain ⟨fuel, rfl⟩ := Nat.exists_eq_add_one_of_ne_zero (Nat.ne_zero_of_lt enough)
  have literal : readLiteral (c :: tail ++ rest) = some (value, rest) := by
    rw [readLiteral, takeLiteral_append (fun d among => (plain d among).literal) ends]
    exact congrArg (Option.map (·, rest)) stands
  rw [List.cons_append] at literal ⊢
  unfold readValue
  have other : ∀ d, isLiteralChar d = false → c ≠ d := by
    rintro d bracket rfl
    rw [first.literal] at bracket
    cases bracket
  split
  · next same => exact absurd (List.cons.inj same).1 first.no_quote.1
  · next same => exact absurd (List.cons.inj same).1 first.no_quote.1
  · next same => exact absurd (List.cons.inj same).1 first.no_quote.2
  · next same => exact absurd (List.cons.inj same).1 first.no_quote.2
  · next same => exact absurd (List.cons.inj same).1 (other '[' rfl)
  · next same => exact absurd (List.cons.inj same).1 (other '\x7b' rfl)
  · exact literal

theorem writes_bool (level : Nat) (b : Bool) :
    Writes level (writtenValue (.bool b)).toList (.bool b) := by
  cases b with
  | true => exact writes_literal rfl (isUnquotedChar_of_all rfl)
  | false => exact writes_literal rfl (isUnquotedChar_of_all rfl)

/-! ### Numbers -/

theorem isUnquotedChar_digit {c : Char} (digit : c.isDigit = true) : IsUnquotedChar c := by
  have other : ∀ d, d.isDigit = false → c ≠ d := by
    rintro d letter rfl
    rw [digit] at letter
    cases letter
  refine ⟨?_, other _ rfl, other _ rfl⟩
  simp [isLiteralChar, isSpace, closers, other ' ' rfl, other '\t' rfl, other '=' rfl,
    other ',' rfl, other '[' rfl, other ']' rfl, other '\x7b' rfl, other '\x7d' rfl,
    other '#' rfl, other '\r' rfl, other '\n' rfl]

theorem isGrouped_of_not_mem {isDigit : Char → Bool} {behind : Bool} (out : '_' ∉ cs) :
    isGrouped isDigit behind cs = true := by
  induction cs generalizing behind with
  | nil => rfl
  | cons c rest ih =>
    rw [List.mem_cons, not_or] at out
    rw [isGrouped, if_neg (Ne.symm out.1)]
    exact ih out.2

/-- The digits of a natural stand for it, if 128 bits can hold it. -/
theorem decimal?_toDigits {n : Nat} (fits : fits128 n = true) :
    decimal? (Nat.toDigits 10 n) = some (.integer n) := by
  have digits : ∀ c ∈ Nat.toDigits 10 n, c.isDigit = true := Json.isDigit_toDigits
  have no_mark : '_' ∉ Nat.toDigits 10 n := fun among => absurd (digits _ among) (by decide)
  obtain ⟨c, tail, written⟩ := List.exists_cons_of_ne_nil (Nat.toDigits_ne_nil (n := n) (b := 10))
  have first : c.isDigit = true := digits c (written ▸ List.mem_cons_self)
  have sign : takeSign (Nat.toDigits 10 n) = (false, false, Nat.toDigits 10 n) := by
    rw [written]
    unfold takeSign
    split
    · next same => rw [(List.cons.inj same).1] at first; cases first
    · next same => rw [(List.cons.inj same).1] at first; cases first
    · rfl
  have leading : hasLeadingZero (Nat.toDigits 10 n) = false := by
    rcases Nat.eq_zero_or_pos n with rfl | positive
    · rfl
    · have other := Json.head?_toDigits_ne positive
      rw [written] at other ⊢
      unfold hasLeadingZero
      split
      · next same => exact absurd (congrArg some (List.cons.inj same).1) other
      · rfl
  have others : (Nat.toDigits 10 n).dropWhile Char.isDigit = [] := by
    rw [← List.append_nil (Nat.toDigits 10 n), List.dropWhile_append_of_pos digits,
      List.dropWhile_nil]
  have joined : joinGroups (Nat.toDigits 10 n) = Nat.toDigits 10 n := by
    refine List.filter_eq_self.mpr fun d among => ?_
    rw [bne_iff_ne]
    rintro rfl
    exact no_mark among
  have value : Decimal.digitsValue (Nat.toDigits 10 n) = n := Nat.ofDigitChars_ten_toDigits
  unfold decimal?
  rw [sign]
  dsimp only
  rw [others, leading, isGrouped_of_not_mem no_mark, joined, List.all_eq_true.mpr digits, value,
    if_pos rfl, ofInteger]
  rw [if_neg (by simp [Nat.toDigits_ne_nil])]
  rw [if_neg Bool.false_ne_true, if_pos fits]

/-- Decimal digits are read as the number they stand for. -/
theorem literal?_toDigits {n : Nat} (fits : fits128 n = true) :
    literal? (Nat.toDigits 10 n) = some (.integer n) := by
  have digits : ∀ c ∈ Nat.toDigits 10 n, c.isDigit = true := Json.isDigit_toDigits
  have no_word : ∀ word : String, (∃ c ∈ word.toList, c.isDigit = false) →
      String.ofList (Nat.toDigits 10 n) ≠ word := by
    rintro _ ⟨c, among, letter⟩ rfl
    rw [String.toList_ofList] at among
    rw [digits c among] at letter
    cases letter
  have no_base : ∀ d tail, d.isDigit = false → Nat.toDigits 10 n ≠ '0' :: d :: tail := by
    intro d tail letter same
    have digit := digits d (same ▸ List.mem_cons_of_mem _ List.mem_cons_self)
    rw [letter] at digit
    cases digit
  have integer : integer? (Nat.toDigits 10 n) = some (.integer n) := by
    unfold integer?
    split
    · next same => exact absurd same (no_base 'x' _ rfl)
    · next same => exact absurd same (no_base 'o' _ rfl)
    · next same => exact absurd same (no_base 'b' _ rfl)
    · exact decimal?_toDigits fits
  unfold literal?
  split
  · next same => exact absurd same (no_word "true" ⟨'t', by decide, rfl⟩)
  · next same => exact absurd same (no_word "false" ⟨'f', by decide, rfl⟩)
  · rw [integer]

theorem writes_natural (level : Nat) {n : Nat} (fits : fits128 n = true) :
    Writes level (writtenValue (.integer n)).toList (.integer n) := by
  have digits : (writtenValue (.integer n)).toList = Nat.toDigits 10 n := Nat.toList_repr
  rw [digits]
  exact writes_literal (literal?_toDigits fits) fun c among =>
    isUnquotedChar_digit (Json.isDigit_toDigits c among)

/-- A number in a document has no quotes, no blanks and nothing that ends it. -/
theorem isUnquotedChar_document (b : Decimal.Binary) :
    ∀ c ∈ (Decimal.Style.document.text b).toList, IsUnquotedChar c := by
  rcases Decimal.text_in_full .document rfl b with word | number
  · generalize Decimal.Style.document.text b = text at word ⊢
    simp only [List.mem_cons, List.not_mem_nil, or_false] at word
    rcases word with rfl | rfl | rfl <;> exact isUnquotedChar_of_all rfl
  · have mark : ∀ c ∈ ['.', '-'], IsUnquotedChar c := isUnquotedChar_of_all rfl
    intro c among
    rcases number c among with digit | rfl | rfl
    · exact isUnquotedChar_digit digit
    · exact mark '.' List.mem_cons_self
    · exact mark '-' (List.mem_cons_of_mem _ List.mem_cons_self)

/-- The digits that a number of single precision is written with are read as that number. -/
def ReadsBack (x : Float32) : Prop :=
  (literal? (Decimal.Style.document.single x).toList).bind single? = some x

instance (x : Float32) : Decidable (ReadsBack x) :=
  inferInstanceAs (Decidable (_ = _))

-- The tenths from nothing to three.
example : ∀ n ∈ List.range 31, ReadsBack (Float32.ofNat n / 10) := by decide +kernel

-- In double precision these digits lie in the middle between two numbers of single precision, and
-- the other one is even.
example : ¬ ReadsBack (Float32.ofBits 0x15ae43fd) := by decide +kernel

/-- What a value is read as: a number of single precision as its digits say, any other as itself. -/
def reread : Toml → Toml
  | .single x => (literal? (Decimal.Style.document.single x).toList).getD .noValue
  | value => value

theorem ReadsBack.single? {x : Float32} (back : ReadsBack x) :
    Toml.single? (reread (.single x)) = some x := by
  obtain ⟨value, stands, read⟩ := Option.bind_eq_some_iff.mp back
  rw [reread, stands]
  exact read

theorem writes_single (level : Nat) {x : Float32} (back : ReadsBack x) :
    Writes level (writtenValue (.single x)).toList (reread (.single x)) := by
  obtain ⟨value, stands, -⟩ := Option.bind_eq_some_iff.mp back
  rw [reread, stands]
  exact writes_literal stands (isUnquotedChar_document _)

/-! ### Lists -/

/-- Items of a list, each on a line of its own. -/
def itemLines (texts : List (List Char)) : List Char :=
  texts.flatMap fun text => List.replicate 4 ' ' ++ (text ++ [',', '\n'])

theorem itemLines_cons (text : List Char) (texts : List (List Char)) (rest : List Char) :
    itemLines (text :: texts) ++ rest =
      List.replicate 4 ' ' ++ (text ++ ',' :: '\n' :: (itemLines texts ++ rest)) := by
  simp [itemLines]

theorem endsValue_cons {c : Char} (closer : c ∈ closers) (rest : List Char) :
    EndsValue (c :: rest) :=
  ⟨c, rest, rfl, closer⟩

variable {fuel : Nat} {text : List Char} {value : Toml}

/-- An item with a closing bracket behind it is the last. -/
theorem readItems_last (written : Writes level text value) (enough : text.length < fuel) :
    readItems (fuel + 1) level (text ++ ']' :: rest) = some ([value], rest) := by
  have read := written.read fuel (']' :: rest) enough (endsValue_cons (by decide) rest)
  have closed : skipFill ((']' :: rest).length + 1) (']' :: rest) = some (']' :: rest) :=
    skipFill_shown rfl (by decide) (by decide) (by decide)
  obtain ⟨c, tail, rfl, opening⟩ := written.begins
  rw [List.cons_append] at read ⊢
  rw [readItems]
  · simp only [bind, Option.bind_some, read, closed]
    rfl
  · exact fun _ same => opening.bracket (List.cons.inj same).1

/-- Items follow an item with a comma behind it. -/
theorem readItems_next (written : Writes level text value) (enough : text.length < fuel)
    {items : List Toml} {more : List Char}
    (others : (skipFill (rest.length + 1) rest).bind (readItems fuel level) = some (items, more)) :
    readItems (fuel + 1) level (text ++ ',' :: rest) = some (value :: items, more) := by
  have read := written.read fuel (',' :: rest) enough (endsValue_cons (by decide) rest)
  have comma : skipFill ((',' :: rest).length + 1) (',' :: rest) = some (',' :: rest) :=
    skipFill_shown rfl (by decide) (by decide) (by decide)
  obtain ⟨left, skipped, inner⟩ := Option.bind_eq_some_iff.mp others
  obtain ⟨c, tail, rfl, opening⟩ := written.begins
  rw [List.cons_append] at read ⊢
  rw [readItems]
  · simp only [bind, Option.bind_some, read, comma, skipped, inner]
    rfl
  · exact fun _ same => opening.bracket (List.cons.inj same).1

/-- Items on lines of their own are read one after the other. -/
theorem readItems_lines {texts : List (List Char)} {values : List Toml}
    (each : List.Forall₂ (Writes level) texts values) (n : Nat)
    (enough : (itemLines texts).length < fuel) :
    (skipFill (n + 1) (itemLines texts ++ ']' :: rest)).bind (readItems fuel level) =
      some (values, rest) := by
  induction each generalizing n fuel with
  | nil =>
    obtain ⟨fuel, rfl⟩ := Nat.exists_eq_add_one_of_ne_zero (Nat.ne_zero_of_lt enough)
    change (skipFill (n + 1) (']' :: rest)).bind _ = _
    rw [skipFill_shown rfl (by decide) (by decide) (by decide), Option.bind_some, readItems]
  | @cons text value texts values written _ ih =>
    obtain ⟨fuel, rfl⟩ := Nat.exists_eq_add_one_of_ne_zero (Nat.ne_zero_of_lt enough)
    have longer : (itemLines (text :: texts)).length = text.length + (itemLines texts).length + 6 := by
      simp [itemLines]
      omega
    have inner : (itemLines texts).length < fuel := by omega
    have others := ih (itemLines texts ++ ']' :: rest).length inner
    obtain ⟨c, tail, begins, opening⟩ := written.begins
    have skipped : skipFill (n + 1) (itemLines (text :: texts) ++ ']' :: rest) =
        some (text ++ ',' :: '\n' :: (itemLines texts ++ ']' :: rest)) := by
      rw [itemLines_cons, skipFill_blanks (by decide), begins, List.cons_append,
        skipFill_opening opening]
    rw [skipped, Option.bind_some]
    exact readItems_next written (by omega) others

theorem readValue_list {items : List Toml} {more : List Char} (shallow : level < levels)
    (read : (skipFill (rest.length + 1) rest).bind (readItems fuel (level + 1)) =
      some (items, more)) :
    readValue (fuel + 1) level ('[' :: rest) = some (.list items, more) := by
  obtain ⟨left, skipped, inner⟩ := Option.bind_eq_some_iff.mp read
  rw [readValue, if_neg (Nat.not_le.mpr shallow)]
  simp only [bind, Option.bind_some, skipped, inner, pure]

theorem toList_arrayText (items : List String) :
    (arrayText items).toList =
      match items.map String.toList with
      | [] => ['[', ']']
      | [text] => '[' :: (text ++ [']'])
      | texts => '[' :: '\n' :: (itemLines texts ++ [']']) := by
  have lines : ∀ items : List String,
      (String.join (items.map fun item => "    " ++ item ++ ",\n")).toList =
        itemLines (items.map String.toList) := by
    intro items
    induction items with
    | nil => rfl
    | cons item rest ih =>
      rw [List.map_cons, List.map_cons, String.join_cons, String.toList_append, ih, itemLines,
        itemLines, List.flatMap_cons]
      simp
  cases items with
  | nil => rfl
  | cons item rest =>
    cases rest with
    | nil => simp [arrayText]
    | cons other rest =>
      change ("[\n" ++ String.join ((item :: other :: rest).map _) ++ "]").toList = _
      rw [String.toList_append, String.toList_append, lines]
      rfl

theorem writtenItems_eq_map (items : List Toml) : writtenItems items = items.map writtenValue := by
  induction items with
  | nil => rfl
  | cons item rest ih => rw [writtenItems, ih, List.map_cons]

/-- A list is read item by item, whether its items stand on lines of their own or not. -/
theorem writes_list (shallow : level < levels) {items values : List Toml}
    (each : List.Forall₂ (fun item value => Writes (level + 1) (writtenValue item).toList value)
      items values) :
    Writes level (writtenValue (.list items)).toList (.list values) := by
  have texts : List.Forall₂ (Writes (level + 1)) (items.map fun v => (writtenValue v).toList)
      values := by
    rwa [List.forall₂_map_left_iff]
  have written : (writtenItems items).map String.toList =
      items.map fun v => (writtenValue v).toList := by
    rw [writtenItems_eq_map, List.map_map]
    rfl
  rw [writtenValue, toList_arrayText, written]
  generalize items.map (fun v => (writtenValue v).toList) = texts' at texts
  constructor
  · refine ⟨'[', ?_⟩
    split <;> exact ⟨_, rfl, by constructor <;> decide⟩
  · intro fuel rest enough _
    obtain ⟨fuel, rfl⟩ := Nat.exists_eq_add_one_of_ne_zero (Nat.ne_zero_of_lt enough)
    cases texts with
    | nil =>
      have room : 1 < fuel := Nat.lt_of_succ_lt_succ enough
      exact readValue_list shallow (readItems_lines .nil _ (Nat.zero_lt_of_lt room))
    | @cons text value texts values written others =>
      cases others with
      | nil =>
        have shorter : text.length + 1 < fuel := by simpa using enough
        obtain ⟨fuel, rfl⟩ := Nat.exists_eq_add_one_of_ne_zero (Nat.ne_zero_of_lt shorter)
        have last : readItems (fuel + 1) (level + 1) (text ++ ']' :: rest) = some ([value], rest) :=
          readItems_last written (Nat.lt_of_succ_lt_succ shorter)
        obtain ⟨c, tail, begins, opening⟩ := written.begins
        have skipped : skipFill ((text ++ ']' :: rest).length + 1) (text ++ ']' :: rest) =
            some (text ++ ']' :: rest) := by
          rw [begins, List.cons_append, skipFill_opening opening]
        rw [List.cons_append, List.append_assoc]
        refine readValue_list shallow ?_
        change (skipFill ((text ++ ']' :: rest).length + 1) (text ++ ']' :: rest)).bind _ = _
        rw [skipped]
        exact last
      | cons other others =>
        have all := List.Forall₂.cons written (.cons other others)
        simp only [List.length_cons, List.length_append, List.length_nil] at enough
        simp only [List.cons_append, List.append_assoc, List.nil_append]
        refine readValue_list shallow ?_
        rw [skipFill_line]
        exact readItems_lines all _ (by omega)

end Written

end SearchCompiler.Toml
