import Mathlib.Algebra.Ring.Parity
import Mathlib.Data.List.Basic
import Mathlib.Data.List.TakeWhile
import SearchCompiler.Keys.Token

/-!
# Where tokens stand

Cutting typed keys into tokens loses nothing. Every token has a text in the input (`Token.source`)
and stands at the offset that is told for it; tokens follow each other without overlapping; and what
no token covers is exactly the blank characters outside of phrases. It fails iff a quote stays open,
which is the last of an odd number of quotes (`lex_lossless`).

One step of the lexer is described once (`Lexes`): a blank character is skipped, a token is cut off
in front of what can follow it (`Token.IsCut`), or a quote is found that no other quote follows. All
else is shown by induction on such steps.
-/

namespace SearchCompiler.Keys

/-! ### Bytes -/

theorem bytes_cons (c : Char) (cs : List Char) : bytes (c :: cs) = c.utf8Size + bytes cs := rfl

theorem bytes_append (cs ds : List Char) : bytes (cs ++ ds) = bytes cs + bytes ds := by
  induction cs with
  | nil => exact (Nat.zero_add _).symm
  | cons c rest ih => rw [List.cons_append, bytes_cons, bytes_cons, ih, Nat.add_assoc]

theorem utf8ByteSize_eq_bytes (text : String) : text.utf8ByteSize = bytes text.toList := by
  have general : ∀ cs : List Char, (String.ofList cs).utf8ByteSize = bytes cs := by
    intro cs
    induction cs with
    | nil => rfl
    | cons c rest ih =>
      rw [String.ofList_cons, String.utf8ByteSize_append, ih, bytes_cons]
      simp
  rw [← general, String.ofList_toList]

/-! ### Tokens in an input -/

/-- A character that ends a word: it is blank, a parenthesis or a quote. -/
def EndsWord (c : Char) : Prop :=
  Text.isBlank c = true ∨ c ∈ ['(', ')', '"']

/-- Nothing follows, or a character that ends a word. -/
def EndsWords (after : List Char) : Prop :=
  ∀ c ∈ after.head?, EndsWord c

theorem inWord_eq_false_iff {c : Char} : inWord c = false ↔ EndsWord c := by
  rw [inWord, Bool.not_eq_false']
  simp [EndsWord, or_assoc]

theorem inWord_eq_true_iff {c : Char} : inWord c = true ↔ ¬ EndsWord c := by
  rw [← inWord_eq_false_iff, Bool.not_eq_false]

def Token.source : Token → String
  | .term text => text
  | .phrase text => "\"" ++ text ++ "\""
  | .or => "OR"
  | .not => "-"
  | .opening => "("
  | .closing => ")"

/-- A token is cut off in front of what follows. A word is no longer than it has to be to end, and
no shorter; it is `OR` only as the keyword, and begins with a hyphen only behind one. -/
def Token.IsCut (after : List Char) : Token → Prop
  | .term text => text ≠ "" ∧ (∀ c ∈ text.toList, ¬ EndsWord c) ∧ text.toList.head? ≠ some '-' ∧
      text ≠ "OR" ∧ EndsWords after
  | .phrase text => '"' ∉ text.toList
  | .or => EndsWords after
  | .not | .opening | .closing => True

def Spanned.stop (s : Spanned) : Nat :=
  s.offset + s.token.source.utf8ByteSize

/-- How the rest of an input is cut into tokens from an offset on. -/
inductive Lexes : Nat → List Char → Except Nat (List Spanned) → Prop where
  | nil (offset : Nat) : Lexes offset [] (.ok [])
  | blank {offset : Nat} {c : Char} {rest : List Char} {result : Except Nat (List Spanned)}
      (skipped : Text.isBlank c = true) :
      Lexes (offset + c.utf8Size) rest result → Lexes offset (c :: rest) result
  | token {offset : Nat} {t : Token} {rest : List Char} {result : Except Nat (List Spanned)}
      (cut : t.IsCut rest) : Lexes (offset + bytes t.source.toList) rest result →
      Lexes offset (t.source.toList ++ rest) ((⟨t, offset⟩ :: ·) <$> result)
  | unclosed {offset : Nat} {rest : List Char} (last : '"' ∉ rest) :
      Lexes offset ('"' :: rest) (.error offset)

theorem endsWords_dropWhile (cs : List Char) : EndsWords (cs.dropWhile inWord) := by
  intro c first
  have stopped := List.head?_dropWhile_not inWord cs
  rw [Option.mem_def.mp first] at stopped
  exact inWord_eq_false_iff.mp stopped

/-- A word is cut off behind the last of its characters. -/
theorem wordToken_isCut {c : Char} {rest : List Char} (word : inWord c = true) (plain : c ≠ '-') :
    (wordToken (c :: rest.takeWhile inWord)).IsCut (rest.dropWhile inWord) := by
  unfold wordToken
  split
  · exact endsWords_dropWhile rest
  · next other =>
    refine ⟨?_, ?_, ?_, ?_, endsWords_dropWhile rest⟩
    · simp
    · rw [String.toList_ofList]
      refine List.forall_mem_cons.mpr ⟨inWord_eq_true_iff.mp word, fun d among => ?_⟩
      exact inWord_eq_true_iff.mp (List.mem_takeWhile_imp among)
    · simpa using plain
    · intro same
      exact other (by rw [← String.toList_ofList (l := c :: _), same]; rfl)

theorem source_wordToken (word : List Char) : (wordToken word).source.toList = word := by
  unfold wordToken
  split
  · next same => rw [same]; rfl
  · exact String.toList_ofList

theorem not_mem_of_dropWhile_eq_nil {rest : List Char}
    (unended : rest.dropWhile (· != '"') = []) : '"' ∉ rest := by
  intro among
  simpa using List.dropWhile_eq_nil_iff.mp unended _ among

/-- A phrase in front of the rest that its closing quote leaves. -/
theorem phrase_split {rest after : List Char} {quote : Char}
    (closed : rest.dropWhile (· != '"') = quote :: after) :
    '"' :: rest =
      (Token.phrase (String.ofList (rest.takeWhile (· != '"')))).source.toList ++ after := by
  have isQuote := List.head?_dropWhile_not (· != '"') rest
  rw [closed] at isQuote
  have same : quote = '"' := by simpa using isQuote
  have split := List.takeWhile_append_dropWhile (p := (· != '"')) (l := rest)
  rw [closed, same] at split
  simp only [Token.source, String.toList_append, String.toList_ofList]
  conv_lhs => rw [← split]
  simp

/-- The lexer takes such steps. -/
theorem lexes (offset : Nat) (cs : List Char) : Lexes offset cs (lexFrom offset cs) := by
  fun_induction lexFrom offset cs with
  | case1 offset => exact .nil offset
  | case2 offset c rest blank ih => exact .blank blank ih
  | case3 offset rest _ ih => exact .token (t := .opening) trivial ih
  | case4 offset rest _ _ ih => exact .token (t := .closing) trivial ih
  | case5 offset rest _ _ _ ih => exact .token (t := .not) trivial ih
  | case6 offset rest unended => exact .unclosed (not_mem_of_dropWhile_eq_nil unended)
  | case7 offset rest content quote after closed _ _ _ _ ih =>
    have size : bytes (Token.phrase (String.ofList content)).source.toList = bytes content + 2 := by
      simp only [Token.source, String.toList_append, String.toList_ofList, bytes_append]
      change 1 + bytes content + 1 = _
      omega
    rw [phrase_split closed]
    refine .token (t := .phrase _) ?_ ?_
    · rw [Token.IsCut, String.toList_ofList]
      exact fun among => by simpa using List.mem_takeWhile_imp among
    · rwa [size]
  | case8 offset c rest shown noOpening noClosing noHyphen noQuote word ih =>
    have begun : inWord c = true := by simp [inWord, shown, noOpening, noClosing, noQuote]
    have split : c :: rest = (wordToken word).source.toList ++ rest.dropWhile inWord := by
      rw [source_wordToken, List.cons_append, List.takeWhile_append_dropWhile]
    rw [split]
    refine .token (wordToken_isCut begun noHyphen) ?_
    rwa [source_wordToken]

/-! ### What all steps together do -/

theorem cons_map_eq_ok {first : Spanned} {result : Except Nat (List Spanned)} {ts : List Spanned}
    (success : (first :: ·) <$> result = .ok ts) :
    ∃ others, result = .ok others ∧ first :: others = ts := by
  cases result with
  | error e => cases success
  | ok others => exact ⟨others, rfl, Except.ok.inj success⟩

theorem cons_map_eq_error {first : Spanned} {result : Except Nat (List Spanned)} {offset : Nat} :
    (first :: ·) <$> result = .error offset ↔ result = .error offset := by
  cases result with
  | error e => exact .rfl
  | ok others => exact iff_of_false (fun same => nomatch same) (fun same => nomatch same)

theorem blank_ne_quote {c : Char} (blank : Text.isBlank c = true) : c ≠ '"' := by
  rintro rfl
  exact absurd blank (by decide)

/-- A token holds both quotes of a phrase, or none. -/
theorem even_count_source {t : Token} {after : List Char} (cut : t.IsCut after) :
    Even (t.source.toList.count '"') := by
  cases t with
  | term text =>
    have none_inside : '"' ∉ text.toList := fun among => cut.2.1 _ among (.inr (by decide))
    rw [Token.source, List.count_eq_zero_of_not_mem none_inside]
    exact Even.zero
  | phrase text =>
    simp only [Token.source, String.toList_append, List.count_append,
      List.count_eq_zero_of_not_mem cut]
    decide
  | or | not | opening | closing => decide

/-- Cutting fails iff the number of quotes is odd. -/
theorem Lexes.fails_iff {offset : Nat} {cs : List Char} {result : Except Nat (List Spanned)}
    (steps : Lexes offset cs result) :
    (∃ position, result = .error position) ↔ Odd (cs.count '"') := by
  induction steps with
  | nil => simp
  | blank skipped _ ih => rw [ih, List.count_cons_of_ne (blank_ne_quote skipped)]
  | @token _ t rest _ cut _ ih =>
    simp only [cons_map_eq_error, ih, List.count_append]
    rw [Nat.odd_add', iff_true_right (even_count_source cut)]
  | unclosed last => simp [List.count_eq_zero_of_not_mem last]

/-- The quote that stays open is the last one. -/
theorem Lexes.position {offset : Nat} {cs : List Char} {result : Except Nat (List Spanned)}
    (steps : Lexes offset cs result) {position : Nat} (failed : result = .error position) :
    ∃ before after, cs = before ++ '"' :: after ∧ '"' ∉ after ∧
      position = offset + bytes before := by
  induction steps with
  | nil => cases failed
  | @blank _ c _ _ _ _ ih =>
    obtain ⟨before, after, rfl, last, rfl⟩ := ih failed
    exact ⟨c :: before, after, rfl, last, by rw [bytes_cons, Nat.add_assoc]⟩
  | @token _ t _ _ _ _ ih =>
    obtain ⟨before, after, rfl, last, rfl⟩ := ih (cons_map_eq_error.mp failed)
    refine ⟨t.source.toList ++ before, after, (List.append_assoc _ _ _).symm, last, ?_⟩
    rw [bytes_append, Nat.add_assoc]
  | @unclosed _ rest last =>
    cases failed
    exact ⟨[], rest, rfl, last, rfl⟩

/-- Every token stands where its offset says, cut off in front of what follows. -/
theorem Lexes.placed {offset : Nat} {cs : List Char} {result : Except Nat (List Spanned)}
    (steps : Lexes offset cs result) {ts : List Spanned} (success : result = .ok ts) :
    ∀ s ∈ ts, ∃ before after, cs = before ++ s.token.source.toList ++ after ∧
      s.offset = offset + bytes before ∧ s.token.IsCut after := by
  induction steps generalizing ts with
  | nil =>
    cases success
    exact List.forall_mem_nil _
  | @blank _ c _ _ _ _ ih =>
    intro s among
    obtain ⟨before, after, rfl, place, cut⟩ := ih success s among
    exact ⟨c :: before, after, rfl, by rw [place, bytes_cons, Nat.add_assoc], cut⟩
  | @token offset t rest _ cut _ ih =>
    obtain ⟨others, rfl, rfl⟩ := cons_map_eq_ok success
    refine List.forall_mem_cons.mpr ⟨⟨[], rest, rfl, rfl, cut⟩, fun s among => ?_⟩
    obtain ⟨before, after, rfl, place, cut⟩ := ih rfl s among
    refine ⟨t.source.toList ++ before, after, by simp only [List.append_assoc], ?_, cut⟩
    rw [place, bytes_append, Nat.add_assoc]
  | unclosed => cases success

/-- No token stands in front of the offset where cutting begins. -/
theorem Lexes.offset_le {offset : Nat} {cs : List Char} {ts : List Spanned}
    (steps : Lexes offset cs (.ok ts)) {s : Spanned} (among : s ∈ ts) : offset ≤ s.offset := by
  obtain ⟨before, _, _, place, _⟩ := steps.placed rfl s among
  omega

/-- Tokens follow each other and do not overlap. -/
theorem Lexes.ordered {offset : Nat} {cs : List Char} {result : Except Nat (List Spanned)}
    (steps : Lexes offset cs result) {ts : List Spanned} (success : result = .ok ts) :
    ts.Pairwise fun s t => s.stop ≤ t.offset := by
  induction steps generalizing ts with
  | nil =>
    cases success
    exact .nil
  | blank _ _ ih => exact ih success
  | @token offset t _ _ _ steps ih =>
    obtain ⟨others, rfl, rfl⟩ := cons_map_eq_ok success
    refine List.pairwise_cons.mpr ⟨fun s among => ?_, ih rfl⟩
    rw [Spanned.stop, utf8ByteSize_eq_bytes]
    exact steps.offset_le among
  | unclosed => cases success

/-- Every token takes some bytes of an input. -/
theorem source_pos {t : Token} {after : List Char} (cut : t.IsCut after) :
    0 < t.source.utf8ByteSize := by
  cases t with
  | term text =>
    rw [Token.source, Nat.pos_iff_ne_zero, Ne, String.utf8ByteSize_eq_zero_iff]
    exact cut.1
  | phrase text =>
    rw [Token.source, String.utf8ByteSize_append, String.utf8ByteSize_append]
    exact Nat.add_pos_right _ (by decide)
  | or | not | opening | closing => decide

/-- A token covers the bytes of a character. -/
def Spanned.Covers (s : Spanned) (position size : Nat) : Prop :=
  s.offset ≤ position ∧ position + size ≤ s.stop

theorem Spanned.not_covers_before {s : Spanned} {position size : Nat}
    (first : position < s.offset) : ¬ s.Covers position size := fun covers =>
  Nat.not_le_of_lt first covers.1

theorem Spanned.not_covers_behind {s : Spanned} {position size : Nat} (done : s.stop ≤ position)
    (some_bytes : 0 < size) : ¬ s.Covers position size := by
  rintro ⟨-, ends⟩
  omega

/-- A blank character of a token stands inside a phrase, behind its first quote. -/
theorem source_not_free {t : Token} {after before behind : List Char} {c : Char}
    (cut : t.IsCut after) (split : t.source.toList = before ++ c :: behind) :
    ¬ (Text.isBlank c = true ∧ Even (before.count '"')) := by
  rintro ⟨blank, even⟩
  have inside : c ∈ t.source.toList := split ▸ List.mem_append_right _ List.mem_cons_self
  cases t with
  | term text => exact cut.2.1 c inside (.inl blank)
  | phrase text =>
    have noQuote := blank_ne_quote blank
    simp only [Token.source, String.toList_append] at split
    cases before with
    | nil => exact noQuote (List.head_eq_of_cons_eq split).symm
    | cons quote before =>
      have opens : quote = '"' := (List.head_eq_of_cons_eq split).symm
      have content : text.toList ++ ['"'] = before ++ c :: behind := List.tail_eq_of_cons_eq split
      rcases List.append_eq_append_iff.mp content with ⟨_, -, closes⟩ | ⟨_, text_eq, -⟩
      · have last : c ∈ ['"'] := closes ▸ List.mem_append_right _ List.mem_cons_self
        exact noQuote (List.mem_singleton.mp last)
      · have closed : '"' ∉ before := fun among =>
          cut (text_eq ▸ List.mem_append_left _ among)
        rw [opens, List.count_cons_self, List.count_eq_zero_of_not_mem closed] at even
        exact absurd even (by decide)
  | or =>
    have letter : c = 'O' ∨ c = 'R' := by simpa [Token.source] using inside
    rcases letter with rfl | rfl <;> exact absurd blank (by decide)
  | not | opening | closing =>
    rw [List.mem_singleton.mp inside] at blank
    exact absurd blank (by decide)

/-- The tokens together cover every character but the blank ones outside of phrases. -/
theorem Lexes.covers_iff {offset : Nat} {cs : List Char} {result : Except Nat (List Spanned)}
    (steps : Lexes offset cs result) {ts : List Spanned} (success : result = .ok ts)
    {before after : List Char} {c : Char} (split : cs = before ++ c :: after) :
    (∃ s ∈ ts, s.Covers (offset + bytes before) c.utf8Size) ↔
      ¬ (Text.isBlank c = true ∧ Even (before.count '"')) := by
  have size := c.utf8Size_pos
  induction steps generalizing ts before with
  | nil => simp at split
  | @blank offset d rest _ skipped steps ih =>
    subst success
    cases before with
    | nil =>
      cases split
      refine iff_of_false ?_ (not_not_intro ⟨skipped, Even.zero⟩)
      rintro ⟨s, among, covers⟩
      have later := steps.offset_le among
      refine Spanned.not_covers_before ?_ covers
      exact Nat.lt_of_lt_of_le (Nat.lt_add_of_pos_right size) later
    | cons e before =>
      cases split
      have inner := @ih _ rfl before rfl
      rw [bytes_cons, ← Nat.add_assoc, List.count_cons_of_ne (blank_ne_quote skipped)]
      exact inner
  | @token offset t rest _ cut steps ih =>
    obtain ⟨others, rfl, rfl⟩ := cons_map_eq_ok success
    have stop : (Spanned.mk t offset).stop = offset + bytes t.source.toList := by
      rw [Spanned.stop, utf8ByteSize_eq_bytes]
    -- Behind the token the later ones decide.
    have behind : ∀ before', rest = before' ++ c :: after → before = t.source.toList ++ before' →
        ((∃ s ∈ ⟨t, offset⟩ :: others, s.Covers (offset + bytes before) c.utf8Size) ↔
          ¬ (Text.isBlank c = true ∧ Even (before.count '"'))) := by
      rintro before' split' rfl
      have passed : ¬ (Spanned.mk t offset).Covers (offset + bytes (t.source.toList ++ before'))
          c.utf8Size := by
        refine Spanned.not_covers_behind ?_ size
        rw [stop, bytes_append]
        omega
      have inner := ih rfl split'
      rw [List.exists_mem_cons_iff, or_iff_right passed, bytes_append, ← Nat.add_assoc,
        List.count_append, Nat.even_add, iff_true_left (even_count_source cut)]
      exact inner
    rcases List.append_eq_append_iff.mp split with ⟨before', rfl, split'⟩ | ⟨inner, source, tail⟩
    · exact behind before' split' rfl
    · cases inner with
      | nil => exact behind [] tail.symm (by rw [source, List.append_nil, List.append_nil])
      | cons d inner =>
        cases tail
        refine iff_of_true ⟨⟨t, offset⟩, List.mem_cons_self, Nat.le_add_right _ _, ?_⟩
          (source_not_free cut source)
        rw [stop, source, bytes_append, bytes_cons]
        omega
  | unclosed => cases success

/-! ### Texts -/

/-- A successful cut goes through all of the input. -/
theorem lex_eq_ok {input : String} {tokens : List Spanned} (cut : lex input = .ok tokens) :
    Lexes 0 input.toList (.ok tokens) := by
  have steps := lexes 0 input.toList
  unfold lex at cut
  split at cut
  · next others ran =>
    cases cut
    exact ran ▸ steps
  · cases cut

/-- A failed cut tells of an unclosed quote at the place where it stops. -/
theorem lex_eq_error {input : String} {e : SyntaxError} (failed : lex input = .error e) :
    ∃ position, Lexes 0 input.toList (.error position) ∧
      e = .ofFault .lexing .unclosedQuote position input := by
  have steps := lexes 0 input.toList
  unfold lex at failed
  split at failed
  · cases failed
  · next position ran =>
    cases failed
    exact ⟨position, ran ▸ steps, rfl⟩

/-- Characters in a text stand for texts in it. -/
theorem eq_append_of_toList {input : String} {before inner after : List Char}
    (split : input.toList = before ++ inner ++ after) :
    input = String.ofList before ++ String.ofList inner ++ String.ofList after := by
  rw [← String.toList_inj, split]
  simp

/-- Cutting an input into tokens fails iff its quotes are odd in number, and then at the last one.
Otherwise every token has its text at its offset, cut off in front of what follows it; tokens follow
each other without overlapping; and together they cover all characters but the blank ones outside
of phrases. -/
theorem lex_lossless (input : String) :
    ((∃ e, lex input = .error e) ↔ Odd (input.toList.count '"')) ∧
      (∀ e, lex input = .error e → ∃ before after, input = before ++ "\"" ++ after ∧
        '"' ∉ after.toList ∧
        e = ⟨.lexing, "unclosed quote", some before.utf8ByteSize, some input⟩) ∧
      ∀ tokens, lex input = .ok tokens →
        (∀ s ∈ tokens, s.offset < s.stop ∧
          ∃ before after, input = before ++ s.token.source ++ after ∧
            s.offset = before.utf8ByteSize ∧ s.token.IsCut after.toList) ∧
        (tokens.Pairwise fun s t => s.stop ≤ t.offset) ∧
        ∀ before c after, input = before ++ String.singleton c ++ after →
          ((∃ s ∈ tokens, s.Covers before.utf8ByteSize c.utf8Size) ↔
            ¬ (Text.isBlank c = true ∧ Even (before.toList.count '"'))) := by
  refine ⟨?_, fun e failed => ?_, fun tokens cut => ⟨fun s among => ?_, ?_, ?_⟩⟩
  · rw [← (lexes 0 input.toList).fails_iff, lex]
    cases lexFrom 0 input.toList <;> simp
  · obtain ⟨position, steps, rfl⟩ := lex_eq_error failed
    obtain ⟨before, after, split, last, rfl⟩ := steps.position rfl
    refine ⟨String.ofList before, String.ofList after, ?_, by rwa [String.toList_ofList], ?_⟩
    · have quoted : input.toList = before ++ ['"'] ++ after := by
        rw [split, List.append_assoc]
        rfl
      exact eq_append_of_toList quoted
    · rw [utf8ByteSize_eq_bytes, String.toList_ofList, Nat.zero_add]
      rfl
  · obtain ⟨before, after, split, place, cut'⟩ := (lex_eq_ok cut).placed rfl s among
    refine ⟨Nat.lt_add_of_pos_right (source_pos cut'), String.ofList before, String.ofList after,
      ?_, ?_, by rwa [String.toList_ofList]⟩
    · rw [eq_append_of_toList split, String.ofList_toList]
    · rw [utf8ByteSize_eq_bytes, String.toList_ofList, place, Nat.zero_add]
  · exact (lex_eq_ok cut).ordered rfl
  · rintro before c after rfl
    have split : (before ++ String.singleton c ++ after).toList =
        before.toList ++ c :: after.toList := by
      simp
    have covered := (lex_eq_ok cut).covers_iff rfl split
    rwa [Nat.zero_add, ← utf8ByteSize_eq_bytes] at covered

/-- A phrase directly behind a word of two bytes, blanks inside of it, hyphens at the start of a
word and inside of one, and `OR` in front of a parenthesis. -/
theorem lex_lossless_mixed :
    lex "é\"( b\" -x-y OR(" = .ok [⟨.term "é", 0⟩, ⟨.phrase "( b", 2⟩, ⟨.not, 8⟩, ⟨.term "x-y", 9⟩,
        ⟨.or, 13⟩, ⟨.opening, 15⟩] ∧
      ∀ before c after, "é\"( b\" -x-y OR(" = before ++ String.singleton c ++ after →
        ((∃ s ∈ [⟨.term "é", 0⟩, ⟨.phrase "( b", 2⟩, ⟨.not, 8⟩, ⟨.term "x-y", 9⟩, ⟨.or, 13⟩,
          ⟨.opening, 15⟩], Spanned.Covers s before.utf8ByteSize c.utf8Size) ↔
            ¬ (Text.isBlank c = true ∧ Even (before.toList.count '"'))) := by
  have cut : lex "é\"( b\" -x-y OR(" = .ok [⟨.term "é", 0⟩, ⟨.phrase "( b", 2⟩, ⟨.not, 8⟩,
      ⟨.term "x-y", 9⟩, ⟨.or, 13⟩, ⟨.opening, 15⟩] := by
    have blanks : Text.isBlank ' ' = true ∧ Text.isBlank 'é' = false ∧ Text.isBlank '"' = false ∧
        Text.isBlank '(' = false ∧ Text.isBlank 'b' = false ∧ Text.isBlank '-' = false ∧
        Text.isBlank 'x' = false ∧ Text.isBlank 'y' = false ∧ Text.isBlank 'O' = false ∧
        Text.isBlank 'R' = false := by
      decide
    simp [lex, lexFrom_cons, lexFrom_nil, bytes, wordToken, inWord, blanks]
    decide
  exact ⟨cut, ((lex_lossless _).2.2 _ cut).2.2⟩

end SearchCompiler.Keys
