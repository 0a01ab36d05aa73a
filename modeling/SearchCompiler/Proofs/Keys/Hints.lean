import SearchCompiler.Proofs.Keys.Positions

/-!
# What hints tell

An error in keys comes with a hint, which is chosen by the words of its message. The hint about
quotes is given iff the quotes are odd in number, and the one about `OR` iff an `OR` stands where
keys are needed (`StandsWrong`).

The hint to close a parenthesis is given where keys in parentheses end without one; then a
parenthesis is open that is never closed (`HasUnclosed`). But the message about a closing
parenthesis that stands where keys are needed has the same words in it, and so has the same hint,
whether or not a parenthesis is open (`suggestion_causes`, `stray_parenthesis_hint`).
-/

namespace SearchCompiler.Keys

open Progress

/-! ### Hints by their causes -/

def quoteHint : String := "Add a closing quote (\") to complete the phrase"

def parenthesisHint : String := "Add a closing parenthesis ) to match the opening one"

def orHint : String := "OR requires keys on both sides, e.g., 'rust OR golang'"

/-- The hint that comes with a fault. -/
def Fault.hint? : Fault → Option String
  | .unclosedQuote => some quoteHint
  | .missingClose | .strayClose => some parenthesisHint
  | .misplacedOr => some orHint
  | .leftOver | .unexpectedEnd => none

/-- The words that hints go by, in the messages of faults. A closing parenthesis is spoken of where
one is missing and where one is too many. -/
theorem mentions_message (fault : Fault) :
    Text.mentions fault.message "unclosed quote" = decide (fault = .unclosedQuote) ∧
      Text.mentions fault.message "closing parenthesis" =
        decide (fault = .missingClose ∨ fault = .strayClose) ∧
      Text.mentions fault.message "OR" = decide (fault = .misplacedOr) := by
  cases fault <;> decide +kernel

theorem suggestion_ofFault (stage : Stage) (fault : Fault) (position : Nat) (input : String) :
    (SyntaxError.ofFault stage fault position input).suggestion = fault.hint? := by
  obtain ⟨quote, parenthesis, or⟩ := mentions_message fault
  rw [SyntaxError.suggestion, SyntaxError.ofFault, quote, parenthesis, or]
  cases fault <;> rfl

/-- An opening parenthesis that is never closed: behind it, closing parentheses are never more than
opening ones. -/
def HasUnclosed (ts : List Token) : Prop :=
  ∃ before after, ts = before ++ .opening :: after ∧
    ∀ part, part <+: after → part.count .closing ≤ part.count .opening

/-- Whether keys can end with a token. -/
def Token.endsKeys : Token → Bool
  | .term _ | .phrase _ | .closing => true
  | .or | .not | .opening => false

/-- No keys stand at the end of tokens. -/
def LacksKeys (ts : List Token) : Prop :=
  ∀ t ∈ ts.getLast?, t.endsKeys = false

/-- A token stands where keys are needed, behind tokens that begin some keys. -/
def StandsWrong (t : Token) (ts : List Token) : Prop :=
  ∃ before after, ts = before ++ t :: after ∧ BeginsKeys before ∧ LacksKeys before

/-- Complete keys end within parentheses. -/
def EndsInside (tokens : List Spanned) : Prop :=
  RunsOut tokens ∧ ¬ LacksKeys (bare tokens) ∧ HasUnclosed (bare tokens)

/-! ### What checking tokens knows of them -/

theorem behind?_cons_eq_some_iff {p q : Progress} {t : Token} {ts : List Token} :
    p.behind? (t :: ts) = some q ↔ ∃ next, p.step t = .ok next ∧ next.behind? ts = some q := by
  rw [behind?]
  cases p.step t <;> simp

/-- A token that is read opens or closes one parenthesis, or none. -/
theorem depth_step {p q : Progress} {t : Token} (read : p.step t = .ok q) :
    q.depth + [t].count .closing = p.depth + [t].count .opening ∧ q.needed = !t.endsKeys := by
  unfold step at read
  repeat' split at read
  all_goals cases read
  all_goals simp_all [Token.endsKeys]

/-- Parentheses that were opened are closed or open. -/
theorem depth_behind {p q : Progress} {ts : List Token} (read : p.behind? ts = some q) :
    q.depth + ts.count .closing = p.depth + ts.count .opening := by
  induction ts generalizing p with
  | nil =>
    cases read
    rfl
  | cons t rest ih =>
    obtain ⟨next, first, more⟩ := behind?_cons_eq_some_iff.mp read
    have own := (depth_step first).1
    have others := ih more
    rw [← List.singleton_append, List.count_append, List.count_append]
    omega

/-- Whether keys are needed is told by the last token alone. -/
theorem needed_behind {p q : Progress} {ts : List Token} (read : p.behind? ts = some q) :
    q.needed = ts.getLast?.elim p.needed fun t => !t.endsKeys := by
  induction ts generalizing p with
  | nil =>
    cases read
    rfl
  | cons t rest ih =>
    obtain ⟨next, first, more⟩ := behind?_cons_eq_some_iff.mp read
    have own := (depth_step first).2
    cases rest with
    | nil =>
      cases more
      exact own
    | cons u others =>
      rw [ih more, List.getLast?_cons_cons, List.getLast?_cons]
      rfl

/-- Keys are needed iff none stand at the end of what was read. -/
theorem needed_iff {q : Progress} {ts : List Token} (read : start.behind? ts = some q) :
    q.needed = true ↔ LacksKeys ts := by
  rw [needed_behind read, LacksKeys]
  cases ts.getLast? with
  | none => simp [start]
  | some t => simp

/-- If more parentheses are open behind tokens than in front of them, one of the tokens is never
closed: the one from which on the number stays above the first. -/
theorem hasUnclosed_of_depth {p q : Progress} {ts : List Token} (read : p.behind? ts = some q)
    (deeper : p.depth < q.depth) : HasUnclosed ts := by
  match ts with
  | [] =>
    cases read
    exact absurd deeper (Nat.lt_irrefl _)
  | t :: rest =>
    obtain ⟨next, first, more⟩ := behind?_cons_eq_some_iff.mp read
    -- The tokens in front of an unclosed parenthesis may be any.
    have further : ∀ {part rest'}, rest = part ++ rest' → HasUnclosed rest' →
        HasUnclosed (t :: rest) := by
      rintro part rest' rfl ⟨before, after, rfl, unclosed⟩
      exact ⟨t :: part ++ before, after, by simp, unclosed⟩
    by_cases inside : next.depth < q.depth
    · exact further (List.nil_append rest).symm (hasUnclosed_of_depth more inside)
    by_cases unclosed : ∀ part, part <+: rest → part.count .closing ≤ part.count .opening
    · obtain rfl : t = .opening := by
        have own := (depth_step first).1
        cases t with
        | opening => rfl
        | term | phrase | or | not | closing =>
          simp at own
          omega
      exact ⟨[], rest, rfl, unclosed⟩
    · simp only [not_forall, Nat.not_le] at unclosed
      obtain ⟨part, ⟨rest', rfl⟩, closed⟩ := unclosed
      rw [behind?_append] at more
      obtain ⟨middle, upTo, more⟩ := Option.bind_eq_some_iff.mp more
      have counted := depth_behind upTo
      have own := (depth_step first).1
      have one : [t].count .opening ≤ 1 := List.count_le_length
      exact further rfl (hasUnclosed_of_depth more (by omega))
termination_by ts.length

/-! ### The tokens behind a fault -/

/-- The faults of a token, and where it is at fault. -/
theorem step_eq_error_iff {p : Progress} {t : Token} {fault : Fault} :
    p.step t = .error fault ↔
      t = .or ∧ fault = .misplacedOr ∧ p.needed = true ∨
      t = .closing ∧ fault = .strayClose ∧ p.needed = true ∨
      t = .closing ∧ fault = .leftOver ∧ p.needed = false ∧ p.depth = 0 := by
  obtain ⟨depth, needed⟩ := p
  cases t with
  | term | phrase | not | opening => simp [step]
  | or => cases needed <;> simp [step, eq_comm]
  | closing => cases needed <;> cases depth <;> simp [step, eq_comm]

theorem endFault?_eq_missingClose_iff {p : Progress} :
    p.endFault? = some .missingClose ↔ p.needed = false ∧ p.depth ≠ 0 := by
  unfold endFault?
  cases p.needed <;> by_cases closed : p.depth = 0 <;> simp [closed]

/-- A fault of a token that stands where keys are needed is found iff such a token is the first at
fault. -/
theorem found_iff_standsWrong (stop : Nat) (tokens : List Spanned) {t : Token} {fault : Fault}
    (own : ∀ (p : Progress) (u : Token), p.step u = .error fault ↔ u = t ∧ p.needed = true)
    (inside : fault ∉ [.unexpectedEnd, .missingClose]) :
    (∃ position, start.diagnose? stop tokens = some (fault, position)) ↔
      StandsWrong t (bare tokens) := by
  constructor
  · rintro ⟨position, found⟩
    rcases diagnose?_eq_some_iff.mp found with
      ⟨before, s, after, p, rfl, read, fails, -⟩ | ⟨p, -, ends, -⟩
    · obtain ⟨same, needed⟩ := (own p s.token).mp fails
      refine ⟨bare before, bare after, ?_, beginsKeys_iff.mpr ⟨p, read⟩, (needed_iff read).mp needed⟩
      rw [bare, List.map_append, List.map_cons, same]
      rfl
    · exact absurd (endFault?_mem ends) inside
  · rintro ⟨before, after, split, begins, lacks⟩
    obtain ⟨p, read⟩ := beginsKeys_iff.mp begins
    obtain ⟨before', behind, rfl, rfl, others⟩ := List.map_eq_append_iff.mp split
    obtain ⟨s, after', rfl, rfl, -⟩ := List.map_eq_cons_iff.mp others
    exact ⟨s.offset, diagnose?_eq_some_iff.mpr (.inl ⟨before', s, after', p, rfl, read,
      (own p s.token).mpr ⟨rfl, (needed_iff read).mpr lacks⟩, rfl⟩)⟩

/-- A parenthesis is found to be missing iff complete keys end within parentheses, one of which is
never closed. -/
theorem found_iff_endsInside (stop : Nat) (tokens : List Spanned) :
    (∃ position, start.diagnose? stop tokens = some (.missingClose, position)) ↔
      EndsInside tokens := by
  constructor
  · rintro ⟨position, found⟩
    rcases diagnose?_eq_some_iff.mp found with ⟨before, s, after, p, -, -, fails, -⟩ | ⟨p, read, ends, -⟩
    · exact absurd (step_fault fails) (by decide)
    · obtain ⟨complete, deep⟩ := endFault?_eq_missingClose_iff.mp ends
      refine ⟨runsOut_of_endFault read ends, ?_, hasUnclosed_of_depth read (Nat.pos_of_ne_zero deep)⟩
      rw [← needed_iff read, complete]
      exact Bool.false_ne_true
  · rintro ⟨⟨begins, incomplete⟩, keys, -⟩
    obtain ⟨⟨depth, needed⟩, read⟩ := beginsKeys_iff.mp begins
    rw [← needed_iff read, Bool.not_eq_true] at keys
    obtain rfl : needed = false := keys
    have deep : depth ≠ 0 := by
      rintro rfl
      exact incomplete (derives_iff.mpr read)
    exact ⟨stop, diagnose?_eq_some_iff.mpr
      (.inr ⟨_, read, endFault?_eq_missingClose_iff.mpr ⟨rfl, deep⟩, rfl⟩)⟩

/-! ### The hint of an error -/

theorem hint?_eq_quoteHint_iff {fault : Fault} :
    fault.hint? = some quoteHint ↔ fault = .unclosedQuote := by
  cases fault <;> decide +kernel

theorem hint?_eq_orHint_iff {fault : Fault} :
    fault.hint? = some orHint ↔ fault = .misplacedOr := by
  cases fault <;> decide +kernel

theorem hint?_eq_parenthesisHint_iff {fault : Fault} :
    fault.hint? = some parenthesisHint ↔ fault = .missingClose ∨ fault = .strayClose := by
  cases fault <;> decide +kernel

/-- Reading fails where the quotes are odd in number, and otherwise with the first fault of the
tokens. -/
theorem parse_error_cases {input : String} {mode : Mode} {adjacent : Conjunction}
    {e : SyntaxError} (failed : parse input mode adjacent = .error e) :
    (Odd (input.toList.count '"') ∧ lex input = .error e ∧
        e.suggestion = Fault.unclosedQuote.hint?) ∨
      ¬ Odd (input.toList.count '"') ∧ ∃ tokens fault position, lex input = .ok tokens ∧
        start.diagnose? (stopOf tokens) tokens = some (fault, position) ∧
        e.suggestion = fault.hint? := by
  unfold parse at failed
  split at failed
  · cases failed
  split at failed
  · cases failed
  · cases failed
  -- The two modes that read the grammar fail alike.
  all_goals
    split at failed
    · next stops =>
      cases failed
      obtain ⟨position, steps, rfl⟩ := lex_eq_error stops
      exact .inl ⟨steps.fails_iff.mp ⟨position, rfl⟩, stops, suggestion_ofFault _ _ _ _⟩
    · next tokens cut =>
      split at failed
      · next fault position stops =>
        cases failed
        refine .inr ⟨fun odd => ?_, tokens, fault, position, cut,
          ((readTokens_error_iff _ _ _).mp stops).2, suggestion_ofFault _ _ _ _⟩
        obtain ⟨position, stops⟩ := (lex_eq_ok cut).fails_iff.mpr odd
        cases stops
      · cases failed

/-- The hint of an error in keys and what is wrong with them. The hint is about quotes iff they are
odd in number. It is about `OR` iff an `OR` is the first token at fault, where keys are needed. It
is about parentheses iff complete keys end within a parenthesis that is never closed, or else a
closing one is the first token at fault, where keys are needed. -/
theorem suggestion_causes {input : String} {mode : Mode} {adjacent : Conjunction} {e : SyntaxError}
    (failed : parse input mode adjacent = .error e) :
    (e.suggestion = some quoteHint ↔ Odd (input.toList.count '"')) ∧
      (e.suggestion = some orHint ↔
        ∃ tokens, lex input = .ok tokens ∧ StandsWrong .or (bare tokens)) ∧
      (e.suggestion = some parenthesisHint ↔
        ∃ tokens, lex input = .ok tokens ∧
          (EndsInside tokens ∨ StandsWrong .closing (bare tokens))) := by
  rcases parse_error_cases failed with
    ⟨odd, uncut, hint⟩ | ⟨even, tokens, fault, position, cut, found, hint⟩
  · rw [hint, hint?_eq_quoteHint_iff, hint?_eq_orHint_iff, hint?_eq_parenthesisHint_iff, uncut]
    simp [odd]
  · have only : ∀ f, (∃ position, start.diagnose? (stopOf tokens) tokens = some (f, position)) ↔
        fault = f := by
      intro f
      simp [found]
    have lexical : fault ≠ .unclosedQuote := by
      rintro rfl
      rcases diagnose?_eq_some_iff.mp found with ⟨_, _, _, _, -, -, fails, -⟩ | ⟨_, -, ends, -⟩
      · exact absurd (step_fault fails) (by decide)
      · exact absurd (endFault?_mem ends) (by decide)
    have misplaced : (∃ position, start.diagnose? (stopOf tokens) tokens =
        some (.misplacedOr, position)) ↔ StandsWrong .or (bare tokens) :=
      found_iff_standsWrong _ tokens (fun p u => by simp [step_eq_error_iff]) (by decide)
    have stray : (∃ position, start.diagnose? (stopOf tokens) tokens =
        some (.strayClose, position)) ↔ StandsWrong .closing (bare tokens) :=
      found_iff_standsWrong _ tokens (fun p u => by simp [step_eq_error_iff]) (by decide)
    have missing := found_iff_endsInside (stopOf tokens) tokens
    rw [only] at misplaced stray missing
    rw [hint, hint?_eq_quoteHint_iff, hint?_eq_orHint_iff, hint?_eq_parenthesisHint_iff, cut,
      misplaced, stray, missing]
    simp [even, lexical]

/-- Of two faults the first is told: keys are needed at the second `OR`, and the parenthesis is
never closed. -/
theorem suggestion_causes_or :
    ∃ e, parse "(\"a\" OR OR b" .edismax .and = .error e ∧ e.suggestion = some orHint ∧
      ¬ Odd ("(\"a\" OR OR b".toList.count '"') ∧
      ∃ tokens, lex "(\"a\" OR OR b" = .ok tokens ∧ StandsWrong .or (bare tokens) ∧
        HasUnclosed (bare tokens) := by
  have cut : lex "(\"a\" OR OR b" = .ok [⟨.opening, 0⟩, ⟨.phrase "a", 1⟩, ⟨.or, 5⟩, ⟨.or, 8⟩,
      ⟨.term "b", 11⟩] := by
    have blanks : Text.isBlank ' ' = true ∧ Text.isBlank '"' = false ∧ Text.isBlank '(' = false ∧
        Text.isBlank 'b' = false ∧ Text.isBlank 'O' = false ∧ Text.isBlank 'R' = false := by
      decide
    simp [lex, lexFrom_cons, lexFrom_nil, bytes, wordToken, inWord, blanks]
    decide
  have failed : parse "(\"a\" OR OR b" .edismax .and =
      .error (.ofFault .parsing .misplacedOr 8 "(\"a\" OR OR b") :=
    parse_eq_error (by decide) (.inr rfl) cut rfl
  obtain ⟨quotes, or, -⟩ := suggestion_causes failed
  have hint := suggestion_ofFault .parsing .misplacedOr 8 "(\"a\" OR OR b"
  obtain ⟨tokens, cut', wrong⟩ := or.mp hint
  refine ⟨_, failed, hint, fun odd => ?_, tokens, cut', wrong, ?_⟩
  · have told := (quotes.mpr odd).symm.trans hint
    exact absurd told (by decide +kernel)
  · obtain rfl := Except.ok.inj (cut.symm.trans cut')
    refine ⟨[], _, rfl, fun part inside => ?_⟩
    exact (inside.sublist.count_le Token.closing).trans (Nat.zero_le _)

/-- A closing parenthesis that stands alone: the hint is to add another one, to match an opening one
that is not there. -/
theorem stray_parenthesis_hint :
    ∃ e, parse ")" .terms .and = .error e ∧ e.suggestion = some parenthesisHint ∧
      ∃ tokens, lex ")" = .ok tokens ∧ ¬ HasUnclosed (bare tokens) := by
  have cut : lex ")" = .ok [⟨.closing, 0⟩] := by
    have blank : Text.isBlank ')' = false := by decide
    simp [lex, lexFrom_cons, lexFrom_nil, blank]
  refine ⟨_, parse_eq_error (by decide) (.inl rfl) cut rfl, suggestion_ofFault _ _ _ _, _, cut, ?_⟩
  rintro ⟨before, after, split, -⟩
  have among : Token.opening ∈ bare [⟨.closing, 0⟩] := split ▸ List.mem_append_right _ (.head _)
  exact absurd among (by decide)

end SearchCompiler.Keys
