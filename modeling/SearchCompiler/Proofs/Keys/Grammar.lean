import SearchCompiler.Keys.Parser
import SearchCompiler.Proofs.Reading

/-!
# The grammar of keys

Typed keys follow a grammar whose derivations are the trees of this module:

    alternatives  =  sequence, (OR, sequence)*
    sequence      =  unary+
    unary         =  '-', unary  |  primary
    primary       =  term  |  phrase  |  '(', alternatives, ')'

A derivation has tokens, which it spells out, and a meaning that does not mention the reader: OR is
disjunction, neighbours combine by a given conjunction, and a hyphen negates. The reader accepts
exactly the tokens that some derivation spells out, and reads them as the keys of that derivation
(`readTokens_iff`).
-/

namespace SearchCompiler.Keys

mutual

/-- One or more sequences with `OR` between them. -/
inductive Alternatives where
  | single (s : Sequence)
  | or (s : Sequence) (rest : Alternatives)

/-- One or more neighbours. -/
inductive Sequence where
  | single (u : Unary)
  | adjacent (u : Unary) (rest : Sequence)

/-- A term, a phrase, alternatives in parentheses, or the negation of one of these. -/
inductive Unary where
  | term (text : String)
  | phrase (text : String)
  | not (u : Unary)
  | group (inside : Alternatives)

end

mutual

/-- The tokens that alternatives spell out. -/
def Alternatives.tokens : Alternatives → List Token
  | .single s => s.tokens
  | .or s rest => s.tokens ++ .or :: rest.tokens

def Sequence.tokens : Sequence → List Token
  | .single u => u.tokens
  | .adjacent u rest => u.tokens ++ rest.tokens

def Unary.tokens : Unary → List Token
  | .term text => [.term text]
  | .phrase text => [.phrase text]
  | .not u => .not :: u.tokens
  | .group inside => .opening :: (inside.tokens ++ [.closing])

end

mutual

/-- The values of alternatives, given the truth of terms; a term without truth has no value, and
neither has what is made of such terms only. -/
def Alternatives.values (adjacent : Conjunction) (truth : String → Option Bool) :
    Alternatives → List Bool
  | .single s => (adjacent.value? (s.values adjacent truth)).toList
  | .or s rest => (adjacent.value? (s.values adjacent truth)).toList ++ rest.values adjacent truth

def Sequence.values (adjacent : Conjunction) (truth : String → Option Bool) : Sequence → List Bool
  | .single u => (u.value? adjacent truth).toList
  | .adjacent u rest => (u.value? adjacent truth).toList ++ rest.values adjacent truth

def Unary.value? (adjacent : Conjunction) (truth : String → Option Bool) : Unary → Option Bool
  | .term text => truth text
  | .phrase text => truth text
  | .not u => (u.value? adjacent truth).map (!·)
  | .group inside => Conjunction.or.value? (inside.values adjacent truth)

end

def Alternatives.value? (adjacent : Conjunction) (truth : String → Option Bool) (a : Alternatives) :
    Option Bool :=
  Conjunction.or.value? (a.values adjacent truth)

mutual

/-- The keys of alternatives, side by side. -/
def Alternatives.members (adjacent : Conjunction) : Alternatives → List Expression
  | .single s => [combine adjacent (s.members adjacent)]
  | .or s rest => combine adjacent (s.members adjacent) :: rest.members adjacent

def Sequence.members (adjacent : Conjunction) : Sequence → List Expression
  | .single u => [u.expression adjacent]
  | .adjacent u rest => u.expression adjacent :: rest.members adjacent

def Unary.expression (adjacent : Conjunction) : Unary → Expression
  | .term text => .term text
  | .phrase text => .term text
  | .not u => (u.expression adjacent).negate
  | .group inside => grouped adjacent (combine .or (inside.members adjacent))

end

def Alternatives.expression (adjacent : Conjunction) (a : Alternatives) : Expression :=
  combine .or (a.members adjacent)

def Sequence.expression (adjacent : Conjunction) (s : Sequence) : Expression :=
  combine adjacent (s.members adjacent)

def bare (tokens : List Spanned) : List Token :=
  tokens.map Spanned.token

mutual

/-- What is read as alternatives is spelled by some. -/
theorem readAlternatives_sound {g : Grammar} {tokens : List Spanned} {e : Expression}
    {rest : Behind tokens} (success : readAlternatives g tokens = .ok (e, rest)) :
    ∃ a : Alternatives, bare tokens = a.tokens ++ bare rest.1 ∧ e = a.expression g.adjacent := by
  rw [readAlternatives] at success
  split at success
  · cases success
  · next first behind shorter read =>
    split at success
    · cases success
    · next others left within more =>
      cases success
      obtain ⟨s, spelled, rfl⟩ := readSequence_sound read
      rcases readMoreAlternatives_sound more with ⟨rfl, same⟩ | ⟨a, further, rfl⟩
      · exact ⟨.single s, by rw [spelled, same, Alternatives.tokens], rfl⟩
      · refine ⟨.or s a, ?_, rfl⟩
        rw [spelled, further, Alternatives.tokens, List.append_assoc, List.cons_append]
termination_by (tokens.length, 5)

theorem readMoreAlternatives_sound {g : Grammar} {tokens : List Spanned} {es : List Expression}
    {rest : Within tokens} (success : readMoreAlternatives g tokens = .ok (es, rest)) :
    (es = [] ∧ bare tokens = bare rest.1) ∨
      ∃ a : Alternatives, bare tokens = .or :: (a.tokens ++ bare rest.1) ∧
        es = a.members g.adjacent := by
  rw [readMoreAlternatives.eq_def] at success
  split at success
  · next offset behind =>
    split at success
    · cases success
    · next first left shorter read =>
      split at success
      · cases success
      · next others left' within more =>
        cases success
        right
        obtain ⟨s, spelled, rfl⟩ := readSequence_sound read
        rcases readMoreAlternatives_sound more with ⟨rfl, same⟩ | ⟨a, further, rfl⟩
        · refine ⟨.single s, ?_, rfl⟩
          rw [bare, List.map_cons, ← bare, spelled, same, Alternatives.tokens]
        · refine ⟨.or s a, ?_, rfl⟩
          rw [bare, List.map_cons, ← bare, spelled, further, Alternatives.tokens,
            List.append_assoc, List.cons_append]
  · cases success
    exact .inl ⟨rfl, rfl⟩
termination_by (tokens.length, 4)
decreasing_by all_goals subst_vars; decreasing_tactic

theorem readSequence_sound {g : Grammar} {tokens : List Spanned} {e : Expression}
    {rest : Behind tokens} (success : readSequence g tokens = .ok (e, rest)) :
    ∃ s : Sequence, bare tokens = s.tokens ++ bare rest.1 ∧ e = s.expression g.adjacent := by
  rw [readSequence] at success
  split at success
  · cases success
  · next first behind shorter read =>
    split at success
    · cases success
    · next others left within more =>
      cases success
      obtain ⟨u, spelled, rfl⟩ := readUnary_sound read
      rcases readMoreUnaries_sound more with ⟨rfl, same⟩ | ⟨s, further, rfl⟩
      · exact ⟨.single u, by rw [spelled, same, Sequence.tokens], rfl⟩
      · refine ⟨.adjacent u s, ?_, rfl⟩
        rw [spelled, further, Sequence.tokens, List.append_assoc]
termination_by (tokens.length, 3)

theorem readMoreUnaries_sound {g : Grammar} {tokens : List Spanned} {es : List Expression}
    {rest : Within tokens} (success : readMoreUnaries g tokens = .ok (es, rest)) :
    (es = [] ∧ bare tokens = bare rest.1) ∨
      ∃ s : Sequence, bare tokens = s.tokens ++ bare rest.1 ∧ es = s.members g.adjacent := by
  rw [readMoreUnaries.eq_def] at success
  split at success
  · cases success
    exact .inl ⟨rfl, rfl⟩
  · next token offset behind =>
    split at success
    · split at success
      · cases success
      · next first left shorter read =>
        split at success
        · cases success
        · next others left' within more =>
          cases success
          right
          obtain ⟨u, spelled, rfl⟩ := readUnary_sound read
          rcases readMoreUnaries_sound more with ⟨rfl, same⟩ | ⟨s, further, rfl⟩
          · exact ⟨.single u, by rw [spelled, same, Sequence.tokens], rfl⟩
          · refine ⟨.adjacent u s, ?_, rfl⟩
            rw [spelled, further, Sequence.tokens, List.append_assoc]
    · cases success
      exact .inl ⟨rfl, rfl⟩
termination_by (tokens.length, 2)
decreasing_by all_goals subst_vars; decreasing_tactic

/-- What is read as a unary expression is spelled by one. -/
theorem readUnary_sound {g : Grammar} {tokens : List Spanned} {e : Expression}
    {rest : Behind tokens} (success : readUnary g tokens = .ok (e, rest)) :
    ∃ u : Unary, bare tokens = u.tokens ++ bare rest.1 ∧ e = u.expression g.adjacent := by
  rw [readUnary.eq_def] at success
  split at success
  · cases success
  · next offset behind =>
    split at success
    · cases success
    · next inner left shorter read =>
      cases success
      obtain ⟨u, spelled, rfl⟩ := readUnary_sound read
      exact ⟨.not u, congrArg (List.cons Token.not) spelled, rfl⟩
  · next text offset behind =>
    cases success
    exact ⟨.term text, rfl, rfl⟩
  · next text offset behind =>
    cases success
    exact ⟨.phrase text, rfl, rfl⟩
  · next offset behind =>
    split at success
    · cases success
    · next inner offset' left shorter read =>
      cases success
      obtain ⟨a, spelled, rfl⟩ := readAlternatives_sound read
      refine ⟨.group a, ?_, rfl⟩
      rw [bare, List.map_cons, ← bare, spelled, Unary.tokens, List.cons_append, List.append_assoc]
      rfl
    · cases success
    · cases success
  · cases success
  · cases success
termination_by (tokens.length, 1)
decreasing_by all_goals subst_vars; decreasing_tactic

end

/-- Tokens at which neighbours end. -/
def EndsSequence (tokens : List Spanned) : Prop :=
  ∀ next ∈ tokens.head?, next.token.startsUnary = false

/-- Tokens at which alternatives end. -/
def EndsAlternatives (tokens : List Spanned) : Prop :=
  ∀ next ∈ tokens.head?, next.token = .closing

theorem EndsAlternatives.endsSequence {tokens : List Spanned} (ends : EndsAlternatives tokens) :
    EndsSequence tokens := by
  intro next first
  rw [ends next first]
  rfl

theorem readMoreUnaries_nothing (g : Grammar) {rest : List Spanned} (ends : EndsSequence rest) :
    readMoreUnaries g rest = .ok ([], ⟨rest, Nat.le_refl _⟩) := by
  cases rest with
  | nil => rw [readMoreUnaries]
  | cons next rest =>
    have stop : next.token.startsUnary = false := ends next rfl
    rw [readMoreUnaries, if_neg (by simp [stop])]

theorem readMoreAlternatives_nothing (g : Grammar) {rest : List Spanned}
    (ends : EndsAlternatives rest) :
    readMoreAlternatives g rest = .ok ([], ⟨rest, Nat.le_refl _⟩) := by
  rw [readMoreAlternatives.eq_def]
  split
  · exact absurd (ends _ rfl) (by simp)
  · rfl

theorem endsSequence_or {tokens : List Spanned} {behind : List Token}
    (first : tokens.map Spanned.token = .or :: behind) {rest : List Spanned} :
    EndsSequence (tokens ++ rest) := by
  obtain ⟨next, others, rfl, named, -⟩ := List.map_eq_cons_iff.mp first
  rintro _ ⟨⟩
  rw [named]
  rfl

theorem Unary.tokens_head (u : Unary) :
    ∃ first rest, u.tokens = first :: rest ∧ first.startsUnary = true := by
  cases u <;> exact ⟨_, _, rfl, rfl⟩

theorem readMoreUnaries_next {g : Grammar} {u : Unary} {tokens ts behind rest : List Spanned}
    {next : Expression} {others : List Expression} {shorter within} (split : tokens = ts ++ behind)
    (spelled : bare ts = u.tokens) (read : readUnary g tokens = .ok (next, ⟨behind, shorter⟩))
    (more : readMoreUnaries g behind = .ok (others, ⟨rest, within⟩)) :
    readMoreUnaries g tokens =
      .ok (next :: others, ⟨rest, Nat.le_trans within (Nat.le_of_lt shorter)⟩) := by
  obtain ⟨first, left, starts⟩ := u.tokens_head
  rw [starts.1] at spelled
  obtain ⟨⟨token, offset⟩, ts, rfl, named, -⟩ := List.map_eq_cons_iff.mp spelled
  cases named
  obtain rfl : tokens = ⟨token, offset⟩ :: (ts ++ behind) := split
  rw [readMoreUnaries, if_pos starts.2, read]
  dsimp only
  rw [more]

mutual

/-- Alternatives are read whatever ends them. -/
theorem readAlternatives_complete (g : Grammar) (a : Alternatives) {tokens ts rest : List Spanned}
    (split : tokens = ts ++ rest) (spelled : bare ts = a.tokens) (ends : EndsAlternatives rest) :
    ∃ shorter, readAlternatives g tokens = .ok (a.expression g.adjacent, ⟨rest, shorter⟩) := by
  cases a with
  | single s =>
    obtain ⟨shorter, read⟩ := readSequence_complete g s split spelled ends.endsSequence
    refine ⟨shorter, ?_⟩
    rw [readAlternatives, read]
    dsimp only
    rw [readMoreAlternatives_nothing g ends]
    rfl
  | or s a =>
    obtain ⟨first, behind, rfl, read_first, read_behind⟩ := List.map_eq_append_iff.mp spelled
    rw [List.append_assoc] at split
    obtain ⟨shorter, read⟩ :=
      readSequence_complete g s split read_first (endsSequence_or read_behind)
    obtain ⟨within, more⟩ := readMoreAlternatives_complete g a rfl read_behind ends
    refine ⟨Nat.lt_of_le_of_lt within shorter, ?_⟩
    rw [readAlternatives, read]
    dsimp only
    rw [more]
    rfl

theorem readMoreAlternatives_complete (g : Grammar) (a : Alternatives)
    {tokens ts rest : List Spanned} (split : tokens = ts ++ rest)
    (spelled : bare ts = .or :: a.tokens) (ends : EndsAlternatives rest) :
    ∃ within, readMoreAlternatives g tokens = .ok (a.members g.adjacent, ⟨rest, within⟩) := by
  obtain ⟨⟨token, offset⟩, ts, rfl, named, inner⟩ := List.map_eq_cons_iff.mp spelled
  cases named
  obtain rfl : tokens = ⟨.or, offset⟩ :: (ts ++ rest) := split
  cases a with
  | single s =>
    obtain ⟨shorter, read⟩ := readSequence_complete g s rfl inner ends.endsSequence
    refine ⟨Nat.le_succ_of_le (Nat.le_of_lt shorter), ?_⟩
    rw [readMoreAlternatives, read]
    dsimp only
    rw [readMoreAlternatives_nothing g ends]
    rfl
  | or s a =>
    obtain ⟨first, behind, rfl, read_first, read_behind⟩ := List.map_eq_append_iff.mp inner
    obtain ⟨shorter, read⟩ :=
      readSequence_complete g s (List.append_assoc ..) read_first (endsSequence_or read_behind)
    obtain ⟨within, more⟩ := readMoreAlternatives_complete g a rfl read_behind ends
    refine ⟨Nat.le_succ_of_le (Nat.le_trans within (Nat.le_of_lt shorter)), ?_⟩
    rw [readMoreAlternatives, read]
    dsimp only
    rw [more]
    rfl

theorem readSequence_complete (g : Grammar) (s : Sequence) {tokens ts rest : List Spanned}
    (split : tokens = ts ++ rest) (spelled : bare ts = s.tokens) (ends : EndsSequence rest) :
    ∃ shorter, readSequence g tokens = .ok (s.expression g.adjacent, ⟨rest, shorter⟩) := by
  cases s with
  | single u =>
    obtain ⟨shorter, read⟩ := readUnary_complete g u split spelled
    refine ⟨shorter, ?_⟩
    rw [readSequence, read]
    dsimp only
    rw [readMoreUnaries_nothing g ends]
    rfl
  | adjacent u s =>
    obtain ⟨first, behind, rfl, read_first, read_behind⟩ := List.map_eq_append_iff.mp spelled
    rw [List.append_assoc] at split
    obtain ⟨shorter, read⟩ := readUnary_complete g u split read_first
    obtain ⟨within, more⟩ := readMoreUnaries_complete g s rfl read_behind ends
    refine ⟨Nat.lt_of_le_of_lt within shorter, ?_⟩
    rw [readSequence, read]
    dsimp only
    rw [more]
    rfl

theorem readMoreUnaries_complete (g : Grammar) (s : Sequence) {tokens ts rest : List Spanned}
    (split : tokens = ts ++ rest) (spelled : bare ts = s.tokens) (ends : EndsSequence rest) :
    ∃ within, readMoreUnaries g tokens = .ok (s.members g.adjacent, ⟨rest, within⟩) := by
  cases s with
  | single u =>
    obtain ⟨shorter, read⟩ := readUnary_complete g u split spelled
    exact ⟨_, readMoreUnaries_next split spelled read (readMoreUnaries_nothing g ends)⟩
  | adjacent u s =>
    obtain ⟨first, behind, rfl, read_first, read_behind⟩ := List.map_eq_append_iff.mp spelled
    rw [List.append_assoc] at split
    obtain ⟨shorter, read⟩ := readUnary_complete g u split read_first
    obtain ⟨within, more⟩ := readMoreUnaries_complete g s rfl read_behind ends
    exact ⟨_, readMoreUnaries_next split read_first read more⟩

/-- Unary expressions are read whatever stands behind them. -/
theorem readUnary_complete (g : Grammar) (u : Unary) {tokens ts rest : List Spanned}
    (split : tokens = ts ++ rest) (spelled : bare ts = u.tokens) :
    ∃ shorter, readUnary g tokens = .ok (u.expression g.adjacent, ⟨rest, shorter⟩) := by
  cases u with
  | term text =>
    obtain ⟨⟨token, offset⟩, ts, rfl, named, nothing⟩ := List.map_eq_cons_iff.mp spelled
    cases named
    cases List.map_eq_nil_iff.mp nothing
    obtain rfl : tokens = ⟨.term text, offset⟩ :: rest := split
    refine ⟨Nat.lt_succ_self _, ?_⟩
    rw [readUnary]
    rfl
  | phrase text =>
    obtain ⟨⟨token, offset⟩, ts, rfl, named, nothing⟩ := List.map_eq_cons_iff.mp spelled
    cases named
    cases List.map_eq_nil_iff.mp nothing
    obtain rfl : tokens = ⟨.phrase text, offset⟩ :: rest := split
    refine ⟨Nat.lt_succ_self _, ?_⟩
    rw [readUnary]
    rfl
  | not u =>
    obtain ⟨⟨token, offset⟩, ts, rfl, named, inner⟩ := List.map_eq_cons_iff.mp spelled
    cases named
    obtain rfl : tokens = ⟨.not, offset⟩ :: (ts ++ rest) := split
    obtain ⟨shorter, read⟩ := readUnary_complete g u rfl inner
    refine ⟨Nat.lt_succ_of_lt shorter, ?_⟩
    rw [readUnary, read]
    rfl
  | group a =>
    obtain ⟨⟨token, offset⟩, ts, rfl, named, inner⟩ := List.map_eq_cons_iff.mp spelled
    cases named
    obtain ⟨inside, last, rfl, read_inside, closing⟩ := List.map_eq_append_iff.mp inner
    obtain ⟨⟨token, offset'⟩, left, rfl, named, nothing⟩ := List.map_eq_cons_iff.mp closing
    cases named
    cases List.map_eq_nil_iff.mp nothing
    rw [List.cons_append, List.append_assoc] at split
    obtain rfl : tokens = ⟨.opening, offset⟩ :: (inside ++ ⟨.closing, offset'⟩ :: rest) := split
    have ends : EndsAlternatives (⟨.closing, offset'⟩ :: rest) := by
      rintro _ ⟨⟩
      rfl
    obtain ⟨shorter, read⟩ := readAlternatives_complete g a rfl read_inside ends
    refine ⟨Nat.lt_succ_of_lt (Nat.lt_of_succ_lt shorter), ?_⟩
    rw [readUnary, read]
    rfl

end

/-- The reader accepts exactly the tokens of a derivation, and reads them as its keys. -/
theorem readTokens_iff (adjacent : Conjunction) (tokens : List Spanned) (keys : Expression) :
    readTokens adjacent tokens = .ok (some keys) ↔
      ∃ a : Alternatives, bare tokens = a.tokens ∧ keys = a.expression adjacent := by
  unfold readTokens
  constructor
  · intro success
    split at success
    · cases success
    · split at success
      · cases success
      · next read =>
        cases success
        obtain ⟨a, spelled, rfl⟩ := readAlternatives_sound read
        exact ⟨a, by rw [spelled]; exact List.append_nil _, rfl⟩
      · cases success
  · rintro ⟨a, spelled, rfl⟩
    have ends : EndsAlternatives [] := by
      rintro _ ⟨⟩
    obtain ⟨shorter, read⟩ := readAlternatives_complete ⟨adjacent, stopOf tokens⟩ a
      (List.append_nil tokens).symm spelled ends
    have nonempty : tokens.isEmpty = false := by
      cases tokens with
      | nil => exact absurd shorter (Nat.lt_irrefl _)
      | cons first rest => rfl
    rw [nonempty, if_neg Bool.false_ne_true, read]

/-- Typed text is read as keys iff it is not blank and its tokens have a derivation. -/
theorem parse_iff (input : String) (adjacent : Conjunction) (keys : Expression) :
    parse input .terms adjacent = .ok (some keys) ↔
      Text.isBlankText input = false ∧ ∃ tokens, lex input = .ok tokens ∧
        ∃ a : Alternatives, bare tokens = a.tokens ∧
          keys = grouped adjacent (a.expression adjacent) := by
  unfold parse
  constructor
  · intro success
    split at success
    · cases success
    · next shown =>
      refine ⟨Bool.eq_false_iff.mpr shown, ?_⟩
      dsimp only at success
      split at success
      · cases success
      · next tokens cut =>
        refine ⟨tokens, cut, ?_⟩
        split at success
        · cases success
        · next read =>
          obtain ⟨inner, rfl, rfl⟩ := Option.map_eq_some_iff.mp (Except.ok.inj success)
          obtain ⟨a, spelled, rfl⟩ := (readTokens_iff adjacent tokens inner).mp read
          exact ⟨a, spelled, rfl⟩
  · rintro ⟨shown, tokens, cut, a, spelled, rfl⟩
    rw [shown, if_neg Bool.false_ne_true]
    dsimp only
    rw [cut]
    dsimp only
    rw [(readTokens_iff adjacent tokens _).mpr ⟨a, spelled, rfl⟩]
    rfl

end SearchCompiler.Keys
