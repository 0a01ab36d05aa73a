import SearchCompiler.Proofs.Keys.Reading

/-!
# Accepted keys

Which texts are read as keys, and that reading keeps their value. A text is read as nothing iff it
is blank, and otherwise as keys iff its tokens have a derivation in the grammar; the keys then have
the value of every derivation (`parse_accepts`).

Values are plain truth values here: a group is the conjunction or the disjunction of its children,
and every term counts, whether it is blank or not. The value of keys survives what the reader does
to a group while it is made: siblings are combined, groups of the same conjunction dissolve, terms
are put into groups, and negations are toggled in place.
-/

namespace SearchCompiler

namespace Conjunction

def join : Conjunction → Bool → Bool → Bool
  | and, a, b => a && b
  | or, a, b => a || b

@[simp] theorem neutral_join (conjunction : Conjunction) (value : Bool) :
    conjunction.join conjunction.neutral value = value := by
  cases conjunction <;> rfl

@[simp] theorem join_neutral (conjunction : Conjunction) (value : Bool) :
    conjunction.join value conjunction.neutral = value := by
  cases conjunction <;> simp [join, neutral]

theorem join_assoc (conjunction : Conjunction) (a b c : Bool) :
    conjunction.join (conjunction.join a b) c = conjunction.join a (conjunction.join b c) := by
  cases conjunction <;> simp [join, Bool.and_assoc, Bool.or_assoc]

end Conjunction

namespace Keys

mutual

/-- Whether keys hold: their children as the conjunction says, or the opposite if negated. -/
def Expression.holds (truth : String → Bool) : Expression → Bool
  | .term text => truth text
  | .group conjunction negated _ children => negated ^^ joined truth conjunction children

def Expression.joined (truth : String → Bool) (conjunction : Conjunction) : List Expression → Bool
  | [] => conjunction.neutral
  | e :: rest => conjunction.join (e.holds truth) (joined truth conjunction rest)

end

mutual

/-- Whether alternatives hold: one of them does. -/
def Alternatives.holds (adjacent : Conjunction) (truth : String → Bool) : Alternatives → Bool
  | .single s => s.holds adjacent truth
  | .or s rest => s.holds adjacent truth || rest.holds adjacent truth

/-- Whether neighbours hold, as the conjunction between them says. -/
def Sequence.holds (adjacent : Conjunction) (truth : String → Bool) : Sequence → Bool
  | .single u => u.holds adjacent truth
  | .adjacent u rest => adjacent.join (u.holds adjacent truth) (rest.holds adjacent truth)

def Unary.holds (adjacent : Conjunction) (truth : String → Bool) : Unary → Bool
  | .term text => truth text
  | .phrase text => truth text
  | .not u => !u.holds adjacent truth
  | .group inside => inside.holds adjacent truth

end

open Expression

section

variable (truth : String → Bool)

@[simp] theorem joined_nil (conjunction : Conjunction) :
    joined truth conjunction [] = conjunction.neutral := rfl

@[simp] theorem joined_cons (conjunction : Conjunction) (e : Expression) (rest : List Expression) :
    joined truth conjunction (e :: rest) =
      conjunction.join (e.holds truth) (joined truth conjunction rest) := rfl

theorem joined_append (conjunction : Conjunction) (es others : List Expression) :
    joined truth conjunction (es ++ others) =
      conjunction.join (joined truth conjunction es) (joined truth conjunction others) := by
  induction es with
  | nil => simp
  | cons e rest ih => rw [List.cons_append, joined_cons, ih, joined_cons, conjunction.join_assoc]

/-- A member adds to its group what it is worth, also if it dissolves there. -/
theorem joined_membersUnder (conjunction : Conjunction) (e : Expression) :
    joined truth conjunction (membersUnder conjunction e) = e.holds truth := by
  cases e with
  | term text => simp [membersUnder]
  | group c negated escaped children =>
    rw [membersUnder]
    split
    · next same =>
      simp only [Bool.and_eq_true, Bool.not_eq_true', beq_iff_eq] at same
      obtain ⟨⟨rfl, -⟩, rfl⟩ := same
      rw [Expression.holds, Bool.false_xor]
    · simp

/-- Siblings hold together whether they are combined or stand side by side. -/
theorem holds_combine (conjunction : Conjunction) (es : List Expression) :
    (combine conjunction es).holds truth = joined truth conjunction es := by
  have dissolved : ∀ es : List Expression,
      joined truth conjunction (es.flatMap (membersUnder conjunction)) =
        joined truth conjunction es := by
    intro es
    induction es with
    | nil => rfl
    | cons e rest ih =>
      rw [List.flatMap_cons, joined_append, joined_membersUnder, ih, joined_cons]
  unfold combine
  split
  · simp
  · rw [Expression.holds, Bool.false_xor, dissolved]

theorem holds_grouped (conjunction : Conjunction) (e : Expression) :
    (grouped conjunction e).holds truth = e.holds truth := by
  cases e <;> simp [grouped, Expression.holds]

theorem holds_negate (e : Expression) : e.negate.holds truth = !e.holds truth := by
  cases e with
  | term text => simp [negate, Expression.holds]
  | group conjunction negated escaped children => simp [negate, Expression.holds]

mutual

/-- Alternatives hold as their keys do. -/
theorem Alternatives.joined_members (adjacent : Conjunction) (a : Alternatives) :
    joined truth .or (a.members adjacent) = a.holds adjacent truth := by
  cases a with
  | single s =>
    rw [Alternatives.members, joined_cons, joined_nil, Conjunction.join_neutral, holds_combine,
      s.joined_members adjacent, Alternatives.holds]
  | or s rest =>
    rw [Alternatives.members, joined_cons, holds_combine, s.joined_members adjacent,
      rest.joined_members adjacent]
    rfl

/-- Neighbours hold as their keys do. -/
theorem Sequence.joined_members (adjacent : Conjunction) (s : Sequence) :
    joined truth adjacent (s.members adjacent) = s.holds adjacent truth := by
  cases s with
  | single u =>
    rw [Sequence.members, joined_cons, joined_nil, Conjunction.join_neutral,
      u.holds_expression adjacent, Sequence.holds]
  | adjacent u rest =>
    rw [Sequence.members, joined_cons, u.holds_expression adjacent, rest.joined_members adjacent,
      Sequence.holds]

/-- A unary expression holds as its keys do. -/
theorem Unary.holds_expression (adjacent : Conjunction) (u : Unary) :
    (u.expression adjacent).holds truth = u.holds adjacent truth := by
  cases u with
  | term text => rfl
  | phrase text => rfl
  | not u => rw [Unary.expression, holds_negate, u.holds_expression adjacent, Unary.holds]
  | group inside =>
    rw [Unary.expression, holds_grouped, holds_combine, inside.joined_members adjacent, Unary.holds]

end

/-- The keys that are read from a derivation hold iff it does. -/
theorem Alternatives.holds_expression (adjacent : Conjunction) (a : Alternatives) :
    (grouped adjacent (a.expression adjacent)).holds truth = a.holds adjacent truth := by
  rw [holds_grouped, Alternatives.expression, holds_combine, a.joined_members]

end

/-- A token in front of others is a token. -/
theorem cons_map_ne_nil (first : Spanned) (others : Except Nat (List Spanned)) :
    (first :: ·) <$> others ≠ .ok [] := by
  cases others <;> intro nothing <;> cases nothing

/-- Only blank characters have no token. -/
theorem lexFrom_eq_nil_iff (offset : Nat) (cs : List Char) :
    lexFrom offset cs = .ok [] ↔ cs.all Text.isBlank = true := by
  induction cs generalizing offset with
  | nil => simp [lexFrom_nil]
  | cons c rest ih =>
    rw [lexFrom_cons, List.all_cons]
    cases blank : Text.isBlank c with
    | true => rw [if_pos rfl, ih, Bool.true_and]
    | false =>
      rw [if_neg Bool.false_ne_true, Bool.false_and]
      refine iff_of_false (fun nothing => ?_) Bool.false_ne_true
      split at nothing
      · exact cons_map_ne_nil _ _ nothing
      split at nothing
      · exact cons_map_ne_nil _ _ nothing
      split at nothing
      · exact cons_map_ne_nil _ _ nothing
      split at nothing
      · split at nothing
        · cases nothing
        · exact cons_map_ne_nil _ _ nothing
      · exact cons_map_ne_nil _ _ nothing

theorem lex_eq_nil_iff (input : String) :
    lex input = .ok [] ↔ Text.isBlankText input = true := by
  rw [Text.isBlankText, ← lexFrom_eq_nil_iff 0, lex]
  cases lexFrom 0 input.toList with
  | ok tokens => simp
  | error offset => simp

theorem readTokens_eq_none_iff (adjacent : Conjunction) (tokens : List Spanned) :
    readTokens adjacent tokens = .ok none ↔ tokens = [] := by
  unfold readTokens
  rw [← List.isEmpty_iff]
  split
  · next empty => exact iff_of_true rfl empty
  · next nonempty =>
    refine iff_of_false (fun nothing => ?_) nonempty
    split at nothing <;> cases nothing

/-- Exactly blank text is read as nothing, in every mode. -/
theorem parse_eq_none_iff (input : String) (mode : Mode) (adjacent : Conjunction) :
    parse input mode adjacent = .ok none ↔ Text.isBlankText input = true := by
  unfold parse
  split
  · next blank => exact iff_of_true rfl blank
  · next shown =>
    refine iff_of_false (fun nothing => ?_) shown
    split at nothing
    · cases nothing
    · cases nothing
    all_goals
      split at nothing
      · cases nothing
      · next tokens cut =>
        split at nothing
        · cases nothing
        · next keys read =>
          rw [Option.map_eq_none_iff.mp (Except.ok.inj nothing), readTokens_eq_none_iff] at read
          rw [read, lex_eq_nil_iff] at cut
          exact shown cut

/-- Text is read alike in the two modes that read a grammar. -/
theorem parse_typed (input : String) {mode : Mode} (adjacent : Conjunction)
    (typed : mode = .terms ∨ mode = .edismax) :
    parse input mode adjacent = parse input .terms adjacent := by
  rcases typed with rfl | rfl <;> rfl

/-- Typed text is read as nothing iff it is blank. Otherwise, if it has tokens, it is read as keys
iff all of the tokens have a derivation together; and the keys hold iff any derivation of the tokens
does, for every truth of the terms. -/
theorem parse_accepts (input : String) (mode : Mode) (adjacent : Conjunction)
    (typed : mode = .terms ∨ mode = .edismax) :
    (parse input mode adjacent = .ok none ↔ Text.isBlankText input = true) ∧
      ∀ tokens, Text.isBlankText input = false → lex input = .ok tokens →
        ((∃ keys, parse input mode adjacent = .ok (some keys)) ↔
          ∃ a : Alternatives, bare tokens = a.tokens) ∧
        ∀ keys (a : Alternatives), parse input mode adjacent = .ok (some keys) →
          bare tokens = a.tokens → ∀ truth, keys.holds truth = a.holds adjacent truth := by
  refine ⟨parse_eq_none_iff input mode adjacent, fun tokens shown cut => ?_⟩
  have read_iff : ∀ keys, parse input mode adjacent = .ok (some keys) ↔
      ∃ a : Alternatives, bare tokens = a.tokens ∧
        keys = grouped adjacent (a.expression adjacent) := by
    intro keys
    rw [parse_typed input adjacent typed, parse_iff, cut]
    constructor
    · rintro ⟨-, others, same, derived⟩
      cases same
      exact derived
    · intro derived
      exact ⟨shown, tokens, rfl, derived⟩
  refine ⟨⟨?_, ?_⟩, fun keys a read spelled truth => ?_⟩
  · rintro ⟨keys, read⟩
    obtain ⟨a, spelled, -⟩ := (read_iff keys).mp read
    exact ⟨a, spelled⟩
  · rintro ⟨a, spelled⟩
    exact ⟨_, (read_iff _).mpr ⟨a, spelled, rfl⟩⟩
  · -- The derivation may be another than the one that was read: both are read as the same keys.
    have again := (read_iff _).mpr ⟨a, spelled, rfl⟩
    rw [Option.some.inj (Except.ok.inj (read.symm.trans again)), a.holds_expression]

/-- One of two terms, and not a third; negated twice. -/
def twiceNegated : Alternatives :=
  .single (.single (.not (.not (.group (.or (.single (.term "a"))
    (.single (.adjacent (.term "b") (.single (.not (.phrase "c"))))))))))

def twiceNegatedKeys : Expression :=
  .group .or false false [.term "a",
    .group .and false false [.term "b", .group .and true false [.term "c"]]]

/-- A double negation of alternatives, with a phrase among them. -/
theorem parse_accepts_negations :
    (Mode.edismax = .terms ∨ Mode.edismax = .edismax) ∧
      Text.isBlankText "--(a OR b -\"c\")" = false ∧
      (∃ tokens, lex "--(a OR b -\"c\")" = .ok tokens ∧ bare tokens = twiceNegated.tokens) ∧
      parse "--(a OR b -\"c\")" .edismax .and = .ok (some twiceNegatedKeys) ∧
      ∀ truth, twiceNegatedKeys.holds truth = (truth "a" || (truth "b" && !truth "c")) := by
  have cut : lex "--(a OR b -\"c\")" = .ok [⟨.not, 0⟩, ⟨.not, 1⟩, ⟨.opening, 2⟩, ⟨.term "a", 3⟩,
      ⟨.or, 5⟩, ⟨.term "b", 8⟩, ⟨.not, 10⟩, ⟨.phrase "c", 11⟩, ⟨.closing, 14⟩] := by
    have blanks : Text.isBlank ' ' = true ∧ Text.isBlank '-' = false ∧ Text.isBlank '(' = false ∧
        Text.isBlank ')' = false ∧ Text.isBlank '"' = false ∧ Text.isBlank 'a' = false ∧
        Text.isBlank 'b' = false ∧ Text.isBlank 'c' = false ∧ Text.isBlank 'O' = false ∧
        Text.isBlank 'R' = false := by
      decide
    simp [lex, lexFrom_cons, lexFrom_nil, bytes, wordToken, inWord, blanks]
    decide
  have shown : Text.isBlankText "--(a OR b -\"c\")" = false := by decide
  have read : parse "--(a OR b -\"c\")" .edismax .and = .ok (some twiceNegatedKeys) :=
    (parse_iff _ _ _).mpr ⟨shown, _, cut, twiceNegated, rfl, rfl⟩
  obtain ⟨-, accepted⟩ := parse_accepts "--(a OR b -\"c\")" .edismax .and (.inr rfl)
  refine ⟨.inr rfl, shown, ⟨_, cut, rfl⟩, read, fun truth => ?_⟩
  rw [(accepted _ shown cut).2 twiceNegatedKeys twiceNegated read rfl truth]
  simp [twiceNegated, Alternatives.holds, Sequence.holds, Unary.holds, Conjunction.join]

end Keys

end SearchCompiler
