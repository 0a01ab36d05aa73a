import SearchCompiler.Proofs.Keys.Acceptance
import SearchCompiler.Proofs.Keys.Spans

/-!
# Where keys are at fault

How far keys have been read is told by two things (`Progress`): how many parentheses are open, and
whether keys are needed next. A token changes these or is at fault (`Progress.step`), and so keys
can be checked token by token without reading them. The reader finds the same fault at the same
place (`readTokens_error_iff`), although it finds it in the middle of a recursive descent.

The place is described by the grammar alone. A token is at fault if the tokens in front of it begin
some keys and no keys begin with it behind them (`IsOffending`); and where all tokens begin some
keys but are none themselves, they run out (`RunsOut`). An error lies at a quote that stays open or
at the start of a token at fault. Where the tokens run out it lies one byte behind the start of the
last token, and so behind its end only if the token has no more bytes (`parse_error_position`).
-/

namespace SearchCompiler.Keys

/-- How far keys have been read: the number of open parentheses, and whether keys are needed next.
-/
structure Progress where
  depth : Nat
  needed : Bool
deriving DecidableEq, Repr

namespace Progress

def start : Progress := ⟨0, true⟩

/-- Reads a token, or finds it at fault. -/
def step (p : Progress) : Token → Except Fault Progress
  | .term _ | .phrase _ => .ok ⟨p.depth, false⟩
  | .not => .ok ⟨p.depth, true⟩
  | .opening => .ok ⟨p.depth + 1, true⟩
  | .or => if p.needed then .error .misplacedOr else .ok ⟨p.depth, true⟩
  | .closing =>
    if p.needed then .error .strayClose
    else
      match p.depth with
      | 0 => .error .leftOver
      | depth + 1 => .ok ⟨depth, false⟩

/-- The fault of keys that end here, if they must not. -/
def endFault? (p : Progress) : Option Fault :=
  if p.needed then some .unexpectedEnd
  else if p.depth = 0 then none
  else some .missingClose

/-- The progress behind tokens, unless one of them is at fault. -/
def behind? (p : Progress) : List Token → Option Progress
  | [] => some p
  | t :: rest =>
    match p.step t with
    | .ok q => q.behind? rest
    | .error _ => none

/-- The first fault in tokens and its offset; `stop` is where the tokens end. -/
def diagnose? (stop : Nat) (p : Progress) : List Spanned → Option FaultAt
  | [] => p.endFault?.map (·, stop)
  | s :: rest =>
    match p.step s.token with
    | .ok q => q.diagnose? stop rest
    | .error fault => some (fault, s.offset)

/-- A token that can begin keys is read alike wherever it stands. -/
theorem step_startsUnary {t : Token} (starts : t.startsUnary = true) (depth : Nat)
    (needed : Bool) : step ⟨depth, needed⟩ t = step ⟨depth, true⟩ t := by
  cases t with
  | term | phrase | not | opening => rfl
  | or | closing => cases starts

theorem behind?_append (p : Progress) (ts us : List Token) :
    p.behind? (ts ++ us) = (p.behind? ts).bind (·.behind? us) := by
  induction ts generalizing p with
  | nil => rfl
  | cons t rest ih =>
    rw [List.cons_append, behind?, behind?]
    cases p.step t with
    | ok q => exact ih q
    | error fault => rfl

/-- Behind any progress keys can be completed: with a term, if one is needed, and with the
parentheses that are open. -/
def completion (p : Progress) : List Token :=
  (if p.needed then [.term "a"] else []) ++ List.replicate p.depth .closing

/-- Whatever was read can be completed. -/
theorem behind?_completion (p : Progress) : p.behind? p.completion = some ⟨0, false⟩ := by
  have closed : ∀ depth, behind? ⟨depth, false⟩ (List.replicate depth .closing) =
      some ⟨0, false⟩ := by
    intro depth
    induction depth with
    | zero => rfl
    | succ depth ih => exact ih
  obtain ⟨depth, needed⟩ := p
  cases needed with
  | true => exact closed depth
  | false => exact closed depth

/-- A fault is found at the first token that is at fault, or where the tokens end. -/
theorem diagnose?_eq_some_iff {stop : Nat} {p : Progress} {tokens : List Spanned} {fault : Fault}
    {position : Nat} : p.diagnose? stop tokens = some (fault, position) ↔
      (∃ before s after q, tokens = before ++ s :: after ∧ p.behind? (bare before) = some q ∧
        q.step s.token = .error fault ∧ position = s.offset) ∨
      ∃ q, p.behind? (bare tokens) = some q ∧ q.endFault? = some fault ∧ position = stop := by
  induction tokens generalizing p with
  | nil => simp [diagnose?, bare, behind?, eq_comm]
  | cons s rest ih =>
    rw [diagnose?, bare, List.map_cons, ← bare, behind?]
    cases read : p.step s.token with
    | error f =>
      simp only [Option.some.injEq, Prod.mk.injEq, reduceCtorEq, false_and, exists_false, or_false]
      constructor
      · rintro ⟨rfl, rfl⟩
        exact ⟨[], s, rest, p, rfl, rfl, read, rfl⟩
      · rintro ⟨before, t, after, q, split, ran, fails, rfl⟩
        cases before with
        | nil =>
          cases split
          cases ran
          rw [read] at fails
          exact ⟨Except.error.inj fails, rfl⟩
        | cons first before =>
          cases split
          rw [bare, List.map_cons, behind?, read] at ran
          cases ran
    | ok next =>
      dsimp only
      rw [ih]
      refine or_congr ?_ Iff.rfl
      constructor
      · rintro ⟨before, t, after, q, rfl, ran, fails, rfl⟩
        refine ⟨s :: before, t, after, q, rfl, ?_, fails, rfl⟩
        rw [bare, List.map_cons, behind?, read]
        exact ran
      · rintro ⟨before, t, after, q, split, ran, fails, rfl⟩
        cases before with
        | nil =>
          cases split
          cases ran
          rw [read] at fails
          cases fails
        | cons first before =>
          cases split
          rw [bare, List.map_cons, behind?, read] at ran
          exact ⟨before, t, after, q, rfl, ran, fails, rfl⟩

/-- Tokens have no fault iff nothing is open or needed behind them. -/
theorem diagnose?_eq_none_iff {stop : Nat} {p : Progress} {tokens : List Spanned} :
    p.diagnose? stop tokens = none ↔ p.behind? (bare tokens) = some ⟨0, false⟩ := by
  induction tokens generalizing p with
  | nil =>
    obtain ⟨depth, needed⟩ := p
    simp only [diagnose?, endFault?, bare, List.map_nil, behind?]
    cases needed with
    | true => simp
    | false => by_cases closed : depth = 0 <;> simp [closed]
  | cons s rest ih =>
    rw [diagnose?, bare, List.map_cons, ← bare, behind?]
    cases p.step s.token with
    | error f => simp
    | ok next => exact ih

/-- Only a closing parenthesis or `OR` is ever at fault. -/
theorem step_fault {p : Progress} {t : Token} {fault : Fault} (fails : p.step t = .error fault) :
    fault ∈ [.leftOver, .strayClose, .misplacedOr] := by
  unfold step at fails
  repeat' split at fails
  all_goals cases fails
  all_goals decide

theorem endFault?_mem {p : Progress} {fault : Fault} (ends : p.endFault? = some fault) :
    fault ∈ [.unexpectedEnd, .missingClose] := by
  unfold endFault? at ends
  repeat' split at ends
  all_goals cases ends
  all_goals decide

end Progress

/-! ### The reader finds the same fault -/

open Progress

/-- What was read from tokens agrees with checking them: a fault is the one that is found, and
otherwise it is found in what is left, which ends as it has to. -/
def Confirms {α : Type} {fits : List Spanned → Prop} (stop : Nat) (p : Progress)
    (ends : List Spanned → Prop) (tokens : List Spanned) :
    Except FaultAt (α × { rest : List Spanned // fits rest }) → Prop
  | .error f => p.diagnose? stop tokens = some f
  | .ok (_, rest) =>
    p.diagnose? stop tokens = diagnose? stop ⟨p.depth, false⟩ rest.1 ∧ ends rest.1

theorem endsAlternatives_iff {tokens : List Spanned} :
    EndsAlternatives tokens ↔
      EndsSequence tokens ∧ ∀ next ∈ tokens.head?, next.token ≠ .or := by
  constructor
  · intro ends
    refine ⟨ends.endsSequence, fun next first or => ?_⟩
    rw [ends next first] at or
    cases or
  · rintro ⟨ends, noOr⟩ next first
    have stops := ends next first
    have other := noOr next first
    cases token : next.token with
    | closing => rfl
    | or => exact absurd token other
    | term | phrase | not | opening =>
      rw [token] at stops
      cases stops

mutual

/-- Reading alternatives finds the fault that checking finds. -/
theorem readAlternatives_confirms (g : Grammar) (depth : Nat) (tokens : List Spanned) :
    Confirms g.stop ⟨depth, true⟩ EndsAlternatives tokens (readAlternatives g tokens) := by
  have first := readSequence_confirms g depth tokens
  rw [readAlternatives]
  split
  · next read =>
    rw [read] at first
    exact first
  · next e rest shorter read =>
    rw [read] at first
    obtain ⟨same, ends⟩ := first
    have more := readMoreAlternatives_confirms g depth rest ends
    split
    · next read' =>
      rw [read'] at more
      exact same.trans more
    · next others left within read' =>
      rw [read'] at more
      exact ⟨same.trans more.1, more.2⟩
termination_by (tokens.length, 5)

theorem readMoreAlternatives_confirms (g : Grammar) (depth : Nat) (tokens : List Spanned)
    (ends : EndsSequence tokens) :
    Confirms g.stop ⟨depth, false⟩ EndsAlternatives tokens (readMoreAlternatives g tokens) := by
  rw [readMoreAlternatives.eq_def]
  split
  · next offset rest =>
    have first := readSequence_confirms g depth rest
    split
    · next read =>
      rw [read] at first
      exact first
    · next e rest' shorter read =>
      rw [read] at first
      obtain ⟨same, ends'⟩ := first
      have more := readMoreAlternatives_confirms g depth rest' ends'
      split
      · next read' =>
        rw [read'] at more
        exact same.trans more
      · next others left within read' =>
        rw [read'] at more
        exact ⟨same.trans more.1, more.2⟩
  · next noOr =>
    refine ⟨rfl, endsAlternatives_iff.mpr ⟨ends, ?_⟩⟩
    rintro ⟨token, offset⟩ first rfl
    obtain ⟨rest, rfl⟩ := List.head?_eq_some_iff.mp first
    exact noOr offset rest rfl
termination_by (tokens.length, 4)
decreasing_by all_goals subst_vars; decreasing_tactic

theorem readSequence_confirms (g : Grammar) (depth : Nat) (tokens : List Spanned) :
    Confirms g.stop ⟨depth, true⟩ EndsSequence tokens (readSequence g tokens) := by
  have first := readUnary_confirms g depth tokens
  rw [readSequence]
  split
  · next read =>
    rw [read] at first
    exact first
  · next e rest shorter read =>
    rw [read] at first
    have more := readMoreUnaries_confirms g depth rest
    split
    · next read' =>
      rw [read'] at more
      exact first.1.trans more
    · next others left within read' =>
      rw [read'] at more
      exact ⟨first.1.trans more.1, more.2⟩
termination_by (tokens.length, 3)

theorem readMoreUnaries_confirms (g : Grammar) (depth : Nat) (tokens : List Spanned) :
    Confirms g.stop ⟨depth, false⟩ EndsSequence tokens (readMoreUnaries g tokens) := by
  rw [readMoreUnaries.eq_def]
  split
  · exact ⟨rfl, nofun⟩
  · next token offset rest =>
    split
    · next starts =>
      have first := readUnary_confirms g depth (⟨token, offset⟩ :: rest)
      -- A neighbour is read where none is needed, with the same tokens as where one is.
      have same : diagnose? g.stop ⟨depth, false⟩ (⟨token, offset⟩ :: rest) =
          diagnose? g.stop ⟨depth, true⟩ (⟨token, offset⟩ :: rest) := by
        rw [diagnose?, diagnose?, step_startsUnary starts]
      split
      · next read =>
        rw [read] at first
        exact same.trans first
      · next e rest' shorter read =>
        rw [read] at first
        have more := readMoreUnaries_confirms g depth rest'
        split
        · next read' =>
          rw [read'] at more
          exact same.trans (first.1.trans more)
        · next others left within read' =>
          rw [read'] at more
          exact ⟨same.trans (first.1.trans more.1), more.2⟩
    · next other =>
      refine ⟨rfl, ?_⟩
      rintro _ ⟨⟩
      exact Bool.eq_false_iff.mpr other
termination_by (tokens.length, 2)
decreasing_by all_goals subst_vars; decreasing_tactic

/-- Reading a unary expression finds the fault that checking finds. -/
theorem readUnary_confirms (g : Grammar) (depth : Nat) (tokens : List Spanned) :
    Confirms g.stop ⟨depth, true⟩ (fun _ => True) tokens (readUnary g tokens) := by
  rw [readUnary.eq_def]
  split
  · rfl
  · next offset rest =>
    have inner := readUnary_confirms g depth rest
    split
    · next read =>
      rw [read] at inner
      exact inner
    · next e left shorter read =>
      rw [read] at inner
      exact inner
  · exact ⟨rfl, trivial⟩
  · exact ⟨rfl, trivial⟩
  · next offset rest =>
    have inner := readAlternatives_confirms g (depth + 1) rest
    split
    · next read =>
      rw [read] at inner
      exact inner
    · next e offset' left shorter read =>
      rw [read] at inner
      exact ⟨inner.1, trivial⟩
    · next e token offset' left shorter other read =>
      rw [read] at inner
      exact absurd (inner.2 _ rfl) other
    · next e shorter read =>
      rw [read] at inner
      exact inner.1
  · rfl
  · rfl
termination_by (tokens.length, 1)
decreasing_by all_goals subst_vars; decreasing_tactic

end

/-- The reader fails with the first fault of the tokens, where it is. -/
theorem readTokens_error_iff (adjacent : Conjunction) (tokens : List Spanned) (f : FaultAt) :
    readTokens adjacent tokens = .error f ↔
      tokens ≠ [] ∧ start.diagnose? (stopOf tokens) tokens = some f := by
  have confirms := readAlternatives_confirms ⟨adjacent, stopOf tokens⟩ 0 tokens
  unfold readTokens
  rw [ne_eq, ← List.isEmpty_iff]
  split
  · next empty => simp [empty]
  · next some_tokens =>
    rw [iff_true_intro some_tokens, true_and]
    split
    · next read =>
      rw [read] at confirms
      rw [start, confirms]
      simp
    · next read =>
      rw [read] at confirms
      rw [start, confirms.1]
      simp [diagnose?, endFault?]
    · next e token offset left shorter read =>
      rw [read] at confirms
      -- What is left behind complete keys begins with a parenthesis, and none is open.
      have closing : token = .closing := confirms.2 _ rfl
      rw [start, confirms.1, closing]
      simp [diagnose?, step]

/-! ### What the grammar says of tokens -/

/-- Tokens that some keys begin with. -/
def BeginsKeys (ts : List Token) : Prop :=
  ∃ more, ∃ a : Alternatives, ts ++ more = a.tokens

/-- A token is at fault: those in front of it begin some keys, but no keys begin with it behind
them. -/
def IsOffending (tokens : List Spanned) (s : Spanned) : Prop :=
  ∃ before after, tokens = before ++ s :: after ∧
    BeginsKeys (bare before) ∧ ¬ BeginsKeys (bare before ++ [s.token])

/-- Tokens run out: they begin some keys, but are none themselves. -/
def RunsOut (tokens : List Spanned) : Prop :=
  BeginsKeys (bare tokens) ∧ ¬ ∃ a : Alternatives, bare tokens = a.tokens

/-- Tokens have a derivation iff no fault is found in them. -/
theorem derives_iff {ts : List Token} :
    (∃ a : Alternatives, ts = a.tokens) ↔ start.behind? ts = some ⟨0, false⟩ := by
  obtain ⟨tokens, rfl⟩ : ∃ tokens, bare tokens = ts :=
    ⟨ts.map (⟨·, 0⟩), by rw [bare, List.map_map]; exact List.map_id ts⟩
  rw [← @diagnose?_eq_none_iff (stopOf tokens)]
  constructor
  · rintro ⟨a, spelled⟩
    have read := (readTokens_iff .and tokens _).mpr ⟨a, spelled, rfl⟩
    have some_tokens : tokens ≠ [] := fun nothing => by
      cases read.symm.trans ((readTokens_eq_none_iff .and tokens).mpr nothing)
    refine Option.eq_none_iff_forall_ne_some.mpr fun f found => ?_
    cases read.symm.trans ((readTokens_error_iff .and tokens f).mpr ⟨some_tokens, found⟩)
  · intro clean
    cases read : readTokens .and tokens with
    | error f =>
      have found := ((readTokens_error_iff .and tokens f).mp read).2
      rw [clean] at found
      cases found
    | ok keys =>
      cases keys with
      | none =>
        rw [(readTokens_eq_none_iff .and tokens).mp read] at clean
        cases clean
      | some keys =>
        obtain ⟨a, spelled, -⟩ := (readTokens_iff .and tokens keys).mp read
        exact ⟨a, spelled⟩

/-- Tokens begin some keys iff none of them is at fault. -/
theorem beginsKeys_iff {ts : List Token} : BeginsKeys ts ↔ ∃ p, start.behind? ts = some p := by
  constructor
  · rintro ⟨more, derived⟩
    have whole := derives_iff.mp derived
    rw [behind?_append] at whole
    obtain ⟨p, read, -⟩ := Option.bind_eq_some_iff.mp whole
    exact ⟨p, read⟩
  · rintro ⟨p, read⟩
    refine ⟨p.completion, derives_iff.mpr ?_⟩
    rw [behind?_append, read, Option.bind_some, behind?_completion]

/-- No keys begin with tokens that were read up to a fault. -/
theorem isOffending_of_step {before after : List Spanned} {s : Spanned} {p : Progress}
    {fault : Fault} (read : start.behind? (bare before) = some p)
    (fails : p.step s.token = .error fault) : IsOffending (before ++ s :: after) s := by
  refine ⟨before, after, rfl, beginsKeys_iff.mpr ⟨p, read⟩, fun begins => ?_⟩
  obtain ⟨q, further⟩ := beginsKeys_iff.mp begins
  rw [behind?_append, read, Option.bind_some, behind?, fails] at further
  cases further

theorem runsOut_of_endFault {tokens : List Spanned} {p : Progress} {fault : Fault}
    (read : start.behind? (bare tokens) = some p) (ends : p.endFault? = some fault) :
    RunsOut tokens := by
  refine ⟨beginsKeys_iff.mpr ⟨p, read⟩, fun derived => ?_⟩
  rw [derives_iff, read] at derived
  cases derived
  cases ends

/-! ### Positions in an input -/

/-- A quote that stays open: an even number of quotes stand in front of it, and none behind it. -/
def StaysOpen (input : String) (position : Nat) : Prop :=
  ∃ before after, input = before ++ "\"" ++ after ∧ position = before.utf8ByteSize ∧
    Even (before.toList.count '"') ∧ '"' ∉ after.toList

/-- The text of a token stands at its offset. -/
def Spanned.StandsIn (s : Spanned) (input : String) : Prop :=
  ∃ before after, input = before ++ s.token.source ++ after ∧ s.offset = before.utf8ByteSize

theorem lex_standsIn {input : String} {tokens : List Spanned} (cut : lex input = .ok tokens)
    {s : Spanned} (among : s ∈ tokens) : s.StandsIn input ∧ 0 < s.token.source.utf8ByteSize := by
  obtain ⟨before, after, split, place, ends⟩ := (lex_eq_ok cut).placed rfl s among
  refine ⟨⟨String.ofList before, String.ofList after, ?_, ?_⟩, source_pos ends⟩
  · rw [eq_append_of_toList split, String.ofList_toList]
  · rw [utf8ByteSize_eq_bytes, String.toList_ofList, place, Nat.zero_add]

/-- Cutting fails only at a quote with an even number of quotes in front of it and none behind. -/
theorem staysOpen_of_error {input : String} {position : Nat}
    (steps : Lexes 0 input.toList (.error position)) : StaysOpen input position := by
  obtain ⟨before, after, split, last, place⟩ := steps.position rfl
  have odd := steps.fails_iff.mp ⟨position, rfl⟩
  refine ⟨String.ofList before, String.ofList after, ?_, ?_, ?_, ?_⟩
  · have quoted : input.toList = before ++ ['"'] ++ after := by
      rw [split, List.append_assoc]
      rfl
    exact eq_append_of_toList quoted
  · rw [utf8ByteSize_eq_bytes, String.toList_ofList, place, Nat.zero_add]
  · rw [split, List.count_append, List.count_cons_self, List.count_eq_zero_of_not_mem last] at odd
    rw [String.toList_ofList]
    exact (Nat.odd_add_one.mp odd) |> Nat.not_odd_iff_even.mp
  · rwa [String.toList_ofList]

open String.Pos (Raw)

theorem StaysOpen.boundary {input : String} {position : Nat} (opens : StaysOpen input position) :
    Raw.IsValid input ⟨position⟩ := by
  obtain ⟨before, after, rfl, rfl, -⟩ := opens
  exact Raw.isValid_iff_exists_append.mpr ⟨before, _, String.append_assoc, rfl⟩

theorem Spanned.StandsIn.boundary {s : Spanned} {input : String} (stands : s.StandsIn input) :
    Raw.IsValid input ⟨s.offset⟩ := by
  obtain ⟨before, after, rfl, place⟩ := stands
  rw [place]
  exact Raw.isValid_iff_exists_append.mpr ⟨before, _, String.append_assoc, rfl⟩

theorem Spanned.StandsIn.stop_le {s : Spanned} {input : String} (stands : s.StandsIn input) :
    s.stop ≤ input.utf8ByteSize := by
  obtain ⟨before, after, rfl, place⟩ := stands
  rw [Spanned.stop, place, String.utf8ByteSize_append, String.utf8ByteSize_append]
  exact Nat.le_add_right _ _

/-- One byte behind the start of a token lies between two characters iff the first character of the
token takes one byte. -/
theorem Spanned.StandsIn.next_boundary_iff {s : Spanned} {input : String}
    (stands : s.StandsIn input) (some_bytes : 0 < s.token.source.utf8ByteSize) :
    Raw.IsValid input ⟨s.offset + 1⟩ ↔
      ∃ c ∈ s.token.source.toList.head?, c.utf8Size = 1 := by
  obtain ⟨before, after, rfl, place⟩ := stands
  rw [utf8ByteSize_eq_bytes] at some_bytes
  obtain ⟨c, rest, source⟩ : ∃ c rest, s.token.source.toList = c :: rest := by
    refine List.exists_cons_of_ne_nil fun nothing => ?_
    rw [nothing] at some_bytes
    cases some_bytes
  have size := c.utf8Size_pos
  rw [source, List.head?_cons, place, Raw.isValid_iff_exists_append]
  simp only [Option.mem_some_iff, exists_eq_left', Raw.ext_iff, String.byteIdx_rawEndPos]
  constructor
  · rintro ⟨left, right, split, cut⟩
    have chars := congrArg String.toList split
    rw [String.toList_append, String.toList_append, String.toList_append, source,
      List.append_assoc] at chars
    rw [utf8ByteSize_eq_bytes, utf8ByteSize_eq_bytes left] at cut
    rcases List.append_eq_append_iff.mp chars with ⟨inner, same, others⟩ | ⟨inner, same, -⟩
    · rw [same, bytes_append] at cut
      cases inner with
      | nil => exact absurd cut (by simp [bytes])
      | cons d inner =>
        obtain rfl := List.head_eq_of_cons_eq others
        rw [bytes_cons] at cut
        omega
    · rw [same, bytes_append] at cut
      omega
  · intro single
    refine ⟨before ++ String.singleton c, String.ofList rest ++ after, ?_, ?_⟩
    · rw [← String.toList_inj]
      simp [source]
    · simp [single]

/-- A fault at the start of a token, between two characters: the token is at fault. -/
def IsTokenFault (input : String) (tokens : List Spanned) (fault : Fault) (position : Nat) : Prop :=
  fault ∈ [.leftOver, .strayClose, .misplacedOr] ∧ Raw.IsValid input ⟨position⟩ ∧
    ∃ s, IsOffending tokens s ∧ s.StandsIn input ∧ position = s.offset

/-- A fault of tokens that run out, one byte behind the start of the last one. That is the end of
the token iff it has no more bytes, and lies between two characters iff its first character has no
more. -/
def IsEndFault (input : String) (tokens : List Spanned) (fault : Fault) (position : Nat) : Prop :=
  fault ∈ [.unexpectedEnd, .missingClose] ∧ RunsOut tokens ∧
    ∃ last, tokens.getLast? = some last ∧ last.StandsIn input ∧ position = last.offset + 1 ∧
      (position = last.stop ↔ last.token.source.utf8ByteSize = 1) ∧
      (Raw.IsValid input ⟨position⟩ ↔ ∃ c ∈ last.token.source.toList.head?, c.utf8Size = 1)

/-- Every fault of the parser is at the start of a token or behind the last one. -/
theorem isTokenFault_or_isEndFault {input : String} {tokens : List Spanned}
    {adjacent : Conjunction} {fault : Fault} {position : Nat} (cut : lex input = .ok tokens)
    (failed : readTokens adjacent tokens = .error (fault, position)) :
    position ≤ input.utf8ByteSize ∧
      (IsTokenFault input tokens fault position ∨ IsEndFault input tokens fault position) := by
  obtain ⟨some_tokens, found⟩ := (readTokens_error_iff _ _ _).mp failed
  rcases diagnose?_eq_some_iff.mp found with
    ⟨before, s, after, p, rfl, read, fails, rfl⟩ | ⟨p, read, ends, rfl⟩
  · obtain ⟨stands, -⟩ := lex_standsIn cut (List.mem_append_right before List.mem_cons_self)
    exact ⟨stands.boundary.le_rawEndPos, .inl ⟨step_fault fails, stands.boundary, s,
      isOffending_of_step read fails, stands, rfl⟩⟩
  · obtain ⟨others, last, rfl⟩ := List.eq_nil_or_concat' tokens |>.resolve_left some_tokens
    obtain ⟨stands, some_bytes⟩ := lex_standsIn cut (List.mem_append_right others (.head _))
    have stop : stopOf (others ++ [last]) = last.offset + 1 := by
      rw [stopOf, List.getLast?_concat]
    have inside := stands.stop_le
    rw [stop]
    refine ⟨?_, .inr ⟨endFault?_mem ends, runsOut_of_endFault read ends, last,
      List.getLast?_concat, stands, rfl, ?_, stands.next_boundary_iff some_bytes⟩⟩
    · rw [Spanned.stop] at inside
      omega
    · rw [Spanned.stop]
      omega

theorem parse_eq_error {input : String} {mode : Mode} {adjacent : Conjunction}
    {tokens : List Spanned} {fault : Fault} {position : Nat}
    (shown : Text.isBlankText input = false) (typed : mode = .terms ∨ mode = .edismax)
    (cut : lex input = .ok tokens)
    (found : start.diagnose? (stopOf tokens) tokens = some (fault, position)) :
    parse input mode adjacent = .error (.ofFault .parsing fault position input) := by
  have some_tokens : tokens ≠ [] := by
    rintro rfl
    rw [(lex_eq_nil_iff input).mp cut] at shown
    cases shown
  have read := (readTokens_error_iff adjacent tokens _).mpr ⟨some_tokens, found⟩
  rw [parse_typed input adjacent typed, parse, shown, if_neg Bool.false_ne_true]
  simp only [cut, read]

/-- Where reading an input fails: at a quote that stays open or at the start of a token at fault,
which lie between two characters, or, if the tokens run out, one byte behind the start of the last
one. -/
theorem parse_error_position {input : String} {mode : Mode} {adjacent : Conjunction}
    {e : SyntaxError} (failed : parse input mode adjacent = .error e) :
    ∃ (fault : Fault) (position : Nat), e.message = fault.message ∧
      e.position = some position ∧ e.input = some input ∧ position ≤ input.utf8ByteSize ∧
      ((fault = .unclosedQuote ∧ Raw.IsValid input ⟨position⟩ ∧ StaysOpen input position) ∨
        ∃ tokens, lex input = .ok tokens ∧
          (IsTokenFault input tokens fault position ∨ IsEndFault input tokens fault position)) := by
  unfold parse at failed
  split at failed
  · cases failed
  split at failed
  · cases failed
  · cases failed
  -- The two modes that read the grammar fail alike.
  all_goals
    split at failed
    · next stops =>
      cases failed
      obtain ⟨position, steps, rfl⟩ := lex_eq_error stops
      have opens := staysOpen_of_error steps
      exact ⟨.unclosedQuote, position, rfl, rfl, rfl, opens.boundary.le_rawEndPos,
        .inl ⟨rfl, opens.boundary, opens⟩⟩
    · next tokens cut =>
      split at failed
      · next fault position stops =>
        cases failed
        obtain ⟨inside, place⟩ := isTokenFault_or_isEndFault cut stops
        exact ⟨fault, position, rfl, rfl, rfl, inside, .inr ⟨tokens, cut, place⟩⟩
      · cases failed

/-- `OR` behind a word of two bytes and before a parenthesis, which is at fault: keys are needed. -/
theorem parse_error_position_needed :
    parse "é (b OR)" .edismax .or =
        .error ⟨.parsing, "unexpected closing parenthesis", some 8, some "é (b OR)"⟩ ∧
      Raw.IsValid "é (b OR)" ⟨8⟩ ∧
      ∃ tokens s, lex "é (b OR)" = .ok tokens ∧ IsOffending tokens s ∧ s.StandsIn "é (b OR)" ∧
        8 = s.offset := by
  have cut : lex "é (b OR)" = .ok [⟨.term "é", 0⟩, ⟨.opening, 3⟩, ⟨.term "b", 4⟩, ⟨.or, 6⟩,
      ⟨.closing, 8⟩] := by
    have blanks : Text.isBlank ' ' = true ∧ Text.isBlank 'é' = false ∧ Text.isBlank '(' = false ∧
        Text.isBlank ')' = false ∧ Text.isBlank 'b' = false ∧ Text.isBlank 'O' = false ∧
        Text.isBlank 'R' = false := by
      decide
    simp [lex, lexFrom_cons, lexFrom_nil, bytes, wordToken, inWord, blanks]
    decide
  have failed : parse "é (b OR)" .edismax .or =
      .error ⟨.parsing, "unexpected closing parenthesis", some 8, some "é (b OR)"⟩ :=
    parse_eq_error (by decide) (.inr rfl) cut rfl
  obtain ⟨fault, position, told, ⟨⟩, -, -, place⟩ := parse_error_position failed
  refine ⟨failed, ?_⟩
  rcases place with ⟨rfl, -⟩ | ⟨tokens, cut', ⟨-, boundary, s, at_fault⟩ | ⟨ends, -⟩⟩
  · exact absurd told (by decide)
  · exact ⟨boundary, tokens, s, cut', at_fault⟩
  · simp only [List.mem_cons, List.not_mem_nil, or_false] at ends
    rcases ends with rfl | rfl <;> exact absurd told (by decide)

/-- Behind an open parenthesis, a word of two bytes is the last token, and the position lies inside
of it. -/
theorem parse_error_inside_character :
    parse "(é" .terms .and =
        .error ⟨.parsing, "expected closing parenthesis", some 2, some "(é"⟩ ∧
      ¬ Raw.IsValid "(é" ⟨2⟩ ∧
      ∃ tokens last, lex "(é" = .ok tokens ∧ tokens.getLast? = some last ∧ last.stop = 3 := by
  have cut : lex "(é" = .ok [⟨.opening, 0⟩, ⟨.term "é", 1⟩] := by
    have blanks : Text.isBlank 'é' = false ∧ Text.isBlank '(' = false := by decide
    simp [lex, lexFrom_cons, lexFrom_nil, bytes, wordToken, blanks]
  refine ⟨parse_eq_error (by decide) (.inl rfl) cut rfl, ?_, _, _, cut, rfl, by decide⟩
  decide

end SearchCompiler.Keys
