import SearchCompiler.Proofs.Clause
import SearchCompiler.Proofs.Literal

/-!
# Texts that are one clause

A query is read clause by clause. A clause goes to the first blank, or closing bracket, outside all
quotes and brackets; a bracket that is closed by one of another kind makes no clause. The reader
(`readClause`) keeps a stack of the brackets that are due and looks at nothing else.

The texts that it takes whole are described without it, by a grammar: brackets outside quotes are
balanced and properly nested, and blanks stand inside of them or in quotes (`WellNested`). Such a
text is read up to its end in front of any blank or closing bracket. With at most one sign in front
it is a single clause (`IsSingleClause`), and stays one behind a plus and in parentheses
(`IsSingleClause.readAsOne` and its neighbours).
-/

namespace SearchCompiler.Text

/-- The bracket that closes an opening one. -/
def closing? : Char → Option Char
  | '(' => some ')'
  | '[' => some ']'
  | '\x7b' => some '\x7d'
  | _ => none

def isClosing (c : Char) : Bool :=
  c == ')' || c == ']' || c == '\x7d'

/-- Whether a character stands for itself outside quotes: no bracket, no quote and no backslash. -/
def isOrdinary (c : Char) : Bool :=
  (closing? c).isNone && !isClosing c && c != '"' && c != '\\'

/-! ### The grammar -/

/-- What may stand between two quotes: a quote only behind a backslash, and a backslash only in
front of a character. -/
inductive IsQuotable : List Char → Prop where
  | nil : IsQuotable []
  | escaped (c : Char) {cs : List Char} : IsQuotable cs → IsQuotable ('\\' :: c :: cs)
  | plain {c : Char} {cs : List Char} : c ≠ '\\' → c ≠ '"' → IsQuotable cs → IsQuotable (c :: cs)

/-- Brackets outside quotes are balanced and properly nested. Blanks stand in quotes or brackets,
and outside of them only where they are allowed. -/
inductive WellNested : (blanks : Bool) → List Char → Prop where
  | nil {blanks : Bool} : WellNested blanks []
  | ordinary {blanks : Bool} {c : Char} {cs : List Char} : isOrdinary c = true →
      (isBlank c = true → blanks = true) → WellNested blanks cs → WellNested blanks (c :: cs)
  | quoted {blanks : Bool} {run cs : List Char} : IsQuotable run → WellNested blanks cs →
      WellNested blanks ('"' :: (run ++ '"' :: cs))
  | bracketed {blanks : Bool} {opening closing : Char} {inside cs : List Char} :
      closing? opening = some closing → WellNested true inside → WellNested blanks cs →
      WellNested blanks (opening :: (inside ++ closing :: cs))

/-- A clause without a sign in front: well nested, with blanks only in quotes and brackets. -/
structure IsBody (cs : List Char) : Prop where
  nonempty : cs ≠ []
  unsigned : startsWithSign cs = false
  nested : WellNested false cs

/-- A clause with at most one sign in front. -/
inductive IsSingleClause : List Char → Prop where
  | unsigned {cs : List Char} : IsBody cs → IsSingleClause cs
  | signed (sign : Sign) {cs : List Char} : IsBody cs → IsSingleClause (sign.char :: cs)

namespace WellNested

variable {blanks : Bool} {cs ds : List Char}

theorem append (first : WellNested blanks cs) (second : WellNested blanks ds) :
    WellNested blanks (cs ++ ds) := by
  induction first with
  | nil => exact second
  | ordinary own blank _ ih => exact .ordinary own blank (ih second)
  | quoted run _ ih =>
    rw [List.cons_append, List.append_assoc, List.cons_append]
    exact .quoted run (ih second)
  | bracketed pair inside _ _ ih =>
    rw [List.cons_append, List.append_assoc, List.cons_append]
    exact .bracketed pair inside (ih second)

/-- Blanks need not stand where they are allowed. -/
theorem allow (nested : WellNested false cs) (blanks : Bool) : WellNested blanks cs := by
  generalize strict : false = none_allowed at nested
  induction nested with
  | nil => exact .nil
  | ordinary own blank _ ih =>
    subst strict
    exact .ordinary own (fun isBlank => absurd (blank isBlank) Bool.false_ne_true) (ih rfl)
  | quoted run _ ih => exact .quoted run (ih strict)
  | bracketed pair inside _ _ ih => exact .bracketed pair inside (ih strict)

theorem parenthesized (nested : WellNested true cs) : WellNested blanks ('(' :: (cs ++ [')'])) :=
  .bracketed rfl nested .nil

theorem signed (sign : Sign) (nested : WellNested blanks cs) :
    WellNested blanks (sign.char :: cs) := by
  have shown : isBlank sign.char = false := by cases sign <;> decide
  refine .ordinary ?_ (fun blank => absurd blank (by simp [shown])) nested
  cases sign <;> decide

end WellNested

theorem isQuotable_unquoted {cs : List Char} (plain : IsUnquoted cs) : IsQuotable cs := by
  induction cs with
  | nil => exact .nil
  | cons c cs ih =>
    obtain ⟨⟨notEscape, notQuote⟩, inner⟩ := List.forall_mem_cons.mp plain
    exact .plain notEscape notQuote (ih inner)

/-- Escaping leaves no quote and no backslash by itself. -/
theorem isQuotable_phraseBody (text : List Char) : IsQuotable (phraseBody text) := by
  induction text with
  | nil => exact .nil
  | cons c text ih =>
    rw [phraseBody]
    split
    · exact .escaped c ih
    · next other => exact .plain (fun same => other (.inr same)) (fun same => other (.inl same)) ih

theorem wellNested_phrase {blanks : Bool} (text : List Char) : WellNested blanks (phrase text) :=
  .quoted (isQuotable_phraseBody text) .nil

/-- A text of ordinary characters is well nested, where its blanks are allowed. -/
theorem wellNested_ordinary {blanks : Bool} {cs : List Char}
    (each : cs.all (fun c => isOrdinary c && (blanks || !isBlank c)) = true) :
    WellNested blanks cs := by
  induction cs with
  | nil => exact .nil
  | cons c cs ih =>
    rw [List.all_cons, Bool.and_eq_true, Bool.and_eq_true] at each
    obtain ⟨⟨own, blank⟩, inner⟩ := each
    refine .ordinary own (fun isBlank => ?_) (ih inner)
    simpa [isBlank] using blank

theorem isOrdinary_of_ne {c : Char}
    (other : ∀ d ∈ ['(', ')', '[', ']', '\x7b', '\x7d', '"', '\\'], c ≠ d) :
    isOrdinary c = true := by
  simp only [List.mem_cons, List.not_mem_nil, or_false, forall_eq_or_imp, forall_eq] at other
  simp [isOrdinary, isClosing, closing?, other]

theorem isOrdinary_word {c : Char} (word : Name.isWordChar c = true) : isOrdinary c = true := by
  have odd : ['(', ')', '[', ']', '\x7b', '\x7d', '"', '\\'].all (!Name.isWordChar ·) = true := rfl
  apply isOrdinary_of_ne
  rintro d among rfl
  have own := List.all_eq_true.mp odd c among
  rw [word] at own
  cases own

theorem isBlank_word {c : Char} (word : Name.isWordChar c = true) : isBlank c = false := by
  have code : 48 ≤ c.toNat ∧ c.toNat ≤ 122 := by
    unfold Name.isWordChar at word
    delta Char.isAlphanum Char.isAlpha Char.isUpper Char.isLower Char.isDigit at word
    simp only [Bool.or_eq_true, beq_iff_eq, Bool.and_eq_true, decide_eq_true_eq] at word
    change ((65 ≤ c.toNat ∧ c.toNat ≤ 90 ∨ 97 ≤ c.toNat ∧ c.toNat ≤ 122) ∨
      48 ≤ c.toNat ∧ c.toNat ≤ 57) ∨ c = '_' at word
    rcases word with inRange | rfl
    · omega
    · decide
  simp only [isBlank, Bool.or_eq_false_iff, Bool.and_eq_false_iff, decide_eq_false_iff_not,
    beq_eq_false_iff_ne]
  omega

theorem wellNested_word {blanks : Bool} {name : String} (word : Name.IsWord name) :
    WellNested blanks name.toList := by
  refine wellNested_ordinary (List.all_eq_true.mpr fun c among => ?_)
  have letter : Name.isWordChar c = true := List.all_eq_true.mp word c among
  rw [isOrdinary_word letter, isBlank_word letter, Bool.not_false, Bool.or_true, Bool.and_true]

/-! ### The reader -/

/-- Where a reader of clauses is: outside quotes or inside, and in both cases perhaps behind a
backslash. It keeps the closing brackets that are due, the next one first. -/
inductive ClauseState where
  | outside (due : List Char)
  | outsideEscape (due : List Char)
  | inside (due : List Char)
  | insideEscape (due : List Char)
deriving DecidableEq

def ClauseState.endsBefore : ClauseState → Char → Bool
  | .outside [], c => isBlank c || isClosing c
  | _, _ => false

/-- Where the reader is behind a character; a closing bracket has to be the one that is due. -/
def ClauseState.step? : ClauseState → Char → Option ClauseState
  | .outside due, c =>
    if c = '\\' then some (.outsideEscape due)
    else if c = '"' then some (.inside due)
    else match closing? c with
      | some closing => some (.outside (closing :: due))
      | none =>
        if isClosing c then
          if due.head? = some c then some (.outside due.tail) else none
        else some (.outside due)
  | .outsideEscape due, _ => some (.outside due)
  | .inside due, c =>
    if c = '\\' then some (.insideEscape due)
    else if c = '"' then some (.outside due)
    else some (.inside due)
  | .insideEscape due, _ => some (.inside due)

def readClauseFrom (state : ClauseState) : List Char → Option (List Char × List Char)
  | [] => if state = .outside [] then some ([], []) else none
  | c :: rest =>
    if state.endsBefore c then some ([], c :: rest)
    else (state.step? c).bind fun next => taking [c] (readClauseFrom next rest)

/-- Reads a clause off the front of a query. -/
def readClause (cs : List Char) : Option (List Char × List Char) :=
  readClauseFrom (.outside []) cs

/-- A query that ends a clause in front of it: it is empty or begins with a blank or a closing
bracket. -/
def EndsClause (cs : List Char) : Prop :=
  ∀ c ∈ cs.head?, isBlank c = true ∨ isClosing c = true

/-- A text that is read as one clause in front of whatever ends a clause. -/
def ReadAsOne (cs : List Char) : Prop :=
  ∀ rest, EndsClause rest → readClause (cs ++ rest) = some (cs, rest)

theorem readClauseFrom_step {state next : ClauseState} {c : Char}
    (goesOn : state.endsBefore c = false) (step : state.step? c = some next) (rest : List Char) :
    readClauseFrom state (c :: rest) = taking [c] (readClauseFrom next rest) := by
  rw [readClauseFrom, goesOn, if_neg Bool.false_ne_true, step, Option.bind_some]

/-- In front of what ends a clause nothing more is read. -/
theorem readClauseFrom_ends {rest : List Char} (ends : EndsClause rest) :
    readClauseFrom (.outside []) rest = some ([], rest) := by
  cases rest with
  | nil => rfl
  | cons c rest =>
    have stops : ClauseState.endsBefore (.outside []) c = true := Bool.or_eq_true_iff.mpr (ends c rfl)
    rw [readClauseFrom, if_pos stops]

/-- Inside quotes the reader goes on to the quote that closes them. -/
theorem readClauseFrom_quoted {run : List Char} (quotable : IsQuotable run)
    (due rest : List Char) :
    readClauseFrom (.inside due) (run ++ '"' :: rest) =
      taking (run ++ ['"']) (readClauseFrom (.outside due) rest) := by
  induction quotable with
  | nil => exact readClauseFrom_step rfl rfl rest
  | escaped c _ ih =>
    have escape : ClauseState.step? (.inside due) '\\' = some (.insideEscape due) := rfl
    have taken : ClauseState.step? (.insideEscape due) c = some (.inside due) := rfl
    rw [List.cons_append, List.cons_append, readClauseFrom_step rfl escape,
      readClauseFrom_step rfl taken, ih, taking_taking, taking_taking]
    rfl
  | @plain c run notEscape notQuote _ ih =>
    have step : ClauseState.step? (.inside due) c = some (.inside due) := by
      rw [ClauseState.step?, if_neg notEscape, if_neg notQuote]
    rw [List.cons_append, readClauseFrom_step rfl step, ih, taking_taking]
    rfl

theorem endsBefore_ordinary {c : Char} (own : isOrdinary c = true) {due : List Char}
    (allowed : isBlank c = true → due ≠ []) : ClauseState.endsBefore (.outside due) c = false := by
  cases due with
  | nil =>
    simp only [isOrdinary, Bool.and_eq_true, Bool.not_eq_true'] at own
    simpa [ClauseState.endsBefore, own.1.1.2] using allowed
  | cons next due => rfl

theorem step?_ordinary {c : Char} (own : isOrdinary c = true) (due : List Char) :
    ClauseState.step? (.outside due) c = some (.outside due) := by
  simp only [isOrdinary, Bool.and_eq_true, Bool.not_eq_true', bne_iff_ne, ne_eq,
    Option.isNone_iff_eq_none] at own
  obtain ⟨⟨⟨opensNothing, closesNothing⟩, notQuote⟩, notEscape⟩ := own
  simp [ClauseState.step?, opensNothing, closesNothing, notQuote, notEscape]

theorem endsBefore_quote (due : List Char) :
    ClauseState.endsBefore (.outside due) '"' = false := by
  cases due <;> rfl

/-- There are three pairs of brackets. -/
theorem brackets_of_closing? {opening closing : Char} (pair : closing? opening = some closing) :
    opening = '(' ∧ closing = ')' ∨ opening = '[' ∧ closing = ']' ∨
      opening = '\x7b' ∧ closing = '\x7d' := by
  unfold closing? at pair
  split at pair
  · exact .inl ⟨rfl, (Option.some.inj pair).symm⟩
  · exact .inr (.inl ⟨rfl, (Option.some.inj pair).symm⟩)
  · exact .inr (.inr ⟨rfl, (Option.some.inj pair).symm⟩)
  · cases pair

theorem endsBefore_opening {opening closing : Char} (pair : closing? opening = some closing)
    (due : List Char) : ClauseState.endsBefore (.outside due) opening = false := by
  cases due with
  | nil =>
    obtain ⟨rfl, -⟩ | ⟨rfl, -⟩ | ⟨rfl, -⟩ := brackets_of_closing? pair <;> decide
  | cons next due => rfl

theorem step?_opening {opening closing : Char} (pair : closing? opening = some closing)
    (due : List Char) :
    ClauseState.step? (.outside due) opening = some (.outside (closing :: due)) := by
  obtain ⟨rfl, rfl⟩ | ⟨rfl, rfl⟩ | ⟨rfl, rfl⟩ := brackets_of_closing? pair <;> rfl

theorem step?_closing {opening closing : Char} (pair : closing? opening = some closing)
    (due : List Char) :
    ClauseState.step? (.outside (closing :: due)) closing = some (.outside due) := by
  obtain ⟨-, rfl⟩ | ⟨-, rfl⟩ | ⟨-, rfl⟩ := brackets_of_closing? pair <;> rfl

/-- A well nested text leaves the brackets that are due as they are. Where blanks are allowed some
bracket has to be due, since a blank would end the clause otherwise. -/
theorem readClauseFrom_wellNested {blanks : Bool} {cs : List Char} (nested : WellNested blanks cs)
    {due : List Char} (allowed : blanks = true → due ≠ []) (rest : List Char) :
    readClauseFrom (.outside due) (cs ++ rest) =
      taking cs (readClauseFrom (.outside due) rest) := by
  induction nested generalizing due rest with
  | nil => exact (taking_nil _).symm
  | ordinary own blank _ ih =>
    rw [List.cons_append, readClauseFrom_step (endsBefore_ordinary own fun isBlank =>
      allowed (blank isBlank)) (step?_ordinary own due), ih allowed, taking_taking]
    rfl
  | quoted run _ ih =>
    rw [List.cons_append, List.append_assoc, List.cons_append,
      readClauseFrom_step (endsBefore_quote due) rfl, readClauseFrom_quoted run, ih allowed,
      taking_taking, taking_taking]
    simp
  | @bracketed blanks opening closing inside cs pair _ _ ihInside ih =>
    rw [List.cons_append, List.append_assoc, List.cons_append,
      readClauseFrom_step (endsBefore_opening pair due) (step?_opening pair due),
      ihInside (fun _ => List.cons_ne_nil _ _), readClauseFrom_step rfl (step?_closing pair due),
      ih allowed, taking_taking, taking_taking, taking_taking]
    simp

theorem WellNested.readAsOne {cs : List Char} (nested : WellNested false cs) : ReadAsOne cs := by
  intro rest ends
  rw [readClause, readClauseFrom_wellNested nested (fun none_allowed => nomatch none_allowed),
    readClauseFrom_ends ends, taking_eq_some_iff]

example : readClause "-x:[* TO *] +(y:(\"a) b\")^1)".toList =
    some ("-x:[* TO *]".toList, " +(y:(\"a) b\")^1)".toList) := by decide

/-! ### Single clauses -/

namespace IsSingleClause

variable {cs : List Char}

theorem nested (single : IsSingleClause cs) : WellNested false cs := by
  cases single with
  | unsigned body => exact body.nested
  | signed sign body => exact body.nested.signed sign

/-- A single clause is read as a whole, with its sign. -/
theorem readAsOne (single : IsSingleClause cs) : ReadAsOne cs :=
  single.nested.readAsOne

/-- A plus in front of a single clause is a plus in front of all of it. -/
theorem readAsOne_plus (single : IsSingleClause cs) : ReadAsOne ('+' :: cs) :=
  (single.nested.signed .must).readAsOne

/-- The parenthesis that closes one in front of a single clause is the one behind it. -/
theorem readAsOne_parenthesized (single : IsSingleClause cs) : ReadAsOne ('(' :: (cs ++ [')'])) :=
  (single.nested.allow true).parenthesized.readAsOne

end IsSingleClause

theorem isBody_phrase (text : List Char) : IsBody (phrase text) :=
  ⟨List.cons_ne_nil _ _, rfl, wellNested_phrase text⟩

/-- What stands behind the body of a clause does not give it a sign. -/
theorem IsBody.append {cs ds : List Char} (front : IsBody cs) (behind : WellNested false ds) :
    IsBody (cs ++ ds) := by
  obtain ⟨c, cs, rfl⟩ := List.exists_cons_of_ne_nil front.nonempty
  refine ⟨List.cons_ne_nil _ _, ?_, front.nested.append behind⟩
  rw [List.cons_append, startsWithSign_cons, ← startsWithSign_cons c cs]
  exact front.unsigned

theorem isBody_parenthesized {cs : List Char} (nested : WellNested true cs) :
    IsBody ('(' :: (cs ++ [')'])) :=
  ⟨List.cons_ne_nil _ _, rfl, nested.parenthesized⟩

end SearchCompiler.Text

namespace SearchCompiler.Clause

open Text

/-- Blanks between clauses stand inside of the parentheses around them. -/
theorem wellNested_charsAll {cs : List Clause} (each : ∀ c ∈ cs, IsSingleClause c.chars) :
    WellNested true (charsAll cs) := by
  match cs with
  | [] => exact .nil
  | [c] => exact (each c List.mem_cons_self).nested.allow true
  | c :: d :: rest =>
    have others := wellNested_charsAll fun x among => each x (List.mem_cons_of_mem c among)
    have first := (each c List.mem_cons_self).nested.allow true
    exact first.append (.ordinary (by decide) (fun _ => rfl) others)

/-- Single clauses in parentheses are one clause. -/
theorem isBody_list {cs : List Clause} (each : ∀ c ∈ cs, IsSingleClause c.chars) :
    IsBody (Clause.list cs).chars :=
  isBody_parenthesized (wellNested_charsAll each)

theorem isBody_both {a b : Clause} (left : IsSingleClause a.chars)
    (right : IsSingleClause b.chars) : IsBody (Clause.both a b).chars := by
  have joined : WellNested true " AND ".toList := wellNested_ordinary (by decide)
  exact isBody_parenthesized
    (((left.nested.allow true).append joined).append (right.nested.allow true))

/-- A clause on a field is one clause, if the name is a word. -/
theorem isBody_onField {name suffix : String} {c : Clause} (word : Name.IsWord name)
    (inner : WellNested false c.chars) (behind : WellNested false suffix.toList) :
    IsBody (Clause.onField name c suffix).chars := by
  refine ⟨?_, startsWithSign_onField word c suffix, ?_⟩
  · rw [chars_onField]
    exact List.append_ne_nil_of_right_ne_nil _ (List.cons_ne_nil _ _)
  · rw [chars_onField]
    exact (wellNested_word word).append (.ordinary (by decide) (by decide) (inner.append behind))

theorem isBody_everything : IsBody everything.chars :=
  ⟨by decide, rfl, wellNested_ordinary (by decide)⟩

/-- What is made of unsigned clauses is one clause, with at most one sign. -/
theorem IsMadeOf.isSingleClause {part : Clause → Prop} (bodies : ∀ c, part c → IsBody c.chars)
    {c : Clause} (made : c.IsMadeOf part) :
    IsSingleClause c.chars ∧ (c.sign? = none → IsBody c.chars) := by
  induction made with
  | all => exact ⟨.unsigned isBody_everything, fun _ => isBody_everything⟩
  | part own => exact ⟨.unsigned (bodies _ own), fun _ => bodies _ own⟩
  | signed sign free _ ih => exact ⟨.signed sign (ih.2 free), nofun⟩
  | list _ ih =>
    have body := isBody_list fun c among => (ih c among).1
    exact ⟨.unsigned body, fun _ => body⟩
  | both _ _ left right =>
    have body := isBody_both left.1 right.1
    exact ⟨.unsigned body, fun _ => body⟩

/-- The bounds of a range stand in brackets of one kind. -/
theorem wellNested_range (lower upper : Option String) (withBounds : Bool) :
    WellNested false (Atom.range lower upper withBounds withBounds).chars := by
  have bound : ∀ text : Option String,
      WellNested true ((text.map fun s => phrase s.toList).getD ['*']) := by
    intro text
    cases text with
    | none => exact wellNested_ordinary (by decide)
    | some s => exact wellNested_phrase s.toList
  have middle : WellNested true " TO ".toList := wellNested_ordinary (by decide)
  have bounds := ((bound lower).append middle).append (bound upper)
  cases withBounds with
  | true => exact .bracketed rfl bounds .nil
  | false => exact .bracketed rfl bounds .nil

/-- A nested query without quotes in it is one clause. -/
theorem isBody_nested {query : String} (plain : IsUnquoted query.toList) :
    IsBody (Clause.atom (.nested query)).chars := by
  have opening : "_query_:\"".toList = "_query_:".toList ++ ['"'] := by decide
  have label : IsBody "_query_:".toList := ⟨by decide, rfl, wellNested_ordinary (by decide)⟩
  change IsBody ("_query_:\"".toList ++ query.toList ++ ['"'])
  rw [opening, List.append_assoc, List.append_assoc, List.singleton_append]
  exact label.append (.quoted (isQuotable_unquoted plain) .nil)

end SearchCompiler.Clause
