import Mathlib.Data.List.TakeWhile
import SearchCompiler.Text.Escape

/-!
# Scanning a query

A query is scanned from left to right into marks and literals. A backslash makes the next character
part of a literal, a run in double quotes is one literal with backslashes inside, and every other
character is part of a literal unless it is blank or a mark. The scanner does not know how texts are
escaped.

Both written forms of a text are scanned as one literal that holds the text (`scansTo_bareTerm`,
`scansTo_phrase`), whatever stands behind them, as long as that ends a literal.
-/

namespace SearchCompiler.Text

/-- A mark, a literal without quotes, or one in quotes. Literals hold their text without escapes. -/
inductive Piece where
  | mark (c : Char)
  | bare (text : String)
  | quoted (text : String)
deriving DecidableEq, Repr

/-- The characters besides blank ones that stand for themselves and end a literal. -/
def markChars : List Char :=
  ['+', '-', '!', '(', ')', ':', '^', '[', ']', '\x7b', '\x7d', '~', '*', '?', '|', '&', '/']

def isMark (c : Char) : Bool :=
  isBlank c || markChars.contains c

/-- Where the scanner is: in a literal without quotes that may be empty, or inside quotes, and in
both cases perhaps behind a backslash. The run is what the literal holds so far. -/
inductive ScanState where
  | bare (run : List Char)
  | bareEscape (run : List Char)
  | quoted (run : List Char)
  | quotedEscape (run : List Char)

/-- The literal of a run, unless it is empty. -/
def flush : List Char → List Piece
  | [] => []
  | run => [.bare (String.ofList run)]

/-- The pieces that end with a character, and where the scanner is behind it. -/
def scanStep : ScanState → Char → List Piece × ScanState
  | .bare run, c =>
    if c = '\\' then ([], .bareEscape run)
    else if c = '"' then (flush run, .quoted [])
    else if isMark c then (flush run ++ [.mark c], .bare [])
    else ([], .bare (run ++ [c]))
  | .bareEscape run, c => ([], .bare (run ++ [c]))
  | .quoted run, c =>
    if c = '\\' then ([], .quotedEscape run)
    else if c = '"' then ([.quoted (String.ofList run)], .bare [])
    else ([], .quoted (run ++ [c]))
  | .quotedEscape run, c => ([], .quoted (run ++ [c]))

/-- The pieces that end with the input. -/
def scanEnd : ScanState → List Piece
  | .bare run => flush run
  | .bareEscape run => flush (run ++ ['\\'])
  | .quoted run => [.quoted (String.ofList run)]
  | .quotedEscape run => [.quoted (String.ofList (run ++ ['\\']))]

def scanFrom (state : ScanState) : List Char → List Piece
  | [] => scanEnd state
  | c :: rest => (scanStep state c).1 ++ scanFrom (scanStep state c).2 rest

/-- The pieces of an input. -/
def scan (cs : List Char) : List Piece :=
  scanFrom (.bare []) cs

/-- An input that ends a literal in front of it. -/
def EndsLiteral (cs : List Char) : Prop :=
  ∀ c ∈ cs.head?, isMark c = true

/-- A text that is scanned into pieces in front of anything that ends a literal. -/
def ScansTo (cs : List Char) (pieces : List Piece) : Prop :=
  ∀ rest, EndsLiteral rest → scan (cs ++ rest) = pieces ++ scan rest

theorem isMark_ne {c : Char} (mark : isMark c = true) : c ≠ '\\' ∧ c ≠ '"' := by
  constructor
  · rintro rfl
    exact absurd mark (by decide)
  · rintro rfl
    exact absurd mark (by decide)

theorem scanStep_mark {c : Char} (mark : isMark c = true) (run : List Char) :
    scanStep (.bare run) c = (flush run ++ [.mark c], .bare []) := by
  obtain ⟨notEscape, notQuote⟩ := isMark_ne mark
  rw [scanStep, if_neg notEscape, if_neg notQuote, if_pos mark]

theorem scan_mark {c : Char} (mark : isMark c = true) (rest : List Char) :
    scan (c :: rest) = .mark c :: scan rest := by
  rw [scan, scanFrom, scanStep_mark mark]
  rfl

/-- What ends a literal ends the run of the scanner. -/
theorem scanFrom_endsLiteral {rest : List Char} (ends : EndsLiteral rest) (run : List Char) :
    scanFrom (.bare run) rest = flush run ++ scan rest := by
  cases rest with
  | nil => exact (List.append_nil _).symm
  | cons c rest =>
    have mark : isMark c = true := ends c rfl
    rw [scan_mark mark, scanFrom, scanStep_mark mark, List.append_assoc]
    rfl

theorem scansTo_nil : ScansTo [] [] := fun _ _ => rfl

theorem ScansTo.mark {c : Char} (mark : isMark c = true) {cs : List Char} {pieces : List Piece}
    (scans : ScansTo cs pieces) : ScansTo (c :: cs) (.mark c :: pieces) := by
  intro rest ends
  rw [List.cons_append, scan_mark mark, scans rest ends]
  rfl

theorem endsLiteral_mark {c : Char} (mark : isMark c = true) (rest : List Char) :
    EndsLiteral (c :: rest) := by
  rintro _ ⟨⟩
  exact mark

/-- A mark ends the literal in front of it. -/
theorem ScansTo.append_mark {c : Char} (mark : isMark c = true) {cs ds : List Char}
    {ps qs : List Piece} (first : ScansTo cs ps) (second : ScansTo ds qs) :
    ScansTo (cs ++ c :: ds) (ps ++ .mark c :: qs) := by
  intro rest ends
  rw [List.append_assoc, List.cons_append, first _ (endsLiteral_mark mark _), scan_mark mark,
    second rest ends, List.append_assoc]
  rfl

/-- Text without quotes and backslashes. -/
def IsUnquoted (cs : List Char) : Prop :=
  ∀ c ∈ cs, c ≠ '\\' ∧ c ≠ '"'

instance (cs : List Char) : Decidable (IsUnquoted cs) :=
  decidable_of_iff (cs.all (fun c => c != '\\' && c != '"') = true) (by simp [IsUnquoted])

theorem isUnquoted_append {cs ds : List Char} (left : IsUnquoted cs) (right : IsUnquoted ds) :
    IsUnquoted (cs ++ ds) := by
  intro c among
  rcases List.mem_append.mp among with first | second
  · exact left c first
  · exact right c second

/-- How text without quotes is scanned does not depend on what stands behind it, once that ends a
literal. -/
theorem scanFrom_unquoted {cs : List Char} (plain : IsUnquoted cs) (run : List Char) :
    ∃ pieces, ∀ rest, EndsLiteral rest →
      scanFrom (.bare run) (cs ++ rest) = pieces ++ scan rest := by
  induction cs generalizing run with
  | nil => exact ⟨flush run, fun rest ends => scanFrom_endsLiteral ends run⟩
  | cons c cs ih =>
    -- A mark starts a new run and any other character extends it, so the run is general here.
    have inner : IsUnquoted cs := fun x among => plain x (List.mem_cons_of_mem c among)
    obtain ⟨notEscape, notQuote⟩ := plain c List.mem_cons_self
    cases mark : isMark c with
    | true =>
      obtain ⟨pieces, scans⟩ := ih inner []
      refine ⟨flush run ++ .mark c :: pieces, fun rest ends => ?_⟩
      rw [List.cons_append, scanFrom, scanStep_mark mark, scans rest ends, List.append_assoc,
        List.append_assoc]
      rfl
    | false =>
      obtain ⟨pieces, scans⟩ := ih inner (run ++ [c])
      refine ⟨pieces, fun rest ends => ?_⟩
      have step : scanStep (.bare run) c = ([], .bare (run ++ [c])) := by
        rw [scanStep, if_neg notEscape, if_neg notQuote, if_neg (by simp [mark])]
      rw [List.cons_append, scanFrom, step, List.nil_append, scans rest ends]

/-- Text without quotes and backslashes is scanned by itself. -/
theorem exists_scansTo {cs : List Char} (plain : IsUnquoted cs) : ∃ pieces, ScansTo cs pieces :=
  scanFrom_unquoted plain []

/-- Every mark, the backslash and the quote are escaped in a bare term. -/
theorem needsEscape_false {c : Char} (plain : needsEscape c = false) :
    c ≠ '\\' ∧ c ≠ '"' ∧ isMark c = false := by
  unfold needsEscape at plain
  rw [Bool.or_eq_false_iff] at plain
  obtain ⟨notSyntax, notBlank⟩ := plain
  have other : c ∉ syntaxChars := by
    intro among
    rw [List.contains_iff_mem.mpr among] at notSyntax
    cases notSyntax
  refine ⟨?_, ?_, ?_⟩
  · rintro rfl
    exact other (by decide)
  · rintro rfl
    exact other (by decide)
  · unfold isMark
    rw [notBlank, Bool.false_or, Bool.eq_false_iff]
    intro among
    have marks : markChars.all syntaxChars.contains = true := rfl
    exact other (List.contains_iff_mem.mp
      (List.all_eq_true.mp marks c (List.contains_iff_mem.mp among)))

/-- The scanner reads the bare form of a text as that text. -/
theorem scanFrom_bareTerm (run text rest : List Char) :
    scanFrom (.bare run) (bareTerm text ++ rest) = scanFrom (.bare (run ++ text)) rest := by
  induction text generalizing run with
  | nil => rw [List.append_nil]; rfl
  | cons c text ih =>
    have shift : run ++ c :: text = (run ++ [c]) ++ text := by simp
    rw [bareTerm]
    cases escaped : needsEscape c with
    | true =>
      rw [if_pos rfl, List.cons_append, List.cons_append, shift, ← ih]
      rfl
    | false =>
      obtain ⟨notEscape, notQuote, notMark⟩ := needsEscape_false escaped
      have step : scanStep (.bare run) c = ([], .bare (run ++ [c])) := by
        rw [scanStep, if_neg notEscape, if_neg notQuote, if_neg (by simp [notMark])]
      rw [if_neg Bool.false_ne_true, List.cons_append, scanFrom, step, List.nil_append, ih, shift]

/-- Whatever takes the character behind a backslash as it is, and every other character but the
quote too, reads the inside of a phrase as the text of the phrase. -/
theorem read_phraseBody {α : Type} (read : List Char → List Char → α)
    (escaped : ∀ run c rest, read run ('\\' :: c :: rest) = read (run ++ [c]) rest)
    (plain : ∀ run c rest, c ≠ '\\' → c ≠ '"' → read run (c :: rest) = read (run ++ [c]) rest)
    (run text rest : List Char) :
    read run (phraseBody text ++ rest) = read (run ++ text) rest := by
  induction text generalizing run with
  | nil => rw [List.append_nil]; rfl
  | cons c text ih =>
    have shift : run ++ c :: text = (run ++ [c]) ++ text := by simp
    rw [phraseBody]
    split
    · rw [List.cons_append, List.cons_append, shift, ← ih, escaped]
    · next other =>
      have notQuote : c ≠ '"' := fun same => other (.inl same)
      have notEscape : c ≠ '\\' := fun same => other (.inr same)
      rw [List.cons_append, plain run c _ notEscape notQuote, ih, shift]

/-- The scanner reads the inside of a phrase as the text of the phrase. -/
theorem scanFrom_phraseBody (run text rest : List Char) :
    scanFrom (.quoted run) (phraseBody text ++ rest) = scanFrom (.quoted (run ++ text)) rest := by
  refine read_phraseBody (fun run => scanFrom (.quoted run)) (fun _ _ _ => rfl)
    (fun run c rest notEscape notQuote => ?_) run text rest
  have step : scanStep (.quoted run) c = ([], .quoted (run ++ [c])) := by
    rw [scanStep, if_neg notEscape, if_neg notQuote]
  rw [scanFrom, step, List.nil_append]

theorem scansTo_bareTerm {text : List Char} (nonempty : text ≠ []) :
    ScansTo (bareTerm text) [.bare (String.ofList text)] := by
  intro rest ends
  rw [scan, scanFrom_bareTerm, List.nil_append, scanFrom_endsLiteral ends]
  obtain ⟨c, text, rfl⟩ := List.exists_cons_of_ne_nil nonempty
  rfl

/-- A written phrase is scanned as one literal in quotes with its text. -/
theorem scansTo_phrase (text : List Char) :
    ScansTo (phrase text) [.quoted (String.ofList text)] := by
  intro rest _
  have inside := scanFrom_phraseBody [] text ('"' :: rest)
  rw [List.nil_append] at inside
  rw [phrase, List.cons_append, List.append_assoc, List.singleton_append]
  change scanFrom (.quoted []) (phraseBody text ++ '"' :: rest) = _
  rw [inside]
  rfl

/-- A text that is not blank has something left when it is trimmed. -/
theorem trim_ne_nil {cs : List Char} (shown : cs.all isBlank = false) : trim cs ≠ [] := by
  intro empty
  rw [trim, List.reverse_eq_nil_iff, List.dropWhile_eq_nil_iff] at empty
  cases left : cs.dropWhile isBlank with
  | nil =>
    rw [List.dropWhile_eq_nil_iff] at left
    rw [List.all_eq_true.mpr left] at shown
    cases shown
  | cons c rest =>
    have blank : isBlank c = true := empty c (by simp [left])
    have nonempty : cs.dropWhile isBlank ≠ [] := by simp [left]
    have head := List.head_dropWhile_not isBlank nonempty
    simp [left, blank] at head

end SearchCompiler.Text
