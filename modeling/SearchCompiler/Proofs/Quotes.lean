import SearchCompiler.Proofs.Clause
import SearchCompiler.Proofs.Scan

/-!
# Quoted runs

A filter is scanned from left to right into single characters and literals. A double quote begins a
literal, which goes to the next double quote; inside, a backslash stands in front of a character
that is taken as it is. Nothing else has a meaning here: outside quotes a backslash is a character
like any other, and so is a quote without a partner.

The scanner knows nothing of clauses. What it makes of the written form of a clause can be told from
the clause (`Clause.segmentsTo`), as long as names and other plain parts have no quotes in them
(`Clause.IsQuoted`): every literal that is written in quotes is scanned as one literal with its
text, and every other character as itself.
-/

namespace SearchCompiler.Text

/-- A character outside quotes, or a literal in quotes without its escapes. -/
inductive Segment where
  | outside (c : Char)
  | literal (text : String)
deriving DecidableEq, Repr

def Segment.emptied : Segment → Segment
  | .outside c => .outside c
  | .literal _ => .literal ""

def outsides (cs : List Char) : List Segment :=
  cs.map .outside

/-- Where the scanner is: outside quotes, inside, or inside behind a backslash. The run is what the
literal holds so far. -/
inductive QuoteState where
  | outside
  | inside (run : List Char)
  | escape (run : List Char)

/-- The segments of the rest of a text. A run that is not closed is no literal. -/
def segmentsFrom : QuoteState → List Char → List Segment
  | .outside, [] => []
  | .inside run, [] | .escape run, [] => outsides ('"' :: run)
  | .outside, c :: rest =>
    if c = '"' then segmentsFrom (.inside []) rest else .outside c :: segmentsFrom .outside rest
  | .inside run, c :: rest =>
    if c = '\\' then segmentsFrom (.escape run) rest
    else if c = '"' then .literal (String.ofList run) :: segmentsFrom .outside rest
    else segmentsFrom (.inside (run ++ [c])) rest
  | .escape run, c :: rest => segmentsFrom (.inside (run ++ [c])) rest

def segments (cs : List Char) : List Segment :=
  segmentsFrom .outside cs

def literals (segs : List Segment) : List String :=
  segs.filterMap fun
    | .literal text => some text
    | .outside _ => none

/-- A text that is scanned into segments in front of anything. -/
def SegmentsTo (cs : List Char) (segs : List Segment) : Prop :=
  ∀ rest, segments (cs ++ rest) = segs ++ segments rest

theorem SegmentsTo.segments_eq {cs : List Char} {segs : List Segment} (scans : SegmentsTo cs segs) :
    segments cs = segs := by
  have alone := scans []
  have nothing : segments [] = [] := rfl
  rwa [List.append_nil, nothing, List.append_nil] at alone

theorem segmentsTo_nil : SegmentsTo [] [] := fun _ => rfl

theorem SegmentsTo.append {cs ds : List Char} {segs segs' : List Segment}
    (first : SegmentsTo cs segs) (second : SegmentsTo ds segs') :
    SegmentsTo (cs ++ ds) (segs ++ segs') := by
  intro rest
  rw [List.append_assoc, first, second, List.append_assoc]

theorem SegmentsTo.cons {c : Char} (plain : c ≠ '"') {cs : List Char} {segs : List Segment}
    (scans : SegmentsTo cs segs) : SegmentsTo (c :: cs) (.outside c :: segs) := by
  intro rest
  rw [List.cons_append, segments, segmentsFrom, if_neg plain]
  exact congrArg _ (scans rest)

theorem segmentsTo_unquoted {cs : List Char} (plain : IsUnquoted cs) :
    SegmentsTo cs (outsides cs) := by
  induction cs with
  | nil => exact segmentsTo_nil
  | cons c cs ih =>
    obtain ⟨own, inner⟩ := List.forall_mem_cons.mp plain
    exact (ih inner).cons own.2

/-- The scanner reads the inside of a phrase as the text of the phrase. -/
theorem segmentsFrom_phraseBody (run text rest : List Char) :
    segmentsFrom (.inside run) (phraseBody text ++ rest) =
      segmentsFrom (.inside (run ++ text)) rest := by
  refine read_phraseBody (fun run => segmentsFrom (.inside run)) (fun _ _ _ => rfl)
    (fun run c rest notEscape notQuote => ?_) run text rest
  rw [segmentsFrom, if_neg notEscape, if_neg notQuote]

theorem segmentsTo_phrase (text : List Char) :
    SegmentsTo (phrase text) [.literal (String.ofList text)] := by
  intro rest
  rw [phrase, List.cons_append, List.append_assoc, segments, segmentsFrom, if_pos rfl,
    segmentsFrom_phraseBody]
  rfl

example : segments "t:\"a\\\"b\" +".toList =
    [.outside 't', .outside ':', .literal "a\"b", .outside ' ', .outside '+'] := by decide

/-- Nothing is escaped in a text without quotes and backslashes. -/
theorem phraseBody_unquoted {cs : List Char} (plain : IsUnquoted cs) : phraseBody cs = cs := by
  induction cs with
  | nil => rfl
  | cons c cs ih =>
    obtain ⟨⟨notEscape, notQuote⟩, inner⟩ := List.forall_mem_cons.mp plain
    rw [phraseBody, if_neg (by simp [notEscape, notQuote]), ih inner]

/-- A text that begins with a sign is scanned into segments that do. -/
theorem startsWithSign_segments (cs : List Char) :
    startsWithSign cs = true ↔
      (segments cs).head? = some (.outside '+') ∨ (segments cs).head? = some (.outside '-') := by
  -- What a quote begins never starts with another character outside quotes.
  have inside : ∀ (cs run : List Char) (c : Char), c ≠ '"' →
      (segmentsFrom (.inside run) cs).head? ≠ some (.outside c) ∧
        (segmentsFrom (.escape run) cs).head? ≠ some (.outside c) := by
    intro cs
    induction cs with
    | nil =>
      intro run c other
      have head : (outsides ('"' :: run)).head? ≠ some (.outside c) := by
        rintro ⟨⟩
        exact other rfl
      exact ⟨head, head⟩
    | cons d cs ih =>
      intro run c other
      refine ⟨?_, (ih (run ++ [d]) c other).1⟩
      rw [segmentsFrom]
      split
      · exact (ih run c other).2
      · split
        · nofun
        · exact (ih (run ++ [d]) c other).1
  cases cs with
  | nil => exact ⟨nofun, nofun⟩
  | cons c cs =>
    rw [startsWithSign_cons, segments, segmentsFrom]
    split
    · next quote =>
      subst quote
      refine ⟨nofun, ?_⟩
      rintro (plus | minus)
      · exact absurd plus (inside cs [] '+' (by decide)).1
      · exact absurd minus (inside cs [] '-' (by decide)).1
    · simp

theorem literals_append (segs segs' : List Segment) :
    literals (segs ++ segs') = literals segs ++ literals segs' :=
  List.filterMap_append

theorem literals_outside (c : Char) (segs : List Segment) :
    literals (.outside c :: segs) = literals segs := rfl

theorem literals_outsides (cs : List Char) : literals (outsides cs) = [] := by
  induction cs with
  | nil => rfl
  | cons c cs ih => exact ih

end SearchCompiler.Text

namespace SearchCompiler

open Text

def Atom.segments : Atom → List Segment
  | .phrase text => [.literal text]
  | .range lower upper withLower withUpper =>
    let bound := fun (text : Option String) => (text.map Segment.literal).getD (.outside '*')
    .outside (if withLower then '[' else '\x7b') :: bound lower ::
      (outsides " TO ".toList ++ [bound upper, .outside (if withUpper then ']' else '\x7d')])
  | .nested query => outsides "_query_:".toList ++ [.literal query]
  | plain => outsides plain.chars

/-- An atom whose parts outside its literals have no quotes in them. -/
def Atom.IsQuoted : Atom → Prop
  | .phrase _ | .range _ _ _ _ => True
  | .nested query => IsUnquoted query.toList
  | plain => IsUnquoted plain.chars

namespace Clause

mutual

def segments : Clause → List Segment
  | .atom a => a.segments
  | .signed sign c => .outside sign.char :: c.segments
  | .onField name c suffix =>
    outsides name.toList ++ .outside ':' :: (c.segments ++ outsides suffix.toList)
  | .list cs => .outside '(' :: (segmentsAll cs ++ [.outside ')'])
  | .row cs => segmentsAll cs
  | .both a b =>
    .outside '(' :: (a.segments ++ outsides " AND ".toList ++ b.segments ++ [.outside ')'])
  | .dismax targets cs =>
    outsides "\x7b!edismax qf='".toList ++ outsides (targetsText targets).toList ++
      outsides "'\x7d".toList ++ segmentsAll cs

def segmentsAll : List Clause → List Segment
  | [] => []
  | [c] => c.segments
  | c :: d :: rest => c.segments ++ .outside ' ' :: segmentsAll (d :: rest)

end

/-- A clause whose parts outside its literals have no quotes in them. -/
inductive IsQuoted : Clause → Prop where
  | atom {a : Atom} : a.IsQuoted → IsQuoted (.atom a)
  | signed (sign : Sign) {c : Clause} : IsQuoted c → IsQuoted (.signed sign c)
  | onField {name suffix : String} {c : Clause} : IsUnquoted name.toList → IsQuoted c →
      IsUnquoted suffix.toList → IsQuoted (.onField name c suffix)
  | list {cs : List Clause} : (∀ c ∈ cs, IsQuoted c) → IsQuoted (.list cs)
  | row {cs : List Clause} : (∀ c ∈ cs, IsQuoted c) → IsQuoted (.row cs)
  | both {a b : Clause} : IsQuoted a → IsQuoted b → IsQuoted (.both a b)
  | dismax {targets : List Target} {cs : List Clause} :
      IsUnquoted (targetsText targets).toList → (∀ c ∈ cs, IsQuoted c) →
      IsQuoted (.dismax targets cs)

/-- Signs, parentheses and the word `AND` bring no quotes in. -/
theorem IsMadeOf.isQuoted {part : Clause → Prop} {c : Clause} (made : c.IsMadeOf part)
    (parts : ∀ c, part c → c.IsQuoted) : c.IsQuoted := by
  induction made with
  | all => exact .atom (by decide : IsUnquoted _)
  | part own => exact parts _ own
  | signed sign _ _ ih => exact .signed sign ih
  | list _ ih => exact .list ih
  | both _ _ left right => exact .both left right

theorem segmentsTo_bound (text : Option String) :
    SegmentsTo ((text.map fun s => phrase s.toList).getD ['*'])
      [(text.map Segment.literal).getD (.outside '*')] := by
  cases text with
  | none => exact segmentsTo_nil.cons (by decide)
  | some s =>
    have scans := segmentsTo_phrase s.toList
    rwa [String.ofList_toList] at scans

/-- Atoms are scanned into the segments that they are written as. -/
theorem segmentsTo_atom {a : Atom} (quoted : a.IsQuoted) : SegmentsTo a.chars a.segments := by
  cases a with
  | all | term | raw => exact segmentsTo_unquoted quoted
  | phrase text =>
    have scans := segmentsTo_phrase text.toList
    rwa [String.ofList_toList] at scans
  | range lower upper withLower withUpper =>
    have opening : (if withLower then '[' else '\x7b') ≠ '"' := by cases withLower <;> decide
    have closing : (if withUpper then ']' else '\x7d') ≠ '"' := by cases withUpper <;> decide
    have last : SegmentsTo [if withUpper then ']' else '\x7d']
        [.outside (if withUpper then ']' else '\x7d')] := segmentsTo_nil.cons closing
    have plain : IsUnquoted " TO ".toList := by decide
    have behind := (segmentsTo_unquoted plain).append ((segmentsTo_bound upper).append last)
    have whole := ((segmentsTo_bound lower).append behind).cons opening
    rw [← List.append_assoc, ← List.append_assoc] at whole
    exact whole
  | nested query =>
    have plain : IsUnquoted "_query_:".toList := by decide
    have front := segmentsTo_unquoted plain
    have whole := front.append (segmentsTo_phrase query.toList)
    rw [phrase, phraseBody_unquoted quoted, String.ofList_toList] at whole
    exact whole

/-- The blanks between clauses are segments of their own. -/
theorem segmentsTo_charsAll {cs : List Clause}
    (each : ∀ c ∈ cs, SegmentsTo c.chars c.segments) :
    SegmentsTo (charsAll cs) (segmentsAll cs) := by
  match cs with
  | [] => exact segmentsTo_nil
  | [c] => exact each c List.mem_cons_self
  | c :: d :: rest =>
    have others := segmentsTo_charsAll fun x among => each x (List.mem_cons_of_mem c among)
    exact (each c List.mem_cons_self).append (others.cons (by decide))

/-- The written form of a clause is scanned into the segments of the clause. -/
theorem segmentsTo {c : Clause} (quoted : c.IsQuoted) : SegmentsTo c.chars c.segments := by
  have close : SegmentsTo [')'] [.outside ')'] := segmentsTo_nil.cons (by decide)
  induction quoted with
  | atom quoted => exact segmentsTo_atom quoted
  | signed sign _ ih =>
    have plain : sign.char ≠ '"' := by cases sign <;> decide
    rw [chars_signed, segments]
    exact ih.cons plain
  | onField name _ suffix ih =>
    rw [chars_onField, segments]
    have behind := (ih.append (segmentsTo_unquoted suffix)).cons (by decide : ':' ≠ '"')
    exact (segmentsTo_unquoted name).append behind
  | list _ ih =>
    rw [chars_list, segments]
    exact ((segmentsTo_charsAll ih).append close).cons (by decide)
  | row _ ih => exact segmentsTo_charsAll ih
  | both _ _ left right =>
    have plain : IsUnquoted " AND ".toList := by decide
    have inside := (left.append (segmentsTo_unquoted plain)).append right
    exact (inside.append close).cons (by decide)
  | dismax targets _ ih =>
    have front : SegmentsTo "\x7b!edismax qf='".toList (outsides "\x7b!edismax qf='".toList) :=
      segmentsTo_unquoted (by decide)
    have back : SegmentsTo "'\x7d".toList (outsides "'\x7d".toList) :=
      segmentsTo_unquoted (by decide)
    rw [chars_dismax, segments]
    exact ((front.append (segmentsTo_unquoted targets)).append back).append
      (segmentsTo_charsAll ih)

/-- The texts of the literals of a clause, in the order in which they are written. -/
def texts (c : Clause) : List String :=
  literals c.segments

/-- The segments of a clause without the texts of its literals. -/
def shape (c : Clause) : List Segment :=
  c.segments.map Segment.emptied

theorem texts_signed (sign : Sign) (c : Clause) : (Clause.signed sign c).texts = c.texts := rfl

theorem texts_onField (name : String) (c : Clause) (suffix : String) :
    (Clause.onField name c suffix).texts = c.texts := by
  simp [texts, segments, literals_append, literals_outside, literals_outsides]

theorem literals_segmentsAll (cs : List Clause) : literals (segmentsAll cs) = cs.flatMap texts := by
  match cs with
  | [] => rfl
  | [c] => exact (List.flatMap_singleton texts c).symm
  | c :: d :: rest =>
    rw [segmentsAll, literals_append, literals_outside, literals_segmentsAll (d :: rest)]
    rfl

theorem texts_list (cs : List Clause) : (Clause.list cs).texts = cs.flatMap texts := by
  rw [texts, segments, literals_outside, literals_append, literals_segmentsAll]
  exact List.append_nil _

theorem texts_row (cs : List Clause) : (Clause.row cs).texts = cs.flatMap texts :=
  literals_segmentsAll cs

theorem segments_both (a b : Clause) : (Clause.both a b).segments =
    .outside '(' :: (a.segments ++ outsides " AND ".toList ++ b.segments ++ [.outside ')']) := rfl

theorem texts_both (a b : Clause) : (Clause.both a b).texts = a.texts ++ b.texts := by
  unfold texts
  rw [segments_both, literals_outside, literals_append, literals_append, literals_append,
    literals_outsides, List.append_nil]
  exact List.append_nil _

theorem shape_signed (sign : Sign) (c : Clause) :
    (Clause.signed sign c).shape = .outside sign.char :: c.shape := rfl

theorem shape_onField {c d : Clause} (same : c.shape = d.shape) (name suffix : String) :
    (Clause.onField name c suffix).shape = (Clause.onField name d suffix).shape := by
  unfold shape at same ⊢
  rw [segments, segments, List.map_append, List.map_append, List.map_cons, List.map_cons,
    List.map_append, List.map_append, same]

theorem shape_both {a b a' b' : Clause} (left : a.shape = a'.shape) (right : b.shape = b'.shape) :
    (Clause.both a b).shape = (Clause.both a' b').shape := by
  unfold shape at left right ⊢
  simp only [segments_both, List.map_cons, List.map_append, left, right]

/-- The shape of clauses side by side is given by their shapes. -/
theorem shape_segmentsAll {cs ds : List Clause} (same : cs.map shape = ds.map shape) :
    (segmentsAll cs).map Segment.emptied = (segmentsAll ds).map Segment.emptied := by
  match cs, ds with
  | [], [] => rfl
  | [], _ :: _ | _ :: _, [] => cases same
  | [c], [d] => exact List.head_eq_of_cons_eq same
  | [_], _ :: _ :: _ | _ :: _ :: _, [_] => cases List.tail_eq_of_cons_eq same
  | c :: c' :: cs, d :: d' :: ds =>
    have others := shape_segmentsAll (List.tail_eq_of_cons_eq same)
    rw [segmentsAll, segmentsAll, List.map_append, List.map_append, List.map_cons, List.map_cons,
      others]
    exact congrArg (· ++ _) (List.head_eq_of_cons_eq same)

theorem shape_list {cs ds : List Clause} (same : cs.map shape = ds.map shape) :
    (Clause.list cs).shape = (Clause.list ds).shape := by
  unfold shape
  rw [segments, segments, List.map_cons, List.map_cons, List.map_append, List.map_append,
    shape_segmentsAll same]

theorem shape_row {cs ds : List Clause} (same : cs.map shape = ds.map shape) :
    (Clause.row cs).shape = (Clause.row ds).shape :=
  shape_segmentsAll same

/-- Whether a clause is signed shows in its shape. -/
theorem isSigned_shape {c d : Clause} (quoted : c.IsQuoted) (quoted' : d.IsQuoted)
    (same : c.shape = d.shape) : c.isSigned = d.isSigned := by
  have head : ∀ (c : Clause) (sign : Char), c.segments.head? = some (.outside sign) ↔
      c.shape.head? = some (.outside sign) := by
    intro c sign
    unfold shape
    cases c.segments with
    | nil => rfl
    | cons s rest => cases s <;> simp [Segment.emptied]
  rw [isSigned_eq, isSigned_eq, Bool.eq_iff_iff, startsWithSign_segments, startsWithSign_segments,
    (segmentsTo quoted).segments_eq, (segmentsTo quoted').segments_eq, head, head, head, head, same]

end Clause

end SearchCompiler
