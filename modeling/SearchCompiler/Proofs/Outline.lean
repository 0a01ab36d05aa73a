import SearchCompiler.Proofs.Clause
import SearchCompiler.Proofs.Scan

/-!
# Queries with gaps

Two queries are compared up to the literals in some places. What they share is an outline: the
pieces that both are scanned into, with a gap in each of those places. An outline and a list of
literals determine the pieces (`fillGaps`), so that nothing of a query is left open.

Texts that are scanned into one outline, each with literals of its own (`Similar`), are so in
everything that clauses are put into, because a mark stands between any two literals.
-/

namespace SearchCompiler.Text

/-- Fills the gaps of an outline with literals in order. There have to be as many as gaps. -/
def fillGaps : List (Option Piece) → List Piece → Option (List Piece)
  | [], [] => some []
  | [], _ :: _ => none
  | some p :: outline, literals => (fillGaps outline literals).map (p :: ·)
  | none :: _, [] => none
  | none :: outline, l :: literals => (fillGaps outline literals).map (l :: ·)

/-- Two outlines are filled one after the other. -/
theorem fillGaps_append {outline outline' : List (Option Piece)} {ls ls' ps ps' : List Piece}
    (first : fillGaps outline ls = some ps) (second : fillGaps outline' ls' = some ps') :
    fillGaps (outline ++ outline') (ls ++ ls') = some (ps ++ ps') := by
  induction outline generalizing ls ps with
  | nil =>
    cases ls with
    | nil =>
      cases first
      simpa using second
    | cons l ls => cases first
  | cons slot outline ih =>
    cases slot with
    | some p =>
      rw [fillGaps] at first
      obtain ⟨rest, filled, rfl⟩ := Option.map_eq_some_iff.mp first
      simp [fillGaps, ih filled]
    | none =>
      cases ls with
      | nil => cases first
      | cons l ls =>
        rw [fillGaps] at first
        obtain ⟨rest, filled, rfl⟩ := Option.map_eq_some_iff.mp first
        simp [fillGaps, ih filled]

/-- An outline without gaps takes no literals. -/
theorem fillGaps_fixed (pieces : List Piece) : fillGaps (pieces.map some) [] = some pieces := by
  induction pieces with
  | nil => rfl
  | cons p pieces ih => simp [fillGaps, ih]

example : fillGaps [some (.mark '+'), none] [.bare "rust"] = some [.mark '+', .bare "rust"] := by
  decide

/-- Two texts that are scanned into one outline, each with its own literals in the gaps. -/
def Similar (ls ms : List Piece) (cs ds : List Char) : Prop :=
  ∃ outline ps qs, ScansTo cs ps ∧ ScansTo ds qs ∧
    fillGaps outline ls = some ps ∧ fillGaps outline ms = some qs

variable {ls ms ls' ms' : List Piece} {cs ds cs' ds' : List Char}

/-- As whole queries, similar texts are their outline, filled. -/
theorem Similar.scan (similar : Similar ls ms cs ds) :
    ∃ outline, fillGaps outline ls = some (Text.scan cs) ∧
      fillGaps outline ms = some (Text.scan ds) := by
  obtain ⟨outline, ps, qs, left, right, filled, filled'⟩ := similar
  have nothing : EndsLiteral [] := by simp [EndsLiteral]
  have empty : Text.scan [] = [] := rfl
  have first : Text.scan cs = ps := by simpa [empty] using left [] nothing
  have second : Text.scan ds = qs := by simpa [empty] using right [] nothing
  exact ⟨outline, by rw [filled, first], by rw [filled', second]⟩

theorem similar_nil : Similar [] [] [] [] :=
  ⟨[], [], [], scansTo_nil, scansTo_nil, rfl, rfl⟩

/-- A text without quotes is similar to itself, whatever it is scanned into. -/
theorem similar_self (plain : IsUnquoted cs) : Similar [] [] cs cs := by
  obtain ⟨pieces, scans⟩ := exists_scansTo plain
  exact ⟨pieces.map some, pieces, pieces, scans, scans, fillGaps_fixed pieces,
    fillGaps_fixed pieces⟩

theorem similar_literal {l m : Piece} (left : ScansTo cs [l]) (right : ScansTo ds [m]) :
    Similar [l] [m] cs ds :=
  ⟨[none], [l], [m], left, right, rfl, rfl⟩

theorem Similar.mark {c : Char} (mark : isMark c = true) (similar : Similar ls ms cs ds) :
    Similar ls ms (c :: cs) (c :: ds) := by
  obtain ⟨outline, ps, qs, left, right, filled, filled'⟩ := similar
  refine ⟨some (.mark c) :: outline, _, _, left.mark mark, right.mark mark, ?_, ?_⟩
  · simp [fillGaps, filled]
  · simp [fillGaps, filled']

theorem Similar.append_mark {c : Char} (mark : isMark c = true) (first : Similar ls ms cs ds)
    (second : Similar ls' ms' cs' ds') :
    Similar (ls ++ ls') (ms ++ ms') (cs ++ c :: cs') (ds ++ c :: ds') := by
  obtain ⟨outline, ps, qs, left, right, filled, filled'⟩ := first
  obtain ⟨outline', ps', qs', left', right', behind, behind'⟩ := second
  refine ⟨outline ++ some (.mark c) :: outline', _, _, left.append_mark mark left',
    right.append_mark mark right', ?_, ?_⟩
  · exact fillGaps_append filled (by simp [fillGaps, behind])
  · exact fillGaps_append filled' (by simp [fillGaps, behind'])

end SearchCompiler.Text

namespace SearchCompiler.Clause

open Text

/-- Clauses, side by side for two queries, that are written as similar texts. The literals of all of
them are taken together. -/
inductive AllSimilar : List Piece → List Piece → List Clause → List Clause → Prop where
  | nil : AllSimilar [] [] [] []
  | cons {ls ms ls' ms' : List Piece} {c d : Clause} {cs ds : List Clause} :
      Similar ls ms c.chars d.chars → AllSimilar ls' ms' cs ds →
      AllSimilar (ls ++ ls') (ms ++ ms') (c :: cs) (d :: ds)

namespace AllSimilar

variable {ls ms ls' ms' : List Piece} {c d : Clause} {cs ds cs' ds' : List Clause}

theorem single (similar : Similar ls ms c.chars d.chars) : AllSimilar ls ms [c] [d] := by
  simpa using AllSimilar.cons similar .nil

theorem append (first : AllSimilar ls ms cs ds) (second : AllSimilar ls' ms' cs' ds') :
    AllSimilar (ls ++ ls') (ms ++ ms') (cs ++ cs') (ds ++ ds') := by
  induction first with
  | nil => exact second
  | cons head _ ih =>
    simp only [List.append_assoc, List.cons_append]
    exact .cons head ih

theorem isEmpty_eq (similar : AllSimilar ls ms cs ds) : cs.isEmpty = ds.isEmpty := by
  cases similar <;> rfl

/-- What keeps single clauses similar keeps all of them similar. -/
theorem map {f : Clause → Clause} (similar : AllSimilar ls ms cs ds)
    (step : ∀ ls ms c d, Similar ls ms c.chars d.chars → Similar ls ms (f c).chars (f d).chars) :
    AllSimilar ls ms (cs.map f) (ds.map f) := by
  induction similar with
  | nil => exact .nil
  | cons head _ ih => exact .cons (step _ _ _ _ head) ih

theorem charsAll (similar : AllSimilar ls ms cs ds) :
    Similar ls ms (Clause.charsAll cs) (Clause.charsAll ds) := by
  induction similar with
  | nil => exact similar_nil
  | cons head rest ih =>
    cases rest with
    | nil => simpa [charsAll_single] using head
    | cons next rest =>
      rw [charsAll_cons_cons, charsAll_cons_cons]
      exact head.append_mark (by decide) ih

theorem list (similar : AllSimilar ls ms cs ds) :
    Similar ls ms (Clause.list cs).chars (Clause.list ds).chars := by
  rw [chars_list, chars_list]
  have closed := similar.charsAll.append_mark (by decide : isMark ')' = true) similar_nil
  simpa using closed.mark (by decide : isMark '(' = true)

end AllSimilar

variable {ls ms : List Piece} {c d : Clause}

theorem similar_signed (sign : Sign) (similar : Similar ls ms c.chars d.chars) :
    Similar ls ms (Clause.signed sign c).chars (Clause.signed sign d).chars := by
  have mark : isMark sign.char = true := by
    cases sign <;> decide
  exact similar.mark mark

/-- A name without quotes and a suffix that begins with a mark keep what is between them apart. -/
theorem similar_onField {name suffix : String} {mark : Char} {rest : List Char}
    (plain : IsUnquoted name.toList) (letters : suffix.toList = mark :: rest)
    (marked : isMark mark = true) (behind : IsUnquoted rest)
    (similar : Similar ls ms c.chars d.chars) :
    Similar ls ms (Clause.onField name c suffix).chars (Clause.onField name d suffix).chars := by
  rw [chars_onField, chars_onField, letters]
  have inside := similar.append_mark marked (similar_self behind)
  have whole := (similar_self plain).append_mark (by decide : isMark ':' = true) inside
  simpa using whole

/-- An inline query over fields is similar to one over the same fields. -/
theorem similar_dismax {targets : List Target} {cs ds : List Clause}
    (plain : IsUnquoted (targetsText targets).toList) (similar : AllSimilar ls ms cs ds) :
    Similar ls ms (Clause.dismax targets cs).chars (Clause.dismax targets ds).chars := by
  have parts : ∀ cs, (Clause.dismax targets cs).chars =
      ("\x7b!edismax qf='".toList ++ (targetsText targets).toList ++ "'".toList) ++
        '\x7d' :: Clause.charsAll cs := by
    intro cs
    simp [chars_dismax]
  have front : IsUnquoted
      ("\x7b!edismax qf='".toList ++ (targetsText targets).toList ++ "'".toList) :=
    isUnquoted_append (isUnquoted_append (by decide) plain) (by decide)
  rw [parts, parts]
  exact (similar_self front).append_mark (by decide) similar.charsAll

end SearchCompiler.Clause
