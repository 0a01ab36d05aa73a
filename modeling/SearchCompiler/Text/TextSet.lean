/-!
# Sets of texts

A set of texts in the order of their code points, which is also the order of their bytes. The
order and the absence of repetitions are part of the type, so two sets with the same members are
equal and are written alike.
-/

namespace SearchCompiler.Text

/-- Inserts a text into an ordered list, once. -/
def insertText (s : String) : List String → List String
  | [] => [s]
  | t :: rest => if s < t then s :: t :: rest else if s = t then t :: rest else t :: insertText s rest

theorem mem_insertText {s u : String} {l : List String} :
    u ∈ insertText s l ↔ u = s ∨ u ∈ l := by
  induction l with
  | nil => simp [insertText]
  | cons t rest ih =>
    rw [insertText]
    split
    · simp
    · split
      · next h => subst h; simp
      · simp [ih]; grind

theorem text_lt_of_not {s t : String} (h : ¬ s < t) (hne : s ≠ t) : t < s := by
  by_cases hts : t < s
  · exact hts
  · exact absurd (String.le_antisymm (String.not_lt.1 hts) (String.not_lt.1 h)) hne

theorem insertText_pairwise {s : String} {l : List String} (h : l.Pairwise (· < ·)) :
    (insertText s l).Pairwise (· < ·) := by
  induction l with
  | nil => simp [insertText]
  | cons t rest ih =>
    rw [List.pairwise_cons] at h
    rw [insertText]
    split
    · next hst =>
      rw [List.pairwise_cons]
      refine ⟨fun u hu => ?_, List.pairwise_cons.2 h⟩
      rcases List.mem_cons.1 hu with rfl | hu
      · exact hst
      · exact String.lt_trans hst (h.1 u hu)
    · next hst =>
      split
      · exact List.pairwise_cons.2 h
      · next hne =>
        rw [List.pairwise_cons]
        refine ⟨fun u hu => ?_, ih h.2⟩
        rcases mem_insertText.1 hu with rfl | hu
        · exact text_lt_of_not hst hne
        · exact h.1 u hu

structure TextSet where
  /-- The members, each once, in order. -/
  items : List String
  ordered : items.Pairwise (· < ·)
deriving DecidableEq, Repr

namespace TextSet

def empty : TextSet := ⟨[], .nil⟩

instance : Inhabited TextSet := ⟨empty⟩

def isEmpty (s : TextSet) : Bool :=
  s.items.isEmpty

def insert (text : String) (s : TextSet) : TextSet :=
  ⟨insertText text s.items, insertText_pairwise s.ordered⟩

def union (s t : TextSet) : TextSet :=
  t.items.foldl (fun acc text => acc.insert text) s

def ofList (texts : List String) : TextSet :=
  texts.foldl (fun acc text => acc.insert text) empty

instance : Membership String TextSet := ⟨fun s text => text ∈ s.items⟩

theorem mem_insert {text u : String} {s : TextSet} : u ∈ s.insert text ↔ u = text ∨ u ∈ s :=
  mem_insertText

end TextSet

end SearchCompiler.Text
