import SearchCompiler.Field.Descriptor

/-!
# Sets of fields

The fields of an index, one for each id, in the order of their ids. A field that is added replaces
the one with its id.
-/

namespace SearchCompiler.Index

/-- Puts a field into an ordered list in place of the one with its id. -/
def insertField (field : Field) : List Field → List Field
  | [] => [field]
  | f :: rest =>
    if field.id < f.id then field :: f :: rest
    else if field.id = f.id then field :: rest
    else f :: insertField field rest

def Ordered (fields : List Field) : Prop :=
  fields.Pairwise fun f g => f.id < g.id

theorem mem_insertField {field g : Field} {fields : List Field} (h : g ∈ insertField field fields) :
    g = field ∨ g ∈ fields := by
  induction fields with
  | nil => simpa [insertField] using h
  | cons f rest ih =>
    rw [insertField] at h
    split at h
    · simpa using h
    · split at h
      · rcases List.mem_cons.1 h with h | h
        · exact .inl h
        · exact .inr (List.mem_cons_of_mem _ h)
      · rcases List.mem_cons.1 h with h | h
        · exact .inr (h ▸ List.mem_cons_self)
        · exact (ih h).imp_right (List.mem_cons_of_mem _)

/-- Putting a field in keeps a list in the order of the ids. -/
theorem insertField_ordered {field : Field} {fields : List Field} (h : Ordered fields) :
    Ordered (insertField field fields) := by
  induction fields with
  | nil => simp [insertField, Ordered]
  | cons f rest ih =>
    obtain ⟨hf, hrest⟩ := List.pairwise_cons.1 h
    rw [insertField]
    split
    · next hlt =>
      refine List.pairwise_cons.2 ⟨fun g hg => ?_, h⟩
      rcases List.mem_cons.1 hg with rfl | hg
      · exact hlt
      · exact String.lt_trans hlt (hf g hg)
    · next hnot =>
      split
      · next heq => exact List.pairwise_cons.2 ⟨fun g hg => heq ▸ hf g hg, hrest⟩
      · next hne =>
        refine List.pairwise_cons.2 ⟨fun g hg => ?_, ih hrest⟩
        rcases mem_insertField hg with rfl | hg
        · by_cases hgt : f.id < g.id
          · exact hgt
          · exact absurd (String.le_antisymm (String.not_lt.1 hgt) (String.not_lt.1 hnot)) hne
        · exact hf g hg

structure FieldSet where
  /-- The fields, one for each id, in order. -/
  items : List Field
  ordered : Ordered items

namespace FieldSet

def empty : FieldSet := ⟨[], .nil⟩

instance : Inhabited FieldSet := ⟨empty⟩

/-- Adds a field in place of the one with its id. -/
def insert (field : Field) (s : FieldSet) : FieldSet :=
  ⟨insertField field s.items, insertField_ordered s.ordered⟩

def erase (id : String) (s : FieldSet) : FieldSet :=
  ⟨s.items.filter fun f => f.id != id, s.ordered.filter _⟩

def find? (id : String) (s : FieldSet) : Option Field :=
  s.items.find? fun f => f.id == id

/-- The set of the fields of a list; of two with one id the later stays. -/
def ofList (fields : List Field) : FieldSet :=
  fields.foldl (fun s f => s.insert f) empty

/-- The fields that are searched by keys. -/
def textFields (s : FieldSet) : List Field :=
  s.items.filter Field.isText

end FieldSet

end SearchCompiler.Index
