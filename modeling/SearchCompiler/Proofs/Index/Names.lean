import SearchCompiler.Index.Schema

/-!
# Remembered names

A book of names belongs to one set of fields. An entry is right if it holds the name that the field
of its id has without a book (`Schema.Confirms`); reserved ids shadow configured ones here, but a
reserved id has one name whatever the field. As long as all entries are right, asking for the name
of a field of the schema gives the name without a book, and what is remembered of it is right again
(`nameOf_eq`, `confirms_nameOf`). So it makes no difference whether the names that a call asks for
are remembered while it runs or when it is done (`nameOf_remembered`).

A schema is also determined by what it is built from: building it again from its own fields gives
the same schema (`build_self`).
-/

namespace SearchCompiler.Index

/-! ### Sets of fields -/

theorem insertField_last {field : Field} {fields : List Field}
    (before : ∀ f ∈ fields, f.id < field.id) : insertField field fields = fields ++ [field] := by
  induction fields with
  | nil => rfl
  | cons f rest ih =>
    obtain ⟨less, others⟩ := List.forall_mem_cons.mp before
    have notBefore : ¬ field.id < f.id := fun after =>
      String.lt_irrefl _ (String.lt_trans less after)
    have notSame : field.id ≠ f.id := fun same => String.lt_irrefl _ (same ▸ less)
    rw [insertField, if_neg notBefore, if_neg notSame, ih others, List.cons_append]

theorem eq_of_items {s t : FieldSet} (same : s.items = t.items) : s = t := by
  cases s
  cases t
  cases same
  rfl

theorem items_ofList (fields : List Field) :
    (FieldSet.ofList fields).items = fields.foldl (fun items f => insertField f items) [] := by
  have general : ∀ (fields : List Field) (s : FieldSet),
      (fields.foldl (fun s f => s.insert f) s).items =
        fields.foldl (fun items f => insertField f items) s.items := by
    intro fields
    induction fields with
    | nil => exact fun _ => rfl
    | cons f rest ih => exact fun s => ih (s.insert f)
  exact general fields .empty

/-- The set of the fields of a set is the set itself. -/
theorem ofList_items (s : FieldSet) : FieldSet.ofList s.items = s := by
  have general : ∀ after before : List Field, Ordered (before ++ after) →
      after.foldl (fun items f => insertField f items) before = before ++ after := by
    intro after
    induction after with
    | nil => exact fun before _ => (List.append_nil before).symm
    | cons f rest ih =>
      intro before ordered
      have last : ∀ g ∈ before, g.id < f.id := fun g among =>
        (List.pairwise_append.mp ordered).2.2 g among f List.mem_cons_self
      have shift : before ++ f :: rest = (before ++ [f]) ++ rest := by simp
      rw [List.foldl_cons, insertField_last last, ih (before ++ [f]) (shift ▸ ordered), shift]
  apply eq_of_items
  rw [items_ofList, general s.items [] s.ordered, List.nil_append]

theorem Ordered.distinct {fields : List Field} (ordered : Ordered fields) :
    fields.Pairwise fun f g => f.id ≠ g.id := by
  refine ordered.imp fun {f g} less => ?_
  intro same
  exact String.lt_irrefl g.id (same ▸ less)

/-- Where no two fields have one id, an id finds exactly the field that has it. -/
theorem find?_id_eq_some_iff {fields : List Field} {id : String} {field : Field}
    (distinct : fields.Pairwise fun f g => f.id ≠ g.id) :
    fields.find? (fun f => f.id == id) = some field ↔ field ∈ fields ∧ field.id = id := by
  constructor
  · intro found
    have same := List.find?_some found
    exact ⟨List.mem_of_find?_eq_some found, beq_iff_eq.mp same⟩
  · rintro ⟨among, rfl⟩
    induction fields with
    | nil => cases among
    | cons f rest ih =>
      obtain ⟨other, inner⟩ := List.pairwise_cons.mp distinct
      rcases List.mem_cons.mp among with rfl | among
      · rw [List.find?_cons_of_pos (by simp)]
      · rw [List.find?_cons_of_neg (by simpa using other field among), ih inner among]

/-- A field of a set is the field of its id. -/
theorem find?_mem {s : FieldSet} {field : Field} (among : field ∈ s.items) :
    s.find? field.id = some field :=
  (find?_id_eq_some_iff s.ordered.distinct).mpr ⟨among, rfl⟩

/-! ### Fields of a schema -/

theorem reservedField?_eq_some {id : String} {field : Field}
    (reserved : reservedField? id = some field) : field.id = id ∧ id ∈ Name.reservedIds := by
  unfold reservedField? at reserved
  split at reserved
  · next among =>
    cases reserved
    exact ⟨rfl, List.contains_iff_mem.mp among⟩
  · cases reserved

/-- A reserved id has one name, whatever the field and the language. -/
theorem exists_nameOf? (special : Name.Special) {id : String} (reserved : id ∈ Name.reservedIds) :
    ∃ name, special.nameOf? id = some name := by
  simp only [Name.reservedIds, List.mem_cons, List.not_mem_nil, or_false] at reserved
  rcases reserved with rfl | rfl | rfl | rfl
  · exact ⟨_, rfl⟩
  · exact ⟨_, rfl⟩
  · exact ⟨_, rfl⟩
  · exact ⟨_, rfl⟩

namespace Schema

/-- A field that belongs to a schema: one that an id stands for, or a configured one, which a
reserved id may shadow. -/
def Owns (s : Schema) (field : Field) : Prop :=
  s.field? field.id = some field ∨ field ∈ s.fields.items

/-- An entry of a book that holds the name that the field of its id has without a book. -/
def Confirms (s : Schema) (entry : Name.Entry) : Prop :=
  ∃ field, s.field? entry.field = some field ∧
    entry.name = s.special.fieldName field entry.language

/-- A field is found under its own id. -/
theorem field?_id {s : Schema} {id : String} {field : Field} (found : s.field? id = some field) :
    field.id = id := by
  rw [field?, Option.or_eq_some_iff] at found
  rcases found with reserved | ⟨-, own⟩
  · exact (reservedField?_eq_some reserved).1
  · have same := List.find?_some own
    exact beq_iff_eq.mp same

theorem owns_field? {s : Schema} {id : String} {field : Field} (found : s.field? id = some field) :
    s.Owns field :=
  .inl ((field?_id found).symm ▸ found)

/-- The id of a field of the schema stands for a field with the same names. -/
theorem Owns.exists_field? {s : Schema} {field : Field} (owned : s.Owns field) :
    ∃ g, s.field? field.id = some g ∧
      ∀ language, s.special.fieldName g language = s.special.fieldName field language := by
  rcases owned with own | among
  · exact ⟨field, own, fun _ => rfl⟩
  · cases reserved : reservedField? field.id with
    | none => exact ⟨field, by rw [field?, reserved, Option.none_or, find?_mem among], fun _ => rfl⟩
    | some g =>
      obtain ⟨same, among⟩ := reservedField?_eq_some reserved
      obtain ⟨name, fixed⟩ := exists_nameOf? s.special among
      refine ⟨g, by rw [field?, reserved, Option.some_or], fun language => ?_⟩
      rw [Name.Special.fieldName, Name.Special.fieldName, same, fixed]

/-- A schema is built again from its own parts. -/
theorem build_self {s : Schema} {b : BackendSettings} (scope : s.scope = b.scope)
    (special : s.special = b.special) :
    { Schema.build b s.fields.items s.languages with foreign := s.foreign } = s := by
  cases s
  cases scope
  cases special
  rw [build, ofList_items]
  rfl

end Schema

/-! ### Books of a schema -/

namespace Catalog

/-- A catalog all of whose entries are right. -/
def IsFaithful (c : Catalog) : Prop :=
  ∀ entry ∈ c.names.entries, c.schema.Confirms entry

theorem isFaithful_empty (s : Schema) : IsFaithful ⟨s, .empty⟩ :=
  List.forall_mem_nil _

/-- The name of a field of the schema does not depend on the book. -/
theorem nameOf_eq {c : Catalog} (faithful : c.IsFaithful) {field : Field}
    (owned : c.schema.Owns field) (language : LanguageId) :
    c.nameOf field language = c.schema.special.fieldName field language := by
  unfold nameOf Name.Book.nameOf
  split
  · next name known =>
    obtain ⟨entry, found, rfl⟩ := Option.map_eq_some_iff.mp known
    have key := List.find?_some found
    rw [Bool.and_eq_true, beq_iff_eq, beq_iff_eq] at key
    obtain ⟨g, stands, right⟩ := faithful entry (List.mem_of_find?_eq_some found)
    obtain ⟨h, stands', same⟩ := owned.exists_field?
    rw [key.1, stands', Option.some_inj] at stands
    rw [right, key.2, ← stands, same]
  · rfl

/-- Asking for the name of a field of the schema gives an entry that is right. -/
theorem confirms_nameOf {c : Catalog} (faithful : c.IsFaithful) {field : Field}
    (owned : c.schema.Owns field) (language : LanguageId) :
    c.schema.Confirms ⟨field.id, language, c.nameOf field language⟩ := by
  obtain ⟨g, stands, same⟩ := owned.exists_field?
  exact ⟨g, stands, by rw [nameOf_eq faithful owned, same]⟩

theorem mem_remember {book : Name.Book} {entry other : Name.Entry}
    (among : other ∈ (book.remember entry).entries) : other = entry ∨ other ∈ book.entries := by
  unfold Name.Book.remember at among
  split at among
  · exact .inr among
  · exact List.mem_cons.mp among

/-- A book holds what it held and what was remembered. -/
theorem mem_rememberAll {book : Name.Book} {entries : List Name.Entry} {other : Name.Entry}
    (among : other ∈ (book.rememberAll entries).entries) :
    other ∈ entries ∨ other ∈ book.entries := by
  induction entries generalizing book with
  | nil => exact .inr among
  | cons entry rest ih =>
    rcases ih among with later | old
    · exact .inl (List.mem_cons_of_mem _ later)
    · rcases mem_remember old with rfl | old
      · exact .inl List.mem_cons_self
      · exact .inr old

/-- Remembering entries that are right keeps all entries right. -/
theorem IsFaithful.remember {c : Catalog} (faithful : c.IsFaithful) {entries : List Name.Entry}
    (right : ∀ entry ∈ entries, c.schema.Confirms entry) : (c.remember entries).IsFaithful := by
  intro entry among
  rcases mem_rememberAll among with new | old
  · exact right entry new
  · exact faithful entry old

/-- A name that is asked for among others is the one that the book gives with those before it
remembered: it does not matter whether names are remembered one by one or at the end. -/
theorem nameOf_remembered {c : Catalog} (faithful : c.IsFaithful)
    {entries before after : List Name.Entry} {entry : Name.Entry}
    (right : ∀ e ∈ entries, c.schema.Confirms e)
    (parts : entries = before ++ entry :: after) :
    ∃ field, c.schema.field? entry.field = some field ∧
      (c.remember before).nameOf field entry.language = entry.name := by
  rw [parts, List.forall_mem_append, List.forall_mem_cons] at right
  obtain ⟨earlier, ⟨field, stands, named⟩, -⟩ := right
  have owned : c.schema.Owns field := Schema.owns_field? stands
  refine ⟨field, stands, ?_⟩
  rw [nameOf_eq (faithful.remember earlier) owned, named]
  rfl

end Catalog

end SearchCompiler.Index
