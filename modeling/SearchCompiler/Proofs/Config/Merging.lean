import SearchCompiler.Config.Merged
import SearchCompiler.Proofs.Files.Path
import SearchCompiler.Proofs.Index.Names

/-!
# The first file wins

Settings are merged by putting files over each other from the last to the first, fields by keeping
what is known from the first file to the last. Both give the first file its way: every setting has
the value of the first file that has one, independent of all others, and every field is that of the
first file that has a field of its id, with nothing from later files (`merge_takes_first`).

The settings besides the fields are listed by the type of their values (`Setting`), so that what
holds of each is said once.
-/

namespace SearchCompiler.Config

/-- The settings besides the fields, by the type of their values. -/
inductive Setting : Type → Type where
  | siteName : Setting String
  | siteHash : Setting (Option String)
  | indexId : Setting String
  | idField : Setting String
  | languageField : Setting String
  | foreign : Setting Bool
  | mode : Setting Keys.Mode
  | conjunction : Setting Conjunction
  | languages : Setting (List LanguageId)
  | limit : Setting Nat

namespace Setting

variable {α : Type}

def inFile : Setting α → File → Option α
  | siteName, f => f.backend.bind (·.siteName)
  | siteHash, f => (f.backend.bind (·.siteHash)).map some
  | indexId, f => f.backend.bind (·.indexId)
  | idField, f => f.backend.bind (·.idField)
  | languageField, f => f.backend.bind (·.languageField)
  | foreign, f => f.backend.bind (·.foreign)
  | mode, f => f.search.bind (·.mode)
  | conjunction, f => f.search.bind (·.conjunction)
  | languages, f => f.search.bind (·.languages)
  | limit, f => f.search.bind (·.limit)

def of : Setting α → Config → α
  | siteName, c => c.backend.siteName
  | siteHash, c => c.backend.siteHash
  | indexId, c => c.backend.indexId
  | idField, c => c.backend.idField
  | languageField, c => c.backend.languageField
  | foreign, c => c.backend.foreign
  | mode, c => c.search.mode
  | conjunction, c => c.search.conjunction
  | languages, c => c.search.languages
  | limit, c => c.search.limit

end Setting

/-- What the first of several files has that has any. -/
def firstOf {α : Type} (files : List Placed) (inFile : File → Option α) : Option α :=
  files.findSome? fun f => inFile f.file

/-- What a file says about the field with an id. -/
def File.part? (file : File) (id : String) : Option FieldPart :=
  (file.fields.getD []).lookup id

/-! ### Settings -/

section Settings

variable {α : Type}

/-- One file more in front is put over the settings of the others. -/
theorem Setting.of_merge_cons (s : Setting α) (f : Placed) (rest : List Placed) :
    s.of (merge (f :: rest)) = (s.inFile f.file).getD (s.of (merge rest)) := by
  obtain ⟨path, root, backend, search, fields⟩ := f
  cases s with
  | siteHash =>
    cases backend with
    | none => rfl
    | some part =>
      change part.siteHash.or (merge rest).backend.siteHash =
        (part.siteHash.map some).getD (merge rest).backend.siteHash
      cases part.siteHash <;> rfl
  | mode | conjunction | languages | limit => cases search <;> rfl
  | _ => cases backend <;> rfl

/-- A merged setting is that of the first file that has it, or the standard. -/
theorem Setting.of_merge (s : Setting α) (files : List Placed) :
    s.of (merge files) = (firstOf files s.inFile).getD (s.of standard) := by
  induction files with
  | nil => cases s <;> rfl
  | cons f rest ih =>
    rw [of_merge_cons, ih, firstOf, firstOf, List.findSome?_cons]
    cases s.inFile f.file <;> rfl

end Settings

/-! ### Fields -/

def Distinct (fields : List Field) : Prop :=
  fields.Pairwise fun f g => f.id ≠ g.id

section Fields

variable {known : List Field}

/-- What is known goes before what is added. -/
theorem find?_addMissing (known : List Field) (field : Field) (id : String) :
    (addMissing known field).find? (·.id == id) =
      (known.find? (·.id == id)).or ([field].find? (·.id == id)) := by
  unfold addMissing
  split
  · next taken =>
    cases found : known.find? (·.id == id) with
    | some f => rw [Option.some_or]
    | none =>
      -- The field with the id of the new one is known, so the new one has another id than `id`.
      rw [Option.none_or]
      obtain ⟨f, among, same⟩ := List.any_eq_true.mp taken
      have other := List.find?_eq_none.mp found f among
      rw [beq_iff_eq.mp same] at other
      simpa using other
  · rw [List.find?_append]

theorem find?_foldl_addMissing (known added : List Field) (id : String) :
    (added.foldl addMissing known).find? (·.id == id) =
      (known.find? (·.id == id)).or (added.find? (·.id == id)) := by
  induction added generalizing known with
  | nil => exact Option.or_none.symm
  | cons field rest ih =>
    rw [List.foldl_cons, ih, find?_addMissing, Option.or_assoc, ← List.find?_append,
      List.singleton_append]

/-- A field with an id that is known is not put in again. -/
theorem Distinct.addMissing (distinct : Distinct known) (field : Field) :
    Distinct (addMissing known field) := by
  unfold Config.addMissing
  split
  · exact distinct
  · next new =>
    rw [Bool.not_eq_true, List.any_eq_false] at new
    refine List.pairwise_append.mpr ⟨distinct, List.pairwise_singleton _ _, ?_⟩
    intro f among g last same
    rw [List.mem_singleton.mp last] at same
    exact new f among (beq_iff_eq.mpr same)

theorem Distinct.foldl_addMissing (distinct : Distinct known) (added : List Field) :
    Distinct (added.foldl Config.addMissing known) := by
  induction added generalizing known with
  | nil => exact distinct
  | cons field rest ih => exact ih (distinct.addMissing field)

/-- The order does not matter for looking up a field. -/
theorem Distinct.find?_perm {fields : List Field} (distinct : Distinct known)
    (same : known.Perm fields) (id : String) :
    known.find? (·.id == id) = fields.find? (·.id == id) := by
  have distinct' : Distinct fields := (same.pairwise_iff fun other => Ne.symm other).mp distinct
  ext f
  rw [Index.find?_id_eq_some_iff distinct, Index.find?_id_eq_some_iff distinct', same.mem_iff]

end Fields

/-- The fields as they are put together, before they are sorted. -/
def knownFields (files : List Placed) : List Field :=
  (files.flatMap (·.file.fieldList)).foldl addMissing []

theorem distinct_knownFields (files : List Placed) : Distinct (knownFields files) :=
  Distinct.foldl_addMissing .nil _

theorem mergeFields_perm (files : List Placed) : (mergeFields files).Perm (knownFields files) :=
  List.mergeSort_perm _ _

/-- The merged fields are in the order of their ids. -/
theorem mergeFields_increasing (files : List Placed) :
    (mergeFields files).Pairwise fun f g => f.id < g.id := by
  have distinct : Distinct (mergeFields files) :=
    ((mergeFields_perm files).pairwise_iff fun other => Ne.symm other).mpr
      (distinct_knownFields files)
  have sorted : (mergeFields files).Pairwise fun f g => decide (f.id ≤ g.id) = true := by
    refine List.pairwise_mergeSort (fun f g h below below' => ?_) (fun f g => ?_) _
    · rw [decide_eq_true_iff] at below below' ⊢
      exact String.le_trans below below'
    · rw [Bool.or_eq_true, decide_eq_true_iff, decide_eq_true_iff]
      exact String.le_total f.id g.id
  refine (sorted.and distinct).imp fun ⟨below, other⟩ => ?_
  rw [decide_eq_true_iff] at below
  exact String.not_le.mp fun above => other (String.le_antisymm below above)

/-- The merged fields are those that are known, in the order of their ids. -/
theorem mergeFields_eq {files : List Placed} {fields : List Field}
    (increasing : fields.Pairwise fun f g => f.id < g.id)
    (same : fields.Perm (knownFields files)) : mergeFields files = fields := by
  refine List.Perm.eq_of_pairwise (fun f g _ _ below above => ?_) (mergeFields_increasing files)
    increasing ((mergeFields_perm files).trans same.symm)
  exact absurd (String.lt_trans below above) (String.lt_irrefl f.id)

theorem find?_fieldList (file : File) (id : String) :
    file.fieldList.find? (·.id == id) = (file.part? id).map (·.field id) := by
  unfold File.fieldList File.part?
  induction file.fields.getD [] with
  | nil => rfl
  | cons entry rest ih =>
    obtain ⟨other, part⟩ := entry
    rw [List.map_cons, List.find?_cons, List.lookup_cons, ih, BEq.comm (a := id)]
    change (match other == id with | true => some (part.field other) | false => _) = _
    cases same : other == id with
    | false => rfl
    | true =>
      rw [beq_iff_eq.mp same]
      rfl

/-- A field of the merged files is that of the first file that has one of its id. -/
theorem field?_merge (files : List Placed) (id : String) :
    (merge files).field? id = (firstOf files (·.part? id)).map (·.field id) := by
  have looked : (merge files).field? id = (knownFields files).find? (·.id == id) :=
    ((distinct_knownFields files).find?_perm (mergeFields_perm files).symm id).symm
  rw [looked, knownFields, find?_foldl_addMissing, List.find?_nil, Option.none_or,
    List.find?_flatMap, firstOf, List.map_findSome?]
  simp only [find?_fieldList]
  rfl

/-- An id is among the fields of a file iff the file says something about it. -/
theorem File.part?_isSome_iff {file : File} {id : String} :
    (file.part? id).isSome = true ↔ ∃ part, (id, part) ∈ file.fields.getD [] := by
  unfold part?
  rw [List.lookup_isSome_iff]
  constructor
  · rintro ⟨⟨other, part⟩, among, same⟩
    exact ⟨part, beq_iff_eq.mp same ▸ among⟩
  · rintro ⟨part, among⟩
    exact ⟨(id, part), among, BEq.rfl⟩

/-- A merged field is described by the first file that has its id. -/
theorem mem_fields_merge_iff {files : List Placed} {field : Field} :
    field ∈ (merge files).fields ↔
      ∃ part, firstOf files (·.part? field.id) = some part ∧ field = part.field field.id := by
  have distinct : Distinct (merge files).fields :=
    Index.Ordered.distinct (mergeFields_increasing files)
  have found : (merge files).fields.find? (fun f => f.id == field.id) = some field ↔
      field ∈ (merge files).fields ∧ field.id = field.id :=
    Index.find?_id_eq_some_iff distinct
  rw [← and_iff_left (a := field ∈ (merge files).fields) rfl, ← found]
  change (merge files).field? field.id = some field ↔ _
  rw [field?_merge, Option.map_eq_some_iff]
  simp only [eq_comm]

/-! ### All of it -/

/-- Every setting has the value of the first file that has one, or else its standard value. The
fields are in strict order of their ids, these are the ids of all fields of the files, and every
field is wholly that of the first file that has a field of its id. The root is the directory that
holds the first file. -/
theorem merge_takes_first (files : List Placed) :
    (∀ (α : Type) (s : Setting α),
      s.of (merge files) = (firstOf files s.inFile).getD (s.of standard)) ∧
    (merge files).fields.Pairwise (fun f g => f.id < g.id) ∧
    (∀ id, (∃ field ∈ (merge files).fields, field.id = id) ↔
      ∃ f ∈ files, ∃ part, (id, part) ∈ f.file.fields.getD []) ∧
    (∀ field ∈ (merge files).fields, ∃ before f after part,
      files = before ++ f :: after ∧ (∀ g ∈ before, g.file.part? field.id = none) ∧
      f.file.part? field.id = some part ∧ field = part.field field.id) ∧
    (merge files).root = files.head?.bind (·.path.parent?) ∧
    (∀ f rest, files = f :: rest → f.path.components ≠ [] → ∃ directory,
      (merge files).root = some directory ∧ directory.absolute = f.path.absolute ∧
      directory.components = f.path.components.dropLast) := by
  refine ⟨fun α s => s.of_merge files, mergeFields_increasing files, fun id => ?_,
    fun field among => ?_, rfl, ?_⟩
  · have found := field?_merge files id
    have defined : ((merge files).field? id).isSome = true ↔
        ∃ f ∈ files, (f.file.part? id).isSome = true := by
      rw [found, Option.isSome_map, firstOf, List.isSome_findSome?, List.any_eq_true]
    simp only [field?, List.find?_isSome, beq_iff_eq, File.part?_isSome_iff] at defined
    exact defined
  · obtain ⟨part, first, whole⟩ := mem_fields_merge_iff.mp among
    obtain ⟨before, f, after, split, found, none_before⟩ := List.findSome?_eq_some_iff.mp first
    exact ⟨before, f, after, part, split, none_before, found, whole⟩
  · rintro f rest rfl names
    exact Files.Path.exists_parent? names

end SearchCompiler.Config
