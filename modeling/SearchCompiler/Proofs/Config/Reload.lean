import SearchCompiler.Config.Document
import SearchCompiler.Proofs.Config.Merging
import SearchCompiler.Proofs.Keys.Encoding
import SearchCompiler.Proofs.Toml.Sections

/-!
# Settings that are read again

Merged settings are written as a document in the form of a configuration file. The document can be
read, and what it says is what a file would have to say that says all of the settings
(`Config.read?_document`). Merged alone it gives these settings again, whatever files they come from
(`document_reloads`).

A boost is written with the shortest digits that tell it from its neighbours in single precision,
and is read in double precision first. The digits of every boost are taken to be read as that boost
(`Toml.ReadsBack`). This holds of a finite boost unless its digits, rounded to double precision, lie
in the middle between two numbers of single precision; it can be computed for any boost, and the
usual ones such as tenths are fine.
-/

namespace SearchCompiler

open Toml

def Toml.members : Toml → List (String × Toml)
  | .table members => members
  | _ => []

namespace Config

/-! ### What a file would say -/

/-- What a file says that says all of the settings of a backend. -/
def wholeBackend (b : Index.BackendSettings) : BackendPart :=
  ⟨some b.siteName, b.siteHash, some b.indexId, some b.idField, some b.languageField, some b.foreign⟩

def wholeSearch (s : Index.SearchSettings) : SearchPart :=
  ⟨some s.mode, some s.conjunction, some s.languages, some s.limit⟩

def wholeField (f : Field) : FieldPart :=
  ⟨f.type, some (f.cardinality == .multi), f.boost, f.datasource, f.pinned⟩

/-- What a file says that says all of the settings. -/
def asFile (c : Config) : File :=
  ⟨none, some (wholeBackend c.backend), some (wholeSearch c.search),
    some (c.fields.map fun f => (f.id, wholeField f))⟩

theorem over_wholeBackend (b : Index.BackendSettings) : (wholeBackend b).over .standard = b := by
  obtain ⟨siteName, siteHash, indexId, idField, languageField, foreign⟩ := b
  cases siteHash <;> rfl

theorem over_wholeSearch (s : Index.SearchSettings) : (wholeSearch s).over .standard = s := rfl

theorem field_wholeField (f : Field) : (wholeField f).field f.id = f := by
  obtain ⟨id, type, cardinality, datasource, boost, pinned⟩ := f
  cases cardinality <;> rfl

theorem fieldList_asFile (c : Config) : c.asFile.fieldList = c.fields := by
  change (c.fields.map fun f => (f.id, wholeField f)).map (fun m => m.2.field m.1) = c.fields
  rw [List.map_map]
  conv_rhs => rw [← List.map_id c.fields]
  exact List.map_congr_left fun f _ => field_wholeField f

/-- New fields are added as they are. -/
theorem foldl_addMissing {known added : List Field} (distinct : Distinct (known ++ added)) :
    added.foldl addMissing known = known ++ added := by
  induction added generalizing known with
  | nil => exact (List.append_nil known).symm
  | cons f rest ih =>
    have new : known.any (·.id == f.id) = false := by
      rw [List.any_eq_false]
      intro g among
      have other := (List.pairwise_append.mp distinct).2.2 g among f List.mem_cons_self
      simpa using other
    have shift : known ++ f :: rest = (known ++ [f]) ++ rest := by simp
    rw [List.foldl_cons, addMissing, new, if_neg Bool.false_ne_true, ih (shift ▸ distinct), shift]

theorem le_of_ordered {fields : List Field} (ordered : Index.Ordered fields) :
    fields.Pairwise fun f g => decide (f.id ≤ g.id) = true := by
  refine ordered.imp fun {f g} less => decide_eq_true ?_
  exact String.not_lt.mp fun after => String.lt_irrefl _ (String.lt_trans less after)

/-- A file that says all of some settings gives them, merged alone. -/
theorem merge_asFile {c : Config} (ordered : Index.Ordered c.fields) (path : Files.Path) :
    (merge [⟨path, c.asFile⟩]).backend = c.backend ∧ (merge [⟨path, c.asFile⟩]).search = c.search ∧
      (merge [⟨path, c.asFile⟩]).fields = c.fields := by
  refine ⟨over_wholeBackend c.backend, over_wholeSearch c.search, ?_⟩
  have added : c.fields.foldl addMissing [] = [] ++ c.fields :=
    foldl_addMissing (Index.Ordered.distinct ordered)
  change ((c.asFile.fieldList ++ []).foldl addMissing []).mergeSort _ = c.fields
  rw [List.append_nil, fieldList_asFile, added, List.nil_append,
    List.mergeSort_of_pairwise (le_of_ordered ordered)]

/-! ### The sections of the document -/

def backendSection (b : Index.BackendSettings) : Section :=
  ⟨[], "backend", (backendToToml b).members⟩

def searchSection (s : Index.SearchSettings) : Section :=
  ⟨[], "search", (searchToToml s).members⟩

def fieldSection (f : Field) : Section :=
  ⟨["field"], f.id, (fieldToToml f).members⟩

/-- The sections of fields: one for each, or one for none. -/
def fieldSections (fields : List Field) : List Section :=
  if fields.isEmpty then [⟨[], "field", []⟩] else fields.map fieldSection

def documentSections (c : Config) : List Section :=
  [backendSection c.backend, searchSection c.search] ++ fieldSections c.fields

theorem forall_mem_member? {α : Type} {name : String} {encode : α → Toml} {o : Option α}
    {P : String × Toml → Prop} :
    (∀ m ∈ member? name encode o, P m) ↔ ∀ a ∈ o, P (name, encode a) := by
  cases o <;> simp [member?]

theorem readable_backend (b : Index.BackendSettings) :
    (backendSection b).Readable where
  shallow := (by decide : 0 < levels)
  distinct := by
    obtain ⟨siteName, siteHash, indexId, idField, languageField, foreign⟩ := b
    cases siteHash <;> simp [backendSection, backendToToml, Toml.members, member?]
  each := by
    simp only [backendSection, backendToToml, Toml.members, List.forall_mem_append, List.forall_mem_cons,
      forall_mem_member?]
    exact ⟨⟨⟨writes_text 0 _, nofun⟩, fun _ _ => writes_text 0 _⟩, writes_text 0 _, writes_text 0 _,
      writes_text 0 _, writes_bool 0 _, nofun⟩

theorem ofToml?_backend (b : Index.BackendSettings) :
    BackendPart.ofToml? (.table (backendSection b).values) =
      some (wholeBackend b) := by
  obtain ⟨siteName, siteHash, indexId, idField, languageField, foreign⟩ := b
  cases siteHash <;> rfl

theorem readable_search {s : Index.SearchSettings} (small : s.limit < bound64) :
    (searchSection s).Readable where
  shallow := (by decide : 0 < levels)
  distinct := by simp [searchSection, searchToToml, Toml.members]
  each := by
    have texts : List.Forall₂ (fun item value => Writes 1 (writtenValue item).toList value)
        (s.languages.map fun l => .text l.text) (s.languages.map fun l => .text l.text) := by
      rw [List.forall₂_same]
      simp only [List.forall_mem_map]
      exact fun l _ => writes_text 1 _
    have fits : fits128 s.limit = true := by
      unfold bound64 at small
      simp only [fits128, Bool.and_eq_true, decide_eq_true_eq]
      omega
    simp only [searchSection, searchToToml, Toml.members, List.forall_mem_cons]
    exact ⟨writes_text 0 _, writes_text 0 _, writes_list (by decide) texts, writes_natural 0 fits,
      nofun⟩

theorem record?_known {names : List String} {members : List (String × Toml)}
    (known : ∀ m ∈ members, m.1 ∈ names) : record? names (.table members) = some ⟨members⟩ := by
  refine if_pos (List.all_eq_true.mpr fun m among => ?_)
  rw [List.contains_iff_mem.mpr (known m among), Bool.true_or]

/-- A member that is written when there is a value for it is read as that value. -/
theorem optional_eq {α : Type} {r : Record} {name : String} {decode : Toml → Option α}
    (encode : α → Toml) {o : Option α} (found : r.get? name = o.map encode)
    (read : ∀ a ∈ o, decode (encode a) = some a) : r.optional name decode = some o := by
  rw [Record.optional, found]
  cases o with
  | none => rfl
  | some a => exact congrArg (Option.map some) (read a rfl)

theorem languageOfToml?_text (l : LanguageId) : languageOfToml? (.text l.text) = some l := by
  change (LanguageId.parse l.text).toOption = _
  rw [l.parse_text]
  rfl

theorem below?_integer {n bound : Nat} (small : n < bound) : below? bound (.integer n) = some n := by
  have within : (0 : Int) ≤ n ∧ (n : Int) < bound := by omega
  exact if_pos within

theorem ofToml?_search {s : Index.SearchSettings} (small : s.limit < bound64) :
    SearchPart.ofToml? (.table (searchSection s).values) =
      some (wholeSearch s) := by
  obtain ⟨mode, conjunction, languages, limit⟩ := s
  have texts : (languages.map fun l => Toml.text l.text).mapM languageOfToml? = some languages := by
    rw [mapM_map_of_forall fun l _ => languageOfToml?_text l, List.map_id']
  have number : below? bound64 (.integer limit) = some limit := below?_integer small
  have values : (searchSection ⟨mode, conjunction, languages, limit⟩).values =
      [("parse_mode", .text mode.name), ("conjunction", .text conjunction.name),
        ("languages", .list (languages.map fun l => .text l.text)), ("limit", .integer limit)] := rfl
  rw [values, SearchPart.ofToml?, record?_known (by simp)]
  simp only [bind, Option.bind_some, Option.bind_eq_some_iff]
  refine ⟨some mode, ?_, some conjunction, ?_, some languages, ?_, some limit, ?_, rfl⟩
  · cases mode <;> rfl
  · cases conjunction <;> rfl
  · exact congrArg (Option.map some) texts
  · refine optional_eq (fun n : Nat => .integer n) rfl ?_
    rintro _ ⟨⟩
    exact number

/-- A written field can be read if its boost is read back. -/
theorem readable_field {f : Field} (back : ∀ b ∈ f.boost, ReadsBack b) :
    (fieldSection f).Readable where
  shallow := (by decide : 1 < levels)
  distinct := by
    obtain ⟨id, type, cardinality, datasource, boost, pinned⟩ := f
    cases datasource <;> cases boost <;> cases pinned <;>
      simp [fieldSection, fieldToToml, Toml.members, member?]
  each := by
    simp only [fieldSection, fieldToToml, Toml.members, List.forall_mem_append, List.forall_mem_cons,
      forall_mem_member?]
    exact ⟨⟨⟨⟨writes_text 0 _, writes_bool 0 _, nofun⟩, fun b given => writes_single 0 (back b given)⟩,
      fun _ _ => writes_text 0 _⟩, fun _ _ => writes_text 0 _⟩

theorem ofToml?_field {f : Field} (back : ∀ b ∈ f.boost, ReadsBack b) :
    FieldPart.ofToml? (.table (fieldSection f).values) =
      some (wholeField f) := by
  obtain ⟨id, type, cardinality, datasource, boost, pinned⟩ := f
  have boosted : ∀ b ∈ boost, single? (reread (.single b)) = some b :=
    fun b given => (back b given).single?
  have long : ∀ members, FieldPart.isShort (.table members) = false := fun _ => rfl
  unfold FieldPart.ofToml?
  rw [long, if_neg Bool.false_ne_true]
  rw [record?_known (by
    cases datasource <;> cases boost <;> cases pinned <;>
      simp [fieldSection, Section.values, fieldToToml, Toml.members, member?,
        FieldPart.memberNames])]
  simp only [bind, Option.bind_some, Option.bind_eq_some_iff]
  refine ⟨type, ?_, some (cardinality == .multi), ?_, boost, ?_, datasource, ?_, pinned, ?_, rfl⟩
  · cases type <;> rfl
  · rfl
  · refine optional_eq (reread ∘ .single) ?_ boosted
    cases datasource <;> cases boost <;> cases pinned <;> rfl
  · refine optional_eq .text ?_ fun _ _ => rfl
    cases datasource <;> cases boost <;> cases pinned <;> rfl
  · refine optional_eq .text ?_ fun _ _ => rfl
    cases datasource <;> cases boost <;> cases pinned <;> rfl

/-! ### The document -/

theorem flat_backend (b : Index.BackendSettings) :
    ∀ m ∈ (backendToToml b).members, isTable m.2 = false := by
  simp only [backendToToml, Toml.members, List.forall_mem_append, List.forall_mem_cons,
    forall_mem_member?]
  exact ⟨⟨⟨rfl, nofun⟩, fun _ _ => rfl⟩, rfl, rfl, rfl, rfl, nofun⟩

theorem flat_search (s : Index.SearchSettings) :
    ∀ m ∈ (searchToToml s).members, isTable m.2 = false := by
  simp only [searchToToml, Toml.members, List.forall_mem_cons]
  exact ⟨rfl, rfl, rfl, rfl, nofun⟩

theorem flat_field (f : Field) : ∀ m ∈ (fieldToToml f).members, isTable m.2 = false := by
  simp only [fieldToToml, Toml.members, List.forall_mem_append, List.forall_mem_cons,
    forall_mem_member?]
  exact ⟨⟨⟨⟨rfl, rfl, nofun⟩, fun _ _ => rfl⟩, fun _ _ => rfl⟩, fun _ _ => rfl⟩

theorem sections_fields (fields : List Field) :
    (Toml.table (fields.map fun f => (f.id, fieldToToml f))).sections ["field"] =
      (fieldSections fields).map fun s => String.ofList s.chars := by
  have each : ∀ fields : List Field,
      memberSections ["field"] (fields.map fun f => (f.id, fieldToToml f)) =
        (fields.map fieldSection).map fun s => String.ofList s.chars := by
    intro fields
    induction fields with
    | nil => rfl
    | cons f rest ih =>
      rw [List.map_cons, memberSections, ih]
      exact congrArg (· ++ _) (sections_flat ["field"] f.id (flat_field f))
  cases fields with
  | nil => exact sections_flat [] "field" fun _ among => absurd among List.not_mem_nil
  | cons f rest =>
    have own : ((f :: rest).map fun f => (f.id, fieldToToml f)).filter (fun m => !m.2.isTable) =
        [] := by
      rw [List.filter_eq_nil_iff]
      simp [fieldToToml, isTable]
    rw [sections, each, ownSection, own]
    rfl

/-- The text of the settings is that of their sections. -/
theorem document_eq {c : Config} (ordered : Index.Ordered c.fields) :
    c.document =
      String.ofList (Text.joinWith ['\n'] (c.documentSections.map Section.chars)) := by
  have fields : (Index.FieldSet.ofList c.fields).items = c.fields :=
    congrArg Index.FieldSet.items (Index.ofList_items ⟨c.fields, ordered⟩)
  have backend : (backendToToml c.backend).sections ([] ++ ["backend"]) =
      [String.ofList (backendSection c.backend).chars] :=
    sections_flat [] "backend" (flat_backend c.backend)
  have search : (searchToToml c.search).sections ([] ++ ["search"]) =
      [String.ofList (searchSection c.search).chars] :=
    sections_flat [] "search" (flat_search c.search)
  have all : c.toToml.sections [] = c.documentSections.map fun s => String.ofList s.chars := by
    rw [toToml, fields]
    change (backendToToml c.backend).sections ([] ++ ["backend"]) ++
      ((searchToToml c.search).sections ([] ++ ["search"]) ++
        ((Toml.table (c.fields.map fun f => (f.id, fieldToToml f))).sections ["field"] ++ [])) = _
    rw [sections_fields, List.append_nil, documentSections, List.map_append, backend, search]
    rfl
  have texts : (c.documentSections.map fun s => String.ofList s.chars).map String.toList =
      c.documentSections.map Section.chars := by
    rw [List.map_map]
    exact List.map_congr_left fun s _ => String.toList_ofList
  have line : "\n".toList = ['\n'] := rfl
  rw [document, documentText, all, Text.joinTexts, texts, line]

/-- The settings that a document can hold: a number of results that fits 64 bits, and boosts whose
digits are read as they are. -/
structure Printable (c : Config) : Prop where
  ordered : Index.Ordered c.fields
  limit : c.search.limit < bound64
  boosts : ∀ f ∈ c.fields, ∀ b ∈ f.boost, ReadsBack b

/-- The fields as members of a document. -/
def fieldDrafts (fields : List Field) : Draft :=
  .table (if fields.isEmpty then .defined else .passed)
    (fields.map fun f => (f.id, (fieldSection f).draft))

/-- The written fields fill a document one after the other. -/
theorem fills_fields {outer : Draft.Members} (new : ∀ m ∈ outer, m.1 ≠ "field") {fields : List Field}
    (ordered : Index.Ordered fields) (boosts : ∀ f ∈ fields, ∀ b ∈ f.boost, ReadsBack b) :
    Fills outer (fieldSections fields) (outer ++ [("field", fieldDrafts fields)]) := by
  cases fields with
  | nil =>
    have empty : (Section.mk [] "field" []).Readable :=
      ⟨(by decide : 0 < levels), .nil, fun _ among => absurd among List.not_mem_nil⟩
    exact fills_table new empty
  | cons f rest =>
    have distinct : ((f :: rest).map fun f => (f.id, (fieldToToml f).members)).Pairwise
        fun t u => t.1 ≠ u.1 := by
      rw [List.pairwise_map]
      exact Index.Ordered.distinct ordered
    have readable : ∀ t ∈ (f :: rest).map fun f => (f.id, (fieldToToml f).members),
        (Section.mk ["field"] t.1 t.2).Readable := by
      rw [List.forall_mem_map]
      exact fun f among => readable_field (boosts f among)
    have some_field : ((f :: rest).map fun f => (f.id, (fieldToToml f).members)) ≠ [] :=
      List.cons_ne_nil _ _
    have tables := fills_tables new some_field distinct readable
    rw [List.map_map, List.map_map] at tables
    exact tables

/-- The document is read as the settings that its sections hold. -/
theorem fills_document {c : Config} (printable : c.Printable) :
    Fills [] c.documentSections
      [("backend", (backendSection c.backend).draft), ("search", (searchSection c.search).draft),
        ("field", fieldDrafts c.fields)] := by
  have backend : Fills [] [backendSection c.backend]
      [("backend", (backendSection c.backend).draft)] :=
    fills_table (fun _ among => absurd among List.not_mem_nil) (readable_backend c.backend)
  have search : Fills [("backend", (backendSection c.backend).draft)] [searchSection c.search]
      [("backend", (backendSection c.backend).draft), ("search", (searchSection c.search).draft)] :=
    fills_table (by simp) (readable_search printable.limit)
  exact (backend.append search).append
    (fills_fields (by simp) printable.ordered printable.boosts)

theorem toToml_fieldDrafts (fields : List Field) :
    (fieldDrafts fields).toToml =
      .table (fields.map fun f => (f.id, .table (fieldSection f).values)) := by
  have members : Draft.membersToToml (fields.map fun f => (f.id, (fieldSection f).draft)) =
      fields.map fun f => (f.id, .table (fieldSection f).values) := by
    induction fields with
    | nil => rfl
    | cons f rest ih =>
      rw [List.map_cons, Draft.membersToToml, ih, Section.toToml_draft, List.map_cons]
  rw [fieldDrafts, Draft.toToml, members]

theorem fieldsOfToml?_fields {fields : List Field} (ordered : Index.Ordered fields)
    (boosts : ∀ f ∈ fields, ∀ b ∈ f.boost, ReadsBack b) :
    fieldsOfToml? (.table (fields.map fun f => (f.id, .table (fieldSection f).values))) =
      some (fields.map fun f => (f.id, wholeField f)) := by
  have sorted : (fields.map fun f => (f.id, wholeField f)).Pairwise
      fun a b => decide (a.1 ≤ b.1) = true := by
    rw [List.pairwise_map]
    exact le_of_ordered ordered
  rw [fieldsOfToml?, mapM_map_of_forall]
  · exact congrArg some (List.mergeSort_of_pairwise sorted)
  · intro f among
    dsimp only
    rw [ofToml?_field (boosts f among)]
    rfl

/-- The document of some settings says all of them. -/
theorem read?_document {c : Config} (printable : c.Printable) :
    File.read? c.document = some c.asFile := by
  rw [File.read?, document_eq printable.ordered, read?_sections (fills_document printable),
    Option.bind_some]
  simp only [Draft.membersToToml, Section.toToml_draft, toToml_fieldDrafts]
  rw [File.ofToml?, record?_known (by simp)]
  simp only [bind, Option.bind_some, Option.bind_eq_some_iff]
  refine ⟨none, rfl, some (wholeBackend c.backend), ?_, some (wholeSearch c.search), ?_,
    some (c.fields.map fun f => (f.id, wholeField f)), ?_, rfl⟩
  · exact congrArg (Option.map some) (ofToml?_backend c.backend)
  · exact congrArg (Option.map some) (ofToml?_search printable.limit)
  · exact congrArg (Option.map some) (fieldsOfToml?_fields printable.ordered printable.boosts)

/-! ### Merged settings -/

theorem exists_of_optional {α : Type} {r : Record} {name : String} {decode : Toml → Option α} {a : α}
    (read : r.optional name decode = some (some a)) : ∃ value, decode value = some a := by
  unfold Record.optional at read
  split at read
  · next value _ =>
    obtain ⟨b, decoded, same⟩ := Option.map_eq_some_iff.mp read
    cases same
    exact ⟨value, decoded⟩
  · cases read

/-- The number of results in a file fits 64 bits. -/
theorem limit_of_read {text : String} {file : File} (read : File.read? text = some file) {n : Nat}
    (said : Setting.limit.inFile file = some n) : n < bound64 := by
  obtain ⟨document, -, read⟩ := Option.bind_eq_some_iff.mp read
  obtain ⟨part, has_part, limit⟩ := Option.bind_eq_some_iff.mp said
  simp only [File.ofToml?, bind, Option.bind_eq_some_iff] at read
  obtain ⟨r, -, root, -, backend, -, search, has_search, fields, -, same⟩ := read
  cases same
  change search = some part at has_part
  rw [has_part] at has_search
  obtain ⟨value, read⟩ := exists_of_optional has_search
  simp only [SearchPart.ofToml?, bind, Option.bind_eq_some_iff] at read
  obtain ⟨r', -, mode, -, conjunction, -, languages, -, own, has_limit, same⟩ := read
  cases same
  change own = some n at limit
  rw [limit] at has_limit
  obtain ⟨number, read⟩ := exists_of_optional has_limit
  unfold below? at read
  split at read
  · next m =>
    split at read
    · next within =>
      cases read
      omega
    · cases read
  · cases read

/-- Settings that are merged of files can be written, if the boosts are read back. -/
theorem printable_merge {files : List Placed} (read : ∀ f ∈ files, ∃ text, File.read? text = some f.file)
    (boosts : ∀ f ∈ (merge files).fields, ∀ b ∈ f.boost, ReadsBack b) :
    (merge files).Printable where
  ordered := mergeFields_increasing files
  boosts := boosts
  limit := by
    change Setting.limit.of (merge files) < bound64
    rw [Setting.limit.of_merge]
    cases first : firstOf files Setting.limit.inFile with
    | none => decide
    | some n =>
      obtain ⟨f, among, said⟩ := List.exists_of_findSome?_eq_some first
      obtain ⟨text, own⟩ := read f among
      exact limit_of_read own said

/-- The document of merged settings is a configuration file, and merged alone it gives the same
settings: those of the backend, those of searches and all fields. Boosts that are rounded to another
number on the way through double precision are left out. -/
theorem document_reloads (files : List Placed)
    (read : ∀ f ∈ files, ∃ text, File.read? text = some f.file)
    (boosts : ∀ f ∈ (merge files).fields, ∀ b ∈ f.boost, ReadsBack b) :
    ∃ file, File.read? (merge files).document = some file ∧
      ∀ path, (merge [⟨path, file⟩]).backend = (merge files).backend ∧
        (merge [⟨path, file⟩]).search = (merge files).search ∧
        (merge [⟨path, file⟩]).fields = (merge files).fields := by
  have printable := printable_merge read boosts
  exact ⟨_, read?_document printable, merge_asFile printable.ordered⟩

/-- What two files say about a shop. -/
def shopTexts : List String :=
  ["[search]\nlanguages = ['de', 'en']\n[field.title]\ntype = 'text'\nboost = 1.5\n",
    "[backend]\nsite_name = 'the \"shop\"'\n" ++
      "[field.'price range']\ntype = 'decimal'\nmulti = true\n"]

def shop : List Placed :=
  shopTexts.filterMap fun text =>
    (File.read? text).map fun file => ⟨.ofText "/shop/.lucent.toml", file⟩

/-- The fields of the shop, in the order of their ids. -/
def shopFields : List Field :=
  [⟨"price range", .decimal, .multi, none, none, none⟩,
    ⟨"title", .text, .single, none, some 1.5, none⟩]

/-- Two files of a shop, merged, written and read again. -/
theorem document_reloads_shop :
    shop.length = 2 ∧ (∀ f ∈ shop, ∃ text, File.read? text = some f.file) ∧
      (∀ f ∈ (merge shop).fields, ∀ b ∈ f.boost, ReadsBack b) ∧
      ∃ file, File.read? (merge shop).document = some file ∧
        ∀ path, (merge [⟨path, file⟩]).backend =
            { Index.BackendSettings.standard with siteName := "the \"shop\"" } ∧
          (merge [⟨path, file⟩]).search = { Index.SearchSettings.standard with
            languages := [⟨"de", by decide, by decide⟩, ⟨"en", by decide, by decide⟩] } ∧
          (merge [⟨path, file⟩]).fields = shopFields := by
  have count : shop.length = 2 := by decide +kernel
  have read : ∀ f ∈ shop, ∃ text, File.read? text = some f.file := by
    intro f among
    obtain ⟨text, -, placed⟩ := List.mem_filterMap.mp among
    obtain ⟨file, read, rfl⟩ := Option.map_eq_some_iff.mp placed
    exact ⟨text, read⟩
  have backend : (merge shop).backend =
      { Index.BackendSettings.standard with siteName := "the \"shop\"" } := by
    decide +kernel
  have search : (merge shop).search = { Index.SearchSettings.standard with
      languages := [⟨"de", by decide, by decide⟩, ⟨"en", by decide, by decide⟩] } := by
    decide +kernel
  have fields : (merge shop).fields = shopFields := by
    apply mergeFields_eq
    · decide +kernel
    · have known : knownFields shop = shopFields.reverse := by decide +kernel
      rw [known]
      exact (List.reverse_perm shopFields).symm
  have boosts : ∀ f ∈ (merge shop).fields, ∀ b ∈ f.boost, ReadsBack b := by
    rw [fields]
    decide +kernel
  obtain ⟨file, again, same⟩ := document_reloads shop read boosts
  rw [backend, search, fields] at same
  exact ⟨count, read, boosts, file, again, same⟩

end Config

end SearchCompiler
