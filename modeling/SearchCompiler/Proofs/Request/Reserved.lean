import SearchCompiler.Proofs.Compile.Meaning
import SearchCompiler.Proofs.Request.Session

/-!
# Configured fields with reserved ids

A reserved id stands for its own field, whatever field is configured under it. So conditions,
locations, orders, facets, groups and named fields to search never see a configured field with a
reserved id. One list still holds it: that of the text fields, which a query with keys searches when
it names no fields. Only there a request can change when such a field is added, and only if the
field, or the one in whose place it is put, is a text field. A text field with a reserved id is then
always searched (`reserved_field_requests`).
-/

namespace SearchCompiler.Index

theorem find?_insertField {field : Field} {fields : List Field} {id : String}
    (other : field.id ≠ id) :
    (insertField field fields).find? (fun f => f.id == id) = fields.find? fun f => f.id == id := by
  have skipped : (field.id == id) = false := beq_eq_false_iff_ne.mpr other
  induction fields with
  | nil => simp [insertField, skipped]
  | cons f rest ih =>
    rw [insertField]
    split
    · rw [List.find?_cons, skipped]
    · split
      · next same => rw [List.find?_cons, List.find?_cons, ← same, skipped]
      · rw [List.find?_cons, List.find?_cons, ih]

theorem mem_insertField_self (field : Field) (fields : List Field) :
    field ∈ insertField field fields := by
  induction fields with
  | nil => exact List.mem_singleton_self field
  | cons f rest ih =>
    rw [insertField]
    split
    · exact List.mem_cons_self
    · split
      · exact List.mem_cons_self
      · exact List.mem_cons_of_mem _ ih

/-- A field that is not searched by keys leaves the list of text fields as it is, unless it is put
in the place of one of them. -/
theorem filter_isText_insertField {field : Field} {fields : List Field}
    (silent : field.isText = false) (kept : ∀ f ∈ fields, f.isText = true → f.id ≠ field.id) :
    (insertField field fields).filter Field.isText = fields.filter Field.isText := by
  induction fields with
  | nil => simp [insertField, silent]
  | cons f rest ih =>
    obtain ⟨own, others⟩ := List.forall_mem_cons.mp kept
    rw [insertField]
    split
    · rw [List.filter_cons_of_neg (by simp [silent])]
    · split
      · next same =>
        have replaced : ¬ f.isText = true := fun text => own text same.symm
        rw [List.filter_cons_of_neg (by simp [silent]), List.filter_cons_of_neg replaced]
      · rw [List.filter_cons, List.filter_cons, ih others]

/-- What is configured under a reserved id is not found by any id. -/
theorem Schema.field?_insert_reserved {s : Schema} {field : Field}
    (reserved : field.id ∈ Name.reservedIds) (id : String) :
    { s with fields := s.fields.insert field }.field? id = s.field? id := by
  unfold Schema.field?
  by_cases same : field.id = id
  · subst same
    unfold reservedField?
    rw [if_pos (List.contains_iff_mem.mpr reserved), Option.some_or, Option.some_or]
  · exact congrArg _ (find?_insertField same)

end SearchCompiler.Index

namespace SearchCompiler.Request

open Compile Compile.Traced Index

namespace Assembly

/-- The same assembly over the index with a field more. -/
def addField (a : Assembly) (field : Field) : Assembly :=
  ⟨⟨a.context.catalog.addField field, a.context.spatial⟩, a.settings⟩

variable {a : Assembly} {field : Field}

/-- Adding a field with a reserved id changes no answer about an id or a name. -/
theorem addField_answersAlike (faithful : a.context.IsFaithful)
    (reserved : field.id ∈ Name.reservedIds) : a.AnswersAlike (a.addField field) where
  context := {
    field := fun id => by
      have same : (a.addField field).context.schema.field? id = a.context.schema.field? id :=
        Schema.field?_insert_reserved reserved id
      unfold Context.field
      rw [same]
    name := fun _ _ owned => Context.name_alike faithful owned rfl
    foreign := rfl
    spatial := rfl }
  settings := rfl
  languages := rfl
  scope := rfl
  special := rfl

/-- The field is searched by keys, or it is put in the place of a field that is. -/
def ChangesText (a : Assembly) (field : Field) : Prop :=
  field.isText = true ∨ ∃ f ∈ a.schema.fields.textFields, f.id = field.id

theorem textFields_addField (unchanged : ¬ a.ChangesText field) :
    (a.addField field).schema.fields.textFields = a.schema.fields.textFields := by
  obtain ⟨silent, kept⟩ := not_or.mp unchanged
  refine filter_isText_insertField (Bool.not_eq_true _ ▸ silent) fun f among text same => ?_
  exact kept ⟨f, List.mem_filter.mpr ⟨among, text⟩, same⟩

/-! ### Searching all text fields -/

/-- The targets of a field are its names in all languages, next to what is there already. -/
theorem addTargets_mem (a : Assembly) (field : Field) (languages : List LanguageId)
    (targets : List Target) :
    ∃ all, (a.addTargets field languages targets).outcome = .ok all ∧ targets ⊆ all ∧
      ∀ language ∈ languages,
        Target.boosted (a.context.catalog.nameOf field language) field.boost ∈ all := by
  induction languages generalizing targets with
  | nil => exact ⟨targets, rfl, List.Subset.refl _, List.forall_mem_nil _⟩
  | cons language rest ih =>
    let target := Target.boosted (a.context.catalog.nameOf field language) field.boost
    let next := if targets.contains target then targets else targets ++ [target]
    have grows : targets ⊆ next ∧ target ∈ next := by
      by_cases known : targets.contains target
      · simp only [next, if_pos known]
        exact ⟨List.Subset.refl _, List.contains_iff_mem.mp known⟩
      · simp only [next, if_neg known]
        exact ⟨List.subset_append_left _ _, List.mem_append_right _ List.mem_cons_self⟩
    obtain ⟨all, ran, kept, found⟩ := ih next
    exact ⟨all, ran, List.Subset.trans grows.1 kept,
      List.forall_mem_cons.mpr ⟨kept grows.2, found⟩⟩

/-- Text fields all become targets in every language of a query. -/
theorem targetsOf_mem (a : Assembly) {languages : List LanguageId} (spoken : languages ≠ [])
    {fields : List Field} (texts : ∀ f ∈ fields, f.isText = true) (targets : List Target) :
    ∃ all, (a.targetsOf languages fields targets).outcome = .ok all ∧ targets ⊆ all ∧
      ∀ f ∈ fields, ∀ language ∈ languages,
        Target.boosted (a.context.catalog.nameOf f language) f.boost ∈ all := by
  induction fields generalizing targets with
  | nil => exact ⟨targets, rfl, List.Subset.refl _, List.forall_mem_nil _⟩
  | cons f rest ih =>
    obtain ⟨text, others⟩ := List.forall_mem_cons.mp texts
    obtain ⟨own, ran, kept, found⟩ := a.addTargets_mem f languages targets
    obtain ⟨all, ran', kept', found'⟩ := ih others own
    refine ⟨all, ?_, List.Subset.trans kept kept',
      List.forall_mem_cons.mpr ⟨fun language among => ?_, found'⟩⟩
    · rw [targetsOf, if_pos text, if_neg (by simpa using spoken), outcome_bind]
      rw [ran]
      exact ran'
    · exact kept' (found language among)

/-- Without a language no text field has a target, and the first of them is told. -/
theorem targetsOf_unspoken (a : Assembly) {fields : List Field} (nonempty : fields ≠ [])
    (texts : ∀ f ∈ fields, f.isText = true) :
    ∃ id, (a.targetsOf [] fields []).outcome = .error (.missingLanguage id) := by
  obtain ⟨f, rest, rfl⟩ := List.exists_cons_of_ne_nil nonempty
  refine ⟨f.id, ?_⟩
  rw [targetsOf, if_pos (texts f List.mem_cons_self)]
  rfl

/-- The main query of a query that searches all text fields. -/
theorem mainQuery_all {q : Query} {keys : Keys.Expression} (languages : List LanguageId)
    (read : a.keys q (q.mode.getD a.settings.mode) = .ok (some keys)) (all : q.fields = []) :
    (a.mainQuery q languages).outcome =
      (a.targetsOf languages a.schema.fields.textFields []).outcome >>= fun targets =>
        ((Keys.Flattening.mk targets (q.mode.getD a.settings.mode)).compile keys).map
          (·.getD .everything) := by
  unfold mainQuery
  dsimp only
  rw [read, outcome_bind, outcome_ofExcept]
  change Traced.outcome _ = _
  rw [outcome_bind, targets, all]
  refine bind_congr fun targets => ?_
  exact Context.outcome_bind_pure _ _

end Assembly

/-- A configured field with a reserved id changes no request, unless the query searches all text
fields and the field is one, or is put in the place of one. A text field with a reserved id is
always searched then: without a language the query fails, and otherwise the reserved name is among
the targets of the keys. -/
theorem reserved_field_requests (b : BackendSettings) (fields : List Field)
    (languages : List LanguageId) (a : Assembly)
    (run : Reachable (.ofSchema (.build b fields languages)) a.context.catalog) (field : Field)
    (reserved : field.id ∈ Name.reservedIds) (q : Query) :
    (¬ (a.SearchesAll q ∧ a.ChangesText field) → (a.addField field).request q = a.request q) ∧
      (a.SearchesAll q → field.isText = true →
        (a.languages q = [] →
          ∃ id, ((a.addField field).request q).outcome = .error (.missingLanguage id)) ∧
        (a.languages q ≠ [] → ∃ name keys targets,
          a.schema.special.nameOf? field.id = some name ∧
          a.keys q (q.mode.getD a.settings.mode) = .ok (some keys) ∧
          Target.boosted name field.boost ∈ targets ∧
          ((a.addField field).mainQuery q (a.languages q)).outcome =
            ((Keys.Flattening.mk targets (q.mode.getD a.settings.mode)).compile keys).map
              (·.getD .everything))) := by
  have faithful : a.context.IsFaithful := run.isFaithful (Catalog.isFaithful_empty _)
  have alike := Assembly.addField_answersAlike faithful reserved
  refine ⟨fun unseen => ?_, fun all text => ?_⟩
  · refine (alike.request_alike q fun all => ?_).same.symm
    exact Assembly.textFields_addField fun changes => unseen ⟨all, changes⟩
  obtain ⟨everywhere, keys, read⟩ := all
  have added : field ∈ (a.addField field).schema.fields.textFields :=
    List.mem_filter.mpr ⟨mem_insertField_self field _, text⟩
  have texts : ∀ f ∈ (a.addField field).schema.fields.textFields, f.isText = true :=
    fun f among => (List.mem_filter.mp among).2
  have read' : (a.addField field).keys q (q.mode.getD (a.addField field).settings.mode) =
      .ok (some keys) := read
  constructor
  · intro unspoken
    obtain ⟨id, failed⟩ :=
      (a.addField field).targetsOf_unspoken (List.ne_nil_of_mem added) texts
    refine ⟨id, ?_⟩
    have main := Assembly.mainQuery_all [] read' everywhere
    rw [failed] at main
    have silent : (a.addField field).languages q = [] := unspoken
    rw [Assembly.request, outcome_bind, silent, main]
    rfl
  · intro spoken
    obtain ⟨name, fixed⟩ := exists_nameOf? a.schema.special reserved
    obtain ⟨targets, ran, -, found⟩ := (a.addField field).targetsOf_mem spoken texts []
    obtain ⟨language, among⟩ := List.exists_mem_of_ne_nil _ spoken
    refine ⟨name, keys, targets, fixed, read, ?_, ?_⟩
    · have named : (a.addField field).context.catalog.nameOf field language = name := by
        change a.schema.special.fieldName field language = name
        rw [Name.Special.fieldName, fixed]
      exact named ▸ found field added language among
    · rw [Assembly.mainQuery_all _ read' everywhere, ran]
      rfl

def titles : Assembly :=
  ⟨⟨.ofSchema (.build .standard [.simple "title" .text] [Context.english]), .skip⟩, .standard⟩

def aboutRust : Query :=
  { Query.empty with keys := some (.group .and false false [.term "rust"]) }

/-- The field of the item's id, put into the index, is searched iff it is text. -/
theorem titles_searched (type : DataType) : titles.ChangesText (.simple Name.itemId type) ↔
    type = .text := by
  constructor
  · rintro (text | ⟨f, among, same⟩)
    · exact beq_iff_eq.mp text
    · change f ∈ [_] at among
      rw [List.mem_singleton.mp among] at same
      have other : "title" ≠ Name.itemId := by decide
      exact absurd same other
  · rintro rfl
    exact .inl rfl

/-- The field of the item's id, as a date and as a text. -/
theorem reserved_field_requests_item :
    Name.itemId ∈ Name.reservedIds ∧ titles.SearchesAll aboutRust ∧
      (titles.addField (.simple Name.itemId .date)).request aboutRust = titles.request aboutRust ∧
      ∃ targets, Target.boosted "ss_search_api_id" none ∈ targets ∧
        ((titles.addField (.simple Name.itemId .text)).mainQuery aboutRust
          [Context.english]).outcome =
          ((Keys.Flattening.mk targets .terms).compile (.group .and false false [.term "rust"])).map
            (·.getD .everything) := by
  have reserved : Name.itemId ∈ Name.reservedIds := by decide
  have all : titles.SearchesAll aboutRust := ⟨rfl, _, rfl⟩
  have silent := (reserved_field_requests .standard [.simple "title" .text] [Context.english] titles
    .initial (.simple Name.itemId .date) reserved aboutRust).1
  have searched := (reserved_field_requests .standard [.simple "title" .text] [Context.english]
    titles .initial (.simple Name.itemId .text) reserved aboutRust).2 all rfl
  obtain ⟨name, keys, targets, fixed, read, among, main⟩ := searched.2 (List.cons_ne_nil _ _)
  cases fixed
  cases read
  exact ⟨reserved, all, silent fun changes => absurd ((titles_searched _).mp changes.2) (by decide),
    targets, among, main⟩

/-- A query for a word in any text field searches a text field that is configured under a reserved
id, under the name of the reserved field. -/
theorem reserved_text_field_searched :
    Reachable (.ofSchema (.build .standard [.simple "title" .text] [Context.english]))
        titles.context.catalog ∧
      Name.itemId ∈ Name.reservedIds ∧
      (titles.request aboutRust).outcome.map Compiled.query =
        .ok "+(ts_X3b_en_title:(+rust)^1)" ∧
      ((titles.addField (.simple Name.itemId .text)).request aboutRust).outcome.map Compiled.query =
        .ok "+(ss_search_api_id:(+rust)^1 ts_X3b_en_title:(+rust)^1)" ∧
      ((titles.addField (.simple Name.itemId .text)).request aboutRust).outcome ≠
        (titles.request aboutRust).outcome := by
  have without : (titles.request aboutRust).outcome.map Compiled.query =
      .ok "+(ts_X3b_en_title:(+rust)^1)" := by
    rfl
  have added : ((titles.addField (.simple Name.itemId .text)).request aboutRust).outcome.map
      Compiled.query = .ok "+(ss_search_api_id:(+rust)^1 ts_X3b_en_title:(+rust)^1)" := by
    rfl
  refine ⟨.initial, by decide, without, added, fun same => ?_⟩
  rw [same, without] at added
  exact absurd (Except.ok.inj added) (by decide)

end SearchCompiler.Request
