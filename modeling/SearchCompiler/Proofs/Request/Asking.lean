import SearchCompiler.Proofs.Compile.Asking
import SearchCompiler.Request.Assemble

/-!
# What assembling asks for

Assembling a request does the same in two assemblies that answer alike (`request_alike`): ids stand
for the same fields in both, and fields have the same names. What an index has besides is seen in
one place only: a query with keys that names no fields searches all text fields (`SearchesAll`).
-/

namespace SearchCompiler.Request

open Compile Compile.Traced

namespace Assembly

variable {a : Assembly}

/-- The same assembly with an empty book. -/
def anew (a : Assembly) : Assembly := ⟨a.context.anew, a.settings⟩

/-- Fields that are found by their ids belong to the schema. -/
theorem owns_of_fieldsOf {ids : List String} {fields : List Field}
    (found : a.fieldsOf ids = .ok fields) : ∀ field ∈ fields, a.schema.Owns field := by
  induction ids generalizing fields with
  | nil =>
    cases found
    exact List.forall_mem_nil _
  | cons id rest ih =>
    rw [fieldsOf] at found
    cases own : a.context.field id with
    | error e =>
      rw [own] at found
      cases found
    | ok field =>
      cases others : a.fieldsOf rest with
      | error e =>
        rw [own, others] at found
        cases found
      | ok fields' =>
        rw [own, others] at found
        cases found
        exact List.forall_mem_cons.mpr ⟨Context.owns_of_field own, ih others⟩

/-- The query searches all text fields: it has keys and names no fields to search them in. -/
def SearchesAll (a : Assembly) (q : Query) : Prop :=
  q.fields = [] ∧ ∃ keys, a.keys q (q.mode.getD a.settings.mode) = .ok (some keys)

/-- Two assemblies that answer alike. They may differ in their lists of text fields. -/
structure AnswersAlike (a b : Assembly) : Prop where
  context : a.context.AnswersAlike b.context
  settings : b.settings = a.settings
  languages : b.schema.languages = a.schema.languages
  scope : b.schema.scope = a.schema.scope
  special : b.schema.special = a.schema.special

theorem answersAlike_anew (faithful : a.context.IsFaithful) : a.AnswersAlike a.anew where
  context := faithful.answersAlike
  settings := rfl
  languages := rfl
  scope := rfl
  special := rfl

namespace AnswersAlike

variable {b : Assembly}

theorem addTargets_alike (alike : a.AnswersAlike b) {field : Field} (owned : a.schema.Owns field)
    (languages : List LanguageId) (targets : List Target) :
    AsksAlike a.schema.Confirms (a.addTargets field languages targets)
      (b.addTargets field languages targets) := by
  induction languages generalizing targets with
  | nil => exact .pure targets
  | cons language rest ih => exact .bind (alike.context.name field language owned) fun _ _ => ih _

theorem targetsOf_alike (alike : a.AnswersAlike b) (languages : List LanguageId)
    {fields : List Field} (owned : ∀ field ∈ fields, a.schema.Owns field)
    (targets : List Target) :
    AsksAlike a.schema.Confirms (a.targetsOf languages fields targets)
      (b.targetsOf languages fields targets) := by
  induction fields generalizing targets with
  | nil => exact .pure targets
  | cons field rest ih =>
    obtain ⟨own, others⟩ := List.forall_mem_cons.mp owned
    rw [targetsOf, targetsOf]
    refine .ite (.ite (.throw _) ?_) ?_
    · exact .bind (alike.addTargets_alike own languages targets) fun _ _ => ih others _
    · exact .bind (.warn _) fun _ _ => ih others _

theorem fieldsOf_eq (alike : a.AnswersAlike b) (ids : List String) :
    b.fieldsOf ids = a.fieldsOf ids := by
  induction ids with
  | nil => rfl
  | cons id rest ih => rw [fieldsOf, fieldsOf, ih, alike.context.field]

/-- Fields to search are asked for by the same names. -/
theorem targets_alike (alike : a.AnswersAlike b) (ids : List String)
    (languages : List LanguageId)
    (same : ids = [] → b.schema.fields.textFields = a.schema.fields.textFields) :
    AsksAlike a.schema.Confirms (a.targets ids languages) (b.targets ids languages) := by
  have fields_eq : (if ids.isEmpty then .ok b.schema.fields.textFields else b.fieldsOf ids) =
      if ids.isEmpty then .ok a.schema.fields.textFields else a.fieldsOf ids := by
    rw [alike.fieldsOf_eq]
    split
    · next empty => rw [same (List.isEmpty_iff.mp empty)]
    · rfl
  unfold targets
  rw [fields_eq]
  refine .bind (.ofExcept _) fun fields found => alike.targetsOf_alike languages ?_ []
  rw [outcome_ofExcept] at found
  split at found
  · cases found
    exact fun field among => .inr (List.mem_filter.mp among).1
  · exact owns_of_fieldsOf found

theorem keys_eq (alike : a.AnswersAlike b) (q : Query) (mode : Keys.Mode) :
    b.keys q mode = a.keys q mode := by
  unfold keys
  rw [alike.settings]

/-- The main query is the same, unless it is of all text fields and these differ. -/
theorem mainQuery_alike (alike : a.AnswersAlike b) (q : Query) (languages : List LanguageId)
    (same : a.SearchesAll q → b.schema.fields.textFields = a.schema.fields.textFields) :
    AsksAlike a.schema.Confirms (a.mainQuery q languages) (b.mainQuery q languages) := by
  unfold mainQuery
  dsimp only
  rw [alike.settings, alike.keys_eq]
  refine .bind (.ofExcept (a.keys q _)) fun keys read => ?_
  cases keys with
  | none => exact .pure _
  | some keys =>
    refine .bind (alike.targets_alike q.fields languages fun all => same ⟨all, keys, read⟩)
      fun _ _ => ?_
    exact .bind (.ofExcept _) fun _ _ => .pure _

theorem locationFilter_alike (alike : a.AnswersAlike b) (l : Filter.LocationFilter) :
    AsksAlike a.schema.Confirms (a.locationFilter l) (b.locationFilter l) := by
  unfold locationFilter
  rw [alike.context.field]
  refine .bind (.ofExcept (a.context.field l.field)) fun field found => ?_
  refine .ite (.throw _) ?_
  exact .bind (alike.context.name field .unspecified (Context.owns_of_field found))
    fun _ _ => .pure _

theorem nameOf_alike (alike : a.AnswersAlike b) (languages : List LanguageId) (id : String) :
    AsksAlike a.schema.Confirms (a.nameOf languages id) (b.nameOf languages id) := by
  unfold nameOf
  rw [alike.context.field]
  refine .bind (.ofExcept (a.context.field id)) fun field found => ?_
  have owned := Context.owns_of_field found
  refine .ite ?_ (alike.context.name field .unspecified owned)
  cases languages with
  | nil => exact .throw _
  | cons language rest => exact alike.context.name field language owned

theorem sortClause_alike (alike : a.AnswersAlike b) (languages : List LanguageId)
    (sorts : List Order) :
    AsksAlike a.schema.Confirms (a.sortClause languages sorts) (b.sortClause languages sorts) := by
  refine .ite (.pure none) (.bind (.mapM fun s _ => ?_) fun _ _ => .pure _)
  exact .bind (alike.nameOf_alike languages s.field) fun _ _ => .pure _

theorem facetParameters_alike (alike : a.AnswersAlike b) (languages : List LanguageId)
    (f : Facet) :
    AsksAlike a.schema.Confirms (a.facetParameters languages f) (b.facetParameters languages f) :=
  .bind (alike.nameOf_alike languages f.field) fun _ _ => .pure _

theorem facetsParameters_alike (alike : a.AnswersAlike b) (languages : List LanguageId)
    (facets : List Facet) :
    AsksAlike a.schema.Confirms (a.facetsParameters languages facets)
      (b.facetsParameters languages facets) := by
  refine .ite (.pure []) (.bind (.mapM fun f _ => ?_) fun _ _ => .pure _)
  exact alike.facetParameters_alike languages f

theorem groupParameters_alike (alike : a.AnswersAlike b) (languages : List LanguageId)
    (g : Grouping) :
    AsksAlike a.schema.Confirms (a.groupParameters languages g)
      (b.groupParameters languages g) := by
  refine .ite (.pure []) ?_
  refine .bind (.mapM fun id _ => alike.nameOf_alike languages id) fun _ _ => ?_
  exact .bind (alike.sortClause_alike languages g.sorts) fun _ _ => .pure _

/-- Assembling a request does the same in assemblies that answer alike, and asks for right names
only, also where it fails. Only a query that searches all text fields sees which these are. -/
theorem request_alike (alike : a.AnswersAlike b) (q : Query)
    (same : a.SearchesAll q → b.schema.fields.textFields = a.schema.fields.textFields) :
    AsksAlike a.schema.Confirms (a.request q) (b.request q) := by
  have languages_eq : b.languages q = a.languages q := by
    unfold Assembly.languages
    rw [alike.languages]
  have scope_eq : b.scopeFilter = a.scopeFilter := by
    unfold scopeFilter
    rw [alike.scope]
  have returned_eq : b.returnedFields = a.returnedFields := by
    unfold returnedFields
    rw [alike.special]
  have foreign_eq : b.schema.foreign = a.schema.foreign := alike.context.foreign
  unfold request
  rw [languages_eq, scope_eq, returned_eq, foreign_eq, alike.settings]
  refine .bind (alike.mainQuery_alike q (a.languages q) same) fun _ _ => ?_
  refine .bind (alike.context.conditions_alike (a.languages q) q.filter) fun _ _ => ?_
  refine .bind (.mapM fun l _ => alike.locationFilter_alike l) fun _ _ => ?_
  refine .bind (alike.sortClause_alike (a.languages q) q.sorts) fun _ _ => ?_
  refine .bind (alike.facetsParameters_alike (a.languages q) q.facets) fun _ _ => ?_
  cases q.grouping with
  | none => exact .bind (.pure []) fun _ _ => .pure _
  | some g => exact .bind (alike.groupParameters_alike (a.languages q) g) fun _ _ => .pure _

end AnswersAlike

/-- Assembling a request does the same with a book of right names as with an empty one, and all
names that it asks for are right, also where it fails. -/
theorem request_alike (faithful : a.context.IsFaithful) (q : Query) :
    AsksAlike a.schema.Confirms (a.request q) (a.anew.request q) :=
  (answersAlike_anew faithful).request_alike q fun _ => rfl

end Assembly

end SearchCompiler.Request
