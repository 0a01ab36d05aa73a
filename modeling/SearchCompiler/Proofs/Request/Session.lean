import SearchCompiler.Proofs.Request.Asking

/-!
# Names stay right in a session

A session changes a catalog, asks it for names, compiles conditions and assembles requests, in any
order and with any outcome. The book is never seen in its answers: all entries are right in every
state that a session reaches (`Reachable.isFaithful`), so that each answer is the one of a catalog
that is built anew from the same settings, fields, languages and flag (`session_unobservable`).

A call asks the book as it was before the call. What it would be told from the names remembered on
its way is the same (`names_within_call`).

The book is keyed by field id and language alone. What keeps it right is that the fields change
only together with a reset, and that only names of fields of the schema are asked for: a field that
does not belong to the schema could leave its name behind under the id of one that does.
-/

namespace SearchCompiler.Request

open Compile Compile.Traced

/-- What is done with a catalog in a session. -/
inductive Operation where
  | addField (field : Field)
  | removeField (id : String)
  | setLanguages (languages : List LanguageId)
  | setForeign (foreign : Bool)
  | reset
  /-- Asks for the name of a field. -/
  | name (field : Field) (language : LanguageId)
  | conditions (spatial : Spatial) (languages : List LanguageId) (group : Filter.Group)
  | request (spatial : Spatial) (settings : Index.SearchSettings) (query : Query)

namespace Operation

/-- Names are asked for fields of the schema only. -/
def IsAllowed (c : Index.Catalog) : Operation → Prop
  | .name field _ => c.schema.Owns field
  | _ => True

/-- The catalog after an operation. What was asked for is remembered also when compiling fails. -/
def after (c : Index.Catalog) : Operation → Index.Catalog
  | .addField field => c.addField field
  | .removeField id => (c.removeField id).1
  | .setLanguages languages => c.setLanguages languages
  | .setForeign foreign => c.setForeign foreign
  | .reset => c.reset
  | .name field language => (c.ask field language).1
  | .conditions spatial languages group =>
    c.remember (Context.conditions ⟨c, spatial⟩ languages group).names
  | .request spatial settings query =>
    c.remember (Assembly.request ⟨⟨c, spatial⟩, settings⟩ query).names

end Operation

/-- The catalogs that sessions reach from a catalog. -/
inductive Reachable (initial : Index.Catalog) : Index.Catalog → Prop where
  | initial : Reachable initial initial
  | step {c : Index.Catalog} (op : Operation) :
      Reachable initial c → op.IsAllowed c → Reachable initial (op.after c)

open Index

/-- An operation keeps all entries right: it forgets them, or leaves the fields as they are and adds
right ones. -/
theorem isFaithful_after {c : Catalog} (faithful : c.IsFaithful) {op : Operation}
    (allowed : op.IsAllowed c) : (op.after c).IsFaithful := by
  cases op with
  | addField field => exact Catalog.isFaithful_empty _
  | removeField id =>
    change (c.removeField id).1.IsFaithful
    unfold Catalog.removeField
    split
    · exact Catalog.isFaithful_empty _
    · exact faithful
  | setLanguages languages => exact Catalog.isFaithful_empty _
  | setForeign foreign => exact faithful
  | reset => exact Catalog.isFaithful_empty _
  | name field language =>
    refine faithful.remember ?_
    rw [List.forall_mem_singleton]
    exact Catalog.confirms_nameOf faithful allowed language
  | conditions spatial languages group =>
    have known : Context.IsFaithful ⟨c, spatial⟩ := faithful
    exact faithful.remember (Context.conditions_alike known languages group).right
  | request spatial settings query =>
    have known : (Assembly.mk ⟨c, spatial⟩ settings).context.IsFaithful := faithful
    exact faithful.remember (Assembly.request_alike known query).right

/-- Within a call each name is the one that the book would give with the names asked for earlier in
the call remembered already. A call that remembers them at its end is not told from one that does so
on its way. -/
theorem names_within_call {c : Catalog} (faithful : c.IsFaithful) {before after : List Name.Entry}
    {entry : Name.Entry} :
    (∀ spatial languages group,
      (Context.conditions ⟨c, spatial⟩ languages group).names = before ++ entry :: after →
      ∃ field, c.schema.field? entry.field = some field ∧
        (c.remember before).nameOf field entry.language = entry.name) ∧
    ∀ spatial settings query,
      (Assembly.request ⟨⟨c, spatial⟩, settings⟩ query).names = before ++ entry :: after →
      ∃ field, c.schema.field? entry.field = some field ∧
        (c.remember before).nameOf field entry.language = entry.name := by
  constructor
  · intro spatial languages group parts
    have known : Context.IsFaithful ⟨c, spatial⟩ := faithful
    have right := (Context.conditions_alike known languages group).right
    exact Catalog.nameOf_remembered faithful right parts
  · intro spatial settings query parts
    have known : (Assembly.mk ⟨c, spatial⟩ settings).context.IsFaithful := faithful
    exact Catalog.nameOf_remembered faithful (Assembly.request_alike known query).right parts

/-- All entries are right in every state that a session reaches. -/
theorem Reachable.isFaithful {initial c : Catalog} (run : Reachable initial c)
    (faithful : initial.IsFaithful) : c.IsFaithful := by
  induction run with
  | initial => exact faithful
  | step op _ allowed ih => exact isFaithful_after ih allowed

/-- No operation changes what a catalog has from the settings of its backend. -/
theorem backend_after (c : Catalog) (op : Operation) :
    (op.after c).schema.scope = c.schema.scope ∧
      (op.after c).schema.special = c.schema.special := by
  cases op with
  | removeField id =>
    change (c.removeField id).1.schema.scope = _ ∧ (c.removeField id).1.schema.special = _
    unfold Catalog.removeField
    split <;> exact ⟨rfl, rfl⟩
  | _ => exact ⟨rfl, rfl⟩

/-- No operation changes the backend. -/
theorem Reachable.backend {initial c : Catalog} (run : Reachable initial c) :
    c.schema.scope = initial.schema.scope ∧ c.schema.special = initial.schema.special := by
  induction run with
  | initial => exact ⟨rfl, rfl⟩
  | @step c op _ _ ih =>
    obtain ⟨scope, special⟩ := backend_after c op
    exact ⟨scope.trans ih.1, special.trans ih.2⟩

/-- A catalog that is built anew on a backend, with the fields, languages and flag of another. -/
def rebuilt (b : BackendSettings) (c : Catalog) : Catalog :=
  (Catalog.ofSchema (.build b c.schema.fields.items c.schema.languages)).setForeign c.schema.foreign

theorem Reachable.rebuilt_eq {b : BackendSettings} {fields : List Field}
    {languages : List LanguageId} {c : Catalog}
    (run : Reachable (.ofSchema (.build b fields languages)) c) :
    rebuilt b c = .ofSchema c.schema := by
  obtain ⟨scope, special⟩ := run.backend
  exact congrArg Catalog.ofSchema (Schema.build_self scope special)

/-- In every state of a session each entry of the book holds the name that the field of its id has
without a book, and every answer is the one of a catalog that is built anew. -/
theorem session_unobservable (b : BackendSettings) (fields : List Field)
    (languages : List LanguageId) (c : Catalog)
    (run : Reachable (.ofSchema (.build b fields languages)) c) :
    (∀ entry ∈ c.names.entries, ∃ field, c.schema.field? entry.field = some field ∧
        entry.name = c.schema.special.fieldName field entry.language) ∧
      (∀ field language, c.schema.Owns field →
        (c.ask field language).2 = ((rebuilt b c).ask field language).2) ∧
      (∀ spatial languages group, Context.conditions ⟨c, spatial⟩ languages group =
        Context.conditions ⟨rebuilt b c, spatial⟩ languages group) ∧
      ∀ spatial settings query, Assembly.request ⟨⟨c, spatial⟩, settings⟩ query =
        Assembly.request ⟨⟨rebuilt b c, spatial⟩, settings⟩ query := by
  have faithful := run.isFaithful (Catalog.isFaithful_empty _)
  rw [run.rebuilt_eq]
  refine ⟨faithful, fun field language owned => ?_, fun spatial languages group => ?_,
    fun spatial settings query => ?_⟩
  · exact (Catalog.nameOf_eq faithful owned language).trans
      (Catalog.nameOf_eq (Catalog.isFaithful_empty c.schema) owned language).symm
  · have known : Context.IsFaithful ⟨c, spatial⟩ := faithful
    exact (Context.conditions_alike known languages group).same
  · have known : (Assembly.mk ⟨c, spatial⟩ settings).context.IsFaithful := faithful
    exact (Assembly.request_alike known query).same

/-- A text field, with a name on the backend of its own if there is one. -/
def body (pinned : Option String) : Field := ⟨"body", .text, .single, none, none, pinned⟩

def single : Catalog := .ofSchema (.build .standard [body none] [])

/-- Conditions on a text field and on a field that there is not. -/
def failing : Filter.Group :=
  ⟨.and, [.condition (.equal "body" (.string "rust")), .condition (.absent "title")], .empty⟩

/-- A name is asked for before its field is replaced, and again by conditions that fail. -/
def replaced : Catalog :=
  [.name (body none) .unspecified, .addField (body (some "ts_own")), .setForeign true,
    .conditions .skip [.unspecified] failing].foldl Operation.after single

/-- A field that is replaced between two requests, and what is asked for then. -/
theorem session_unobservable_replaced :
    Reachable single replaced ∧
      replaced.names.entries = [⟨"body", .unspecified, "ts_own"⟩] ∧
      (Context.conditions ⟨replaced, .skip⟩ [.unspecified] failing).outcome =
        .error (.unknownField "title") ∧
      (replaced.ask (body (some "ts_own")) .unspecified).2 =
        ((rebuilt .standard replaced).ask (body (some "ts_own")) .unspecified).2 ∧
      ∀ spatial settings query, Assembly.request ⟨⟨replaced, spatial⟩, settings⟩ query =
        Assembly.request ⟨⟨rebuilt .standard replaced, spatial⟩, settings⟩ query := by
  have named : Reachable single (Operation.after single (.name (body none) .unspecified)) :=
    .step _ .initial (.inl rfl)
  have added := named.step (.addField (body (some "ts_own"))) trivial
  have shared := added.step (.setForeign true) trivial
  have run : Reachable single replaced :=
    shared.step (.conditions .skip [.unspecified] failing) trivial
  obtain ⟨-, names, -, requests⟩ := session_unobservable .standard [body none] [] replaced run
  refine ⟨run, rfl, rfl, names _ _ (.inl rfl), requests⟩

end SearchCompiler.Request
