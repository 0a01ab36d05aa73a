import SearchCompiler.Compile.Conditions
import SearchCompiler.Proofs.Index.Names

/-!
# What compiling asks for

Compiling conditions depends on its context by the fields that ids stand for and by the names of
fields of the schema only. In two contexts that answer alike in this way (`AnswersAlike`) it does
the same, up to the last name and warning of its record. Such are a context with a book all of whose
entries are right and the one without a book (`conditions_alike`); every name that is asked for is
then right, whether compiling ends or fails.

The two facts are kept together, for every step of compiling, as one relation between a computation
in the one context and in the other (`AsksAlike`).
-/

namespace SearchCompiler.Compile

namespace Traced

variable {α β : Type}

theorem map_id (t : Traced α) : id <$> t = t := by
  rcases t with ⟨_ | _, events⟩
  · rfl
  · exact congrArg (Traced.mk _) (List.append_nil events)

theorem bind_assoc {γ : Type} (t : Traced α) (f : α → Traced β) (g : β → Traced γ) :
    t >>= f >>= g = t >>= fun a => f a >>= g := by
  rcases t with ⟨_ | a, events⟩
  · rfl
  · change andThen (andThen ⟨.ok a, events⟩ f) g = andThen ⟨.ok a, events⟩ fun a => andThen (f a) g
    unfold andThen
    dsimp only
    cases (f a).outcome with
    | error e => rfl
    | ok b => exact congrArg (Traced.mk _) (List.append_assoc _ _ _)

instance : LawfulMonad Traced :=
  .mk' Traced map_id (fun _ _ => rfl) bind_assoc

/-- Two computations that are the same and whose names have a property. -/
structure AsksAlike (right : Name.Entry → Prop) (t u : Traced α) : Prop where
  same : t = u
  right : ∀ entry ∈ t.names, right entry

namespace AsksAlike

variable {right : Name.Entry → Prop}

theorem of_silent {t : Traced α} (silent : t.names = []) : AsksAlike right t t :=
  ⟨rfl, silent ▸ List.forall_mem_nil _⟩

theorem ofExcept (outcome : Except Error α) :
    AsksAlike right (Traced.ofExcept outcome) (Traced.ofExcept outcome) :=
  of_silent rfl

theorem pure (a : α) : AsksAlike right (Pure.pure a : Traced α) (Pure.pure a) :=
  of_silent rfl

theorem throw (e : Error) :
    AsksAlike right (MonadExcept.throw e : Traced α) (MonadExcept.throw e) :=
  of_silent rfl

theorem warn (warning : Warning) : AsksAlike right (Traced.warn warning) (Traced.warn warning) :=
  of_silent rfl

/-- A second step has to be alike only for the results that the first one can have. -/
theorem bind {t u : Traced α} {f g : α → Traced β} (first : AsksAlike right t u)
    (next : ∀ a, t.outcome = .ok a → AsksAlike right (f a) (g a)) :
    AsksAlike right (t >>= f) (u >>= g) := by
  obtain ⟨rfl, asked⟩ := first
  rcases t with ⟨e | a, events⟩
  · exact ⟨rfl, asked⟩
  · obtain ⟨same, later⟩ := next a rfl
    refine ⟨?_, ?_⟩
    · change andThen ⟨.ok a, events⟩ f = andThen ⟨.ok a, events⟩ g
      unfold andThen
      dsimp only
      rw [same]
    · change ∀ entry ∈ List.filterMap _ (events ++ (f a).events), right entry
      rw [List.filterMap_append, List.forall_mem_append]
      exact ⟨asked, later⟩

/-- Computations that are alike item by item are alike for a list. -/
theorem mapM {f g : α → Traced β} {xs : List α} (each : ∀ x ∈ xs, AsksAlike right (f x) (g x)) :
    AsksAlike right (xs.mapM f) (xs.mapM g) := by
  induction xs with
  | nil =>
    rw [List.mapM_nil, List.mapM_nil]
    exact .pure []
  | cons x rest ih =>
    obtain ⟨head, tail⟩ := List.forall_mem_cons.mp each
    rw [List.mapM_cons, List.mapM_cons]
    exact .bind head fun _ _ => .bind (ih tail) fun _ _ => .pure _

theorem ite {c : Prop} [Decidable c] {t u t' u' : Traced α} (yes : AsksAlike right t u)
    (no : AsksAlike right t' u') : AsksAlike right (if c then t else t') (if c then u else u') := by
  split
  · exact yes
  · exact no

end AsksAlike

end Traced

namespace Context

open Traced Filter

/-- The same schema with an empty book. -/
def anew (ctx : Context) : Context := ⟨.ofSchema ctx.schema, ctx.spatial⟩

/-- A context all of whose remembered names are right. -/
def IsFaithful (ctx : Context) : Prop := ctx.catalog.IsFaithful

variable {ctx : Context}

/-- A field that is found by its id belongs to the schema. -/
theorem owns_of_field {id : String} {field : Field} (found : ctx.field id = .ok field) :
    ctx.schema.Owns field := by
  unfold Context.field at found
  split at found
  · next known =>
    cases found
    exact Index.Schema.owns_field? known
  · cases found

/-- The name of a field is asked for alike in a context that gives the name without a book. -/
theorem name_alike {other : Context} (faithful : ctx.IsFaithful) {field : Field}
    (owned : ctx.schema.Owns field) {language : LanguageId}
    (same : other.catalog.nameOf field language = ctx.schema.special.fieldName field language) :
    AsksAlike ctx.schema.Confirms (ctx.name field language) (other.name field language) := by
  refine ⟨?_, ?_⟩
  · have known : ctx.catalog.nameOf field language = other.catalog.nameOf field language :=
      (Index.Catalog.nameOf_eq faithful owned language).trans same.symm
    unfold name
    rw [known]
  · change ∀ entry ∈ [_], _
    rw [List.forall_mem_singleton]
    exact Index.Catalog.confirms_nameOf faithful owned language

/-- Two contexts that answer alike: they take the same fields for ids, and the fields of the first
have the same names in both, all of which are right. -/
structure AnswersAlike (ctx other : Context) : Prop where
  field : ∀ id, other.field id = ctx.field id
  name : ∀ field language, ctx.schema.Owns field →
    AsksAlike ctx.schema.Confirms (ctx.name field language) (other.name field language)
  foreign : other.schema.foreign = ctx.schema.foreign
  spatial : other.spatial = ctx.spatial

theorem IsFaithful.answersAlike (faithful : ctx.IsFaithful) : ctx.AnswersAlike ctx.anew where
  field _ := rfl
  name _ language owned := name_alike faithful owned
    (Index.Catalog.nameOf_eq (Index.Catalog.isFaithful_empty ctx.schema) owned language)
  foreign := rfl
  spatial := rfl

namespace AnswersAlike

variable {other : Context}

theorem distinctNames_alike (alike : ctx.AnswersAlike other) {field : Field}
    (owned : ctx.schema.Owns field) (languages : List LanguageId) (names : List String) :
    AsksAlike ctx.schema.Confirms (ctx.distinctNames field languages names)
      (other.distinctNames field languages names) := by
  induction languages generalizing names with
  | nil => exact .pure names
  | cons language rest ih => exact .bind (alike.name field language owned) fun _ _ => ih _

/-- Compiling a condition asks the same names, and yields the same, in contexts that answer alike.
-/
theorem condition_alike (alike : ctx.AnswersAlike other) (languages : List LanguageId)
    (c : Condition) :
    AsksAlike ctx.schema.Confirms (ctx.condition languages c) (other.condition languages c) := by
  unfold Context.condition
  rw [alike.field, alike.spatial]
  refine .bind (.ofExcept (ctx.field c.field)) fun field found => ?_
  have owned : ctx.schema.Owns field := owns_of_field found
  have plain := alike.name field .unspecified owned
  cases field.type
  case location =>
    refine .bind plain fun name _ => ?_
    cases ctx.spatial with
    | skip => exact .bind (.warn _) fun _ _ => .pure none
    | circles | other _ => exact .bind (.ofExcept _) fun _ _ => .pure _
  case text =>
    refine .ite (.throw _) ?_
    refine .bind (alike.distinctNames_alike owned languages []) fun _ _ => ?_
    exact .bind (.ofExcept _) fun _ _ => .pure _
  all_goals exact .bind plain fun _ _ => .bind (.ofExcept _) fun _ _ => .pure _

mutual

theorem item_alike (alike : ctx.AnswersAlike other) (languages : List LanguageId) (i : Item) :
    AsksAlike ctx.schema.Confirms (ctx.item languages i) (other.item languages i) := by
  cases i with
  | condition c =>
    rw [item, item]
    exact alike.condition_alike languages c
  | group conjunction members tags =>
    rw [item, item]
    refine .bind (.ofExcept (languageOverride members)) fun override _ => ?_
    exact .bind (items_alike alike (override.getD languages) members) fun _ _ => .pure _

theorem items_alike (alike : ctx.AnswersAlike other) (languages : List LanguageId)
    (is : List Item) :
    AsksAlike ctx.schema.Confirms (ctx.items languages is) (other.items languages is) := by
  cases is with
  | nil =>
    rw [items, items]
    exact .pure []
  | cons i rest =>
    rw [items, items]
    refine .bind (item_alike alike languages i) fun _ _ => ?_
    exact .bind (items_alike alike languages rest) fun _ _ => .pure _

end

/-- Compiling conditions does the same in contexts that answer alike, and asks for right names
only. -/
theorem conditions_alike (alike : ctx.AnswersAlike other) (languages : List LanguageId)
    (group : Group) :
    AsksAlike ctx.schema.Confirms (ctx.conditions languages group)
      (other.conditions languages group) := by
  unfold conditions
  rw [alike.foreign]
  refine .bind (.ofExcept (languageOverride group.members)) fun override _ => ?_
  refine .bind (items_alike alike (override.getD languages) group.members) fun _ _ => ?_
  refine .ite ?_ (.pure _)
  exact .bind (alike.condition_alike languages _) fun _ _ => .pure _

end AnswersAlike

/-- Compiling conditions does the same with a book of right names as with an empty one, and all
names that it asks for are right, also where it fails. -/
theorem conditions_alike (faithful : ctx.IsFaithful) (languages : List LanguageId) (group : Group) :
    AsksAlike ctx.schema.Confirms (ctx.conditions languages group)
      (ctx.anew.conditions languages group) :=
  faithful.answersAlike.conditions_alike languages group

end Context

end SearchCompiler.Compile
