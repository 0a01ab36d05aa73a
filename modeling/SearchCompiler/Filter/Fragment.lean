import SearchCompiler.Clause
import SearchCompiler.Filter.Encoding

/-!
# Fragments

A fragment is one filter query with the tags of the groups it stems from. Several fragments fold
into one under a conjunction.
-/

namespace SearchCompiler.Filter

/-- A filter query with its tags. -/
structure Fragment where
  clause : Clause
  tags : Text.TextSet
deriving Inhabited

namespace Fragment

def ofClause (clause : Clause) : Fragment := ⟨clause, .empty⟩

/-- A fragment of a text that is a query already. -/
def ofText (query : String) (tags : Text.TextSet) : Fragment := ⟨.raw query, tags⟩

def query (f : Fragment) : String := f.clause.render

def withTags (f : Fragment) (tags : Text.TextSet) : Fragment :=
  { f with tags := f.tags.union tags }

/-- The filter as it is sent: the tags, if there are any, and the query. -/
def render (f : Fragment) : String :=
  if f.tags.isEmpty then f.query
  else "\x7b!tag=" ++ Text.joinTexts "," f.tags.items ++ "\x7d" ++ f.query

/-- The clause of a fragment as one of several under a conjunction. Under AND it is required,
unless it has a sign of its own; under OR a clause with a sign is put into parentheses. -/
def memberClause (conjunction : Conjunction) (f : Fragment) : Clause :=
  match conjunction, f.clause.isSigned with
  | .and, true => f.clause
  | .and, false => f.clause.must
  | .or, true => .list [f.clause]
  | .or, false => f.clause

/-- The tags of all fragments and `tags`. -/
def allTags (tags : Text.TextSet) (fragments : List Fragment) : Text.TextSet :=
  fragments.foldl (fun acc f => acc.union f.tags) tags

/-- Folds fragments into one. A single fragment stays as it is apart from its tags; several are
put side by side, in parentheses unless this is the outermost fold. -/
def reduce (fragments : List Fragment) (conjunction : Conjunction) (tags : Text.TextSet)
    (outermost : Bool) : Option Fragment :=
  match fragments with
  | [] => none
  | [single] => some (single.withTags tags)
  | several =>
    let clauses := several.map (memberClause conjunction)
    some ⟨if outermost then .row clauses else .list clauses, allTags tags several⟩

def ofJson? (value : Json) : Option Fragment := do
  let r ← value.record? ["query", "tags"]
  return ofText (← r.required "query" Json.text?) (← r.withDefault "tags" .empty tagsOfJson?)

def toJson (f : Fragment) : Json :=
  .object (("query", .text f.query) :: tagsMember f.tags)

end Fragment

end SearchCompiler.Filter
