import SearchCompiler.Name.Special

/-!
# Name books

A book remembers the name of every field and language that was asked for. A name that is in the
book is not computed again, so a book belongs to one set of fields.
-/

namespace SearchCompiler.Name

structure Entry where
  field : String
  language : LanguageId
  name : String
deriving DecidableEq, Repr

/-- The names that were asked for, latest first, each field and language once. -/
structure Book where
  entries : List Entry
deriving DecidableEq, Repr, Inhabited

namespace Book

def empty : Book := ⟨[]⟩

def size (book : Book) : Nat :=
  book.entries.length

/-- The remembered name of a field id in a language. -/
def find? (book : Book) (field : String) (language : LanguageId) : Option String :=
  (book.entries.find? fun e => e.field == field && e.language == language).map Entry.name

/-- Remembers an entry, unless there is one for its field and language. -/
def remember (book : Book) (entry : Entry) : Book :=
  match book.find? entry.field entry.language with
  | some _ => book
  | none => ⟨entry :: book.entries⟩

def rememberAll (book : Book) (entries : List Entry) : Book :=
  entries.foldl remember book

/-- The name of a field in a language: the remembered one, or else the computed one. -/
def nameOf (book : Book) (special : Special) (field : Field) (language : LanguageId) : String :=
  match book.find? field.id language with
  | some name => name
  | none => special.fieldName field language

end Book

end SearchCompiler.Name
