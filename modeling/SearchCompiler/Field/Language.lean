import SearchCompiler.Json.Record

/-!
# Language ids

A language is an opaque token of ASCII letters, digits and hyphens. The reserved token `und` stands
for no particular language. Neither the underscore nor the semicolon can occur in a token, so a
token keeps apart from what a field name puts around it.
-/

namespace SearchCompiler

def isLanguageChar (c : Char) : Bool :=
  c.isAlphanum || c == '-'

/-- Why a text is no language id. -/
inductive LanguageError where
  | empty
  | reserved (id : String) (char : Char)
deriving DecidableEq, Repr

def LanguageError.message : LanguageError → String
  | empty => "language id must not be empty"
  | reserved id char =>
    "language id '" ++ id ++ "' contains reserved character '" ++ String.singleton char ++ "'"

structure LanguageId where
  text : String
  nonempty : text.toList ≠ []
  plain : text.toList.all isLanguageChar = true
deriving DecidableEq, Repr

namespace LanguageId

/-- The reserved id of no particular language. -/
def unspecified : LanguageId := ⟨"und", by decide, by decide⟩

instance : Inhabited LanguageId := ⟨unspecified⟩

def parse (text : String) : Except LanguageError LanguageId :=
  if hempty : text.toList = [] then .error .empty
  else if hplain : text.toList.all isLanguageChar = true then .ok ⟨text, hempty, hplain⟩
  else .error (.reserved text ((text.toList.find? fun c => !isLanguageChar c).getD ' '))

theorem parse_text (language : LanguageId) : parse language.text = .ok language := by
  rw [parse, dif_neg language.nonempty, dif_pos language.plain]

def ofJson? (value : Json) : Option LanguageId :=
  value.text?.bind fun text => (parse text).toOption

def toJson (language : LanguageId) : Json :=
  .text language.text

end LanguageId

end SearchCompiler
