import SearchCompiler.Text.Blank
import SearchCompiler.Keys.SyntaxError

/-!
# Tokens of keys

Typed keys are cut into words, quoted phrases, parentheses, a negating hyphen and the word `OR`.
A word runs up to the next blank, parenthesis or quote; a hyphen negates only at the start of a
token. The one thing that can go wrong is a phrase that does not end.
-/

namespace SearchCompiler.Keys

inductive Token where
  | term (text : String)
  /-- The content of a quoted phrase, blanks included. -/
  | phrase (text : String)
  | or
  | not
  | opening
  | closing
deriving DecidableEq, Repr

/-- A token with the byte offset of its first character. -/
structure Spanned where
  token : Token
  offset : Nat
deriving DecidableEq, Repr

/-- The bytes that characters take in an input. -/
def bytes (cs : List Char) : Nat :=
  cs.foldr (fun c n => c.utf8Size + n) 0

/-- Whether a character belongs to a word that has begun. -/
def inWord (c : Char) : Bool :=
  !(Text.isBlank c || c == '(' || c == ')' || c == '"')

/-- The token of a word: `OR` in capitals is the keyword. -/
def wordToken (word : List Char) : Token :=
  if word = ['O', 'R'] then .or else .term (String.ofList word)

/-- Cuts the rest of an input into tokens; the error is the offset of a quote that stays open. -/
def lexFrom (offset : Nat) : List Char → Except Nat (List Spanned)
  | [] => .ok []
  | c :: rest =>
    if Text.isBlank c then lexFrom (offset + c.utf8Size) rest
    else if c = '(' then (⟨.opening, offset⟩ :: ·) <$> lexFrom (offset + 1) rest
    else if c = ')' then (⟨.closing, offset⟩ :: ·) <$> lexFrom (offset + 1) rest
    else if c = '-' then (⟨.not, offset⟩ :: ·) <$> lexFrom (offset + 1) rest
    else if c = '"' then
      let content := rest.takeWhile (· != '"')
      match h : rest.dropWhile (· != '"') with
      | [] => .error offset
      | _ :: after =>
        (⟨.phrase (String.ofList content), offset⟩ :: ·) <$> lexFrom (offset + bytes content + 2) after
    else
      let word := c :: rest.takeWhile inWord
      (⟨wordToken word, offset⟩ :: ·) <$> lexFrom (offset + bytes word) (rest.dropWhile inWord)
termination_by cs => cs.length
decreasing_by
  all_goals simp only [List.length_cons]
  any_goals omega
  · have := (List.dropWhile_suffix (l := rest) (· != '"')).length_le
    rw [h, List.length_cons] at this
    omega
  · have := (List.dropWhile_suffix (l := rest) inWord).length_le
    omega

theorem lexFrom_nil (offset : Nat) : lexFrom offset [] = .ok [] := by
  unfold lexFrom
  rfl

/-- What one character contributes to the tokens of an input. -/
theorem lexFrom_cons (offset : Nat) (c : Char) (rest : List Char) :
    lexFrom offset (c :: rest) =
      if Text.isBlank c then lexFrom (offset + c.utf8Size) rest
      else if c = '(' then (⟨.opening, offset⟩ :: ·) <$> lexFrom (offset + 1) rest
      else if c = ')' then (⟨.closing, offset⟩ :: ·) <$> lexFrom (offset + 1) rest
      else if c = '-' then (⟨.not, offset⟩ :: ·) <$> lexFrom (offset + 1) rest
      else if c = '"' then
        match rest.dropWhile (· != '"') with
        | [] => .error offset
        | _ :: after =>
          (⟨.phrase (String.ofList (rest.takeWhile (· != '"'))), offset⟩ :: ·) <$>
            lexFrom (offset + bytes (rest.takeWhile (· != '"')) + 2) after
      else
        (⟨wordToken (c :: rest.takeWhile inWord), offset⟩ :: ·) <$>
          lexFrom (offset + bytes (c :: rest.takeWhile inWord)) (rest.dropWhile inWord) := by
  rw [lexFrom.eq_def]
  split <;> grind

/-- Cuts an input into tokens with their offsets. -/
def lex (input : String) : Except SyntaxError (List Spanned) :=
  match lexFrom 0 input.toList with
  | .ok tokens => .ok tokens
  | .error offset => .error (.ofFault .lexing .unclosedQuote offset input)

end SearchCompiler.Keys
