import SearchCompiler.Text.Pieces

/-!
# Parse modes

How keys are combined with the fields they are searched in.
-/

namespace SearchCompiler.Keys

/-- How keys are combined with the fields they are searched in. -/
inductive Mode where
  /-- Every term is one bare term, expanded over the fields. -/
  | terms
  /-- Every term is a phrase in quotes. -/
  | phrase
  /-- The terms are handed to an inline query over all fields. -/
  | edismax
  /-- The keys are a query of their own and stand as they are. -/
  | direct
deriving DecidableEq, Repr, Inhabited

namespace Mode

def name : Mode → String
  | terms => "terms"
  | phrase => "phrase"
  | edismax => "edismax"
  | direct => "direct"

/-- Reads a name; `keys` is another name of the direct mode. -/
def ofName? : String → Option Mode
  | "terms" => some terms
  | "phrase" => some phrase
  | "edismax" => some edismax
  | "direct" | "keys" => some direct
  | _ => none

/-- Reads a name in letters of any case. -/
def parse (text : String) : Except String Mode :=
  match ofName? (Text.lowerAscii text) with
  | some mode => .ok mode
  | none =>
    .error ("unknown parse mode '" ++ text ++ "' (expected terms, phrase, edismax or direct)")

end Mode

end SearchCompiler.Keys
