import SearchCompiler.Text.Pieces

/-!
# Conjunctions

How the members of a group combine, in keys and in filters.
-/

namespace SearchCompiler

/-- How the members of a group combine: all of them, or at least one. -/
inductive Conjunction where
  | and
  | or
deriving DecidableEq, Repr, Inhabited

namespace Conjunction

def name : Conjunction → String
  | and => "AND"
  | or => "OR"

/-- Reads a name as it is written in documents: all letters of one case. -/
def ofName? : String → Option Conjunction
  | "AND" | "and" => some and
  | "OR" | "or" => some or
  | _ => none

/-- Reads a name in letters of any case. -/
def parse (text : String) : Except String Conjunction :=
  match Text.lowerAscii text with
  | "and" => .ok and
  | "or" => .ok or
  | _ => .error ("unknown conjunction '" ++ text ++ "' (expected AND or OR)")

end Conjunction

end SearchCompiler
