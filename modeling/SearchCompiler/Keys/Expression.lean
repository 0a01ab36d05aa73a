import SearchCompiler.Conjunction
import SearchCompiler.Text.Blank
import SearchCompiler.Text.Quoted

/-!
# Key expressions

Keys are what a user types into a search box, after reading: terms, and groups of keys that share
a conjunction and may be negated.
-/

namespace SearchCompiler.Keys

inductive Expression where
  /-- A literal term, or a whole query in the direct mode. -/
  | term (text : String)
  /-- A group. When `escaped`, its terms are already escaped and stand as they are. -/
  | group (conjunction : Conjunction) (negated escaped : Bool) (children : List Expression)
deriving Repr, Inhabited

namespace Expression

/-- A group of plain terms. -/
def terms (conjunction : Conjunction) (texts : List String) : Expression :=
  .group conjunction false false (texts.map .term)

/-- The opposite of an expression. A term is put into a group to be negated. -/
def negate : Expression → Expression
  | .group conjunction negated escaped children => .group conjunction (!negated) escaped children
  | .term text => .group .and true false [.term text]

mutual

/-- Whether an expression holds no term but blank ones. -/
def isBlank : Expression → Bool
  | .term text => Text.isBlankText text
  | .group _ _ _ children => areBlank children

def areBlank : List Expression → Bool
  | [] => true
  | child :: rest => child.isBlank && areBlank rest

end

mutual

/-- Equality of expressions, part by part. -/
def same : Expression → Expression → Bool
  | .term a, .term b => a == b
  | .group c n e xs, .group c' n' e' ys => c == c' && n == n' && e == e' && sameAll xs ys
  | _, _ => false

def sameAll : List Expression → List Expression → Bool
  | [], [] => true
  | x :: xs, y :: ys => x.same y && sameAll xs ys
  | _, _ => false

end

instance : BEq Expression := ⟨same⟩

def heading (conjunction : Conjunction) (negated escaped : Bool) : String :=
  conjunction.name ++ (if negated then " NOT" else "") ++ (if escaped then " escaped" else "")

mutual

/-- The lines of an outline, one for every term and group, indented by their level. -/
def outlineAt (level : Nat) : Expression → List String
  | .term text => [Text.blanks (2 * level) ++ "Term(" ++ Text.shown text ++ ")"]
  | .group conjunction negated escaped children =>
    (Text.blanks (2 * level) ++ heading conjunction negated escaped) ::
      outlines (level + 1) children

def outlines (level : Nat) : List Expression → List String
  | [] => []
  | child :: rest => child.outlineAt level ++ outlines level rest

end

/-- The outline of an expression, every line ended by a line feed. -/
def outline (e : Expression) : String :=
  String.join ((e.outlineAt 0).map (· ++ "\n"))

end Expression

end SearchCompiler.Keys
