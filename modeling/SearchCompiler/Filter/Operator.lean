/-!
# Operators

How a condition compares a field with its operand.
-/

namespace SearchCompiler.Filter

/-- How a condition compares a field with its operand. -/
inductive Operator where
  | eq
  | neq
  | lt
  | lte
  | gte
  | gt
  | between
  | notBetween
  | isIn
  | notIn
deriving DecidableEq, Repr, Inhabited

namespace Operator

def symbol : Operator → String
  | eq => "="
  | neq => "<>"
  | lt => "<"
  | lte => "<="
  | gte => ">="
  | gt => ">"
  | between => "BETWEEN"
  | notBetween => "NOT BETWEEN"
  | isIn => "IN"
  | notIn => "NOT IN"

/-- Reads a symbol or its name. -/
def ofName? : String → Option Operator
  | "=" | "eq" => some eq
  | "<>" | "neq" => some neq
  | "<" | "lt" => some lt
  | "<=" | "lte" => some lte
  | ">=" | "gte" => some gte
  | ">" | "gt" => some gt
  | "BETWEEN" | "between" => some between
  | "NOT BETWEEN" | "not_between" => some notBetween
  | "IN" | "in" => some isIn
  | "NOT IN" | "not_in" => some notIn
  | _ => none

/-- Whether the operator compares with one bound. -/
def isComparison : Operator → Bool
  | lt | lte | gte | gt => true
  | _ => false

/-- Whether the operator takes the two ends of a range. -/
def isRange : Operator → Bool
  | between | notBetween => true
  | _ => false

def isList : Operator → Bool
  | isIn | notIn => true
  | _ => false

end Operator

end SearchCompiler.Filter
