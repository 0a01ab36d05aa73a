import SearchCompiler.Field.DataType
import SearchCompiler.Field.Language
import SearchCompiler.Filter.Operator
import SearchCompiler.Keys.Mode
import SearchCompiler.Keys.SyntaxError

/-!
# Compile errors and warnings

Why a query cannot be compiled, and what is worth telling although it can.
-/

namespace SearchCompiler.Compile

/-- Why keys do not fit a parse mode. -/
inductive ModeFault where
  /-- A plain text outside the direct mode. -/
  | plainText
  /-- A group within a group in an inline query. -/
  | nestedGroup
deriving DecidableEq, Repr

def ModeFault.message : ModeFault → String
  | plainText => "plain key strings are only allowed in direct mode"
  | nestedGroup => "nested key groups cannot be expressed in edismax"

/-- Why an operand does not fit its operator. -/
inductive OperandFault where
  | notBoolean (text : String)
  | timestamp (seconds : Int)
  | notTwoValues
  | noValues
  | listForScalar
  | nullBound
  | noList
  | nullOnText
  | notDistance (text : String)
  | language (error : LanguageError)
deriving DecidableEq, Repr

def OperandFault.message : OperandFault → String
  | notBoolean text => "'" ++ text ++ "' is not a boolean"
  | timestamp seconds => "timestamp " ++ toString seconds ++ " is out of range"
  | notTwoValues => "expected exactly two non-NULL values"
  | noValues => "expected at least one value"
  | listForScalar => "expected a single value, got a list"
  | nullBound => "a range bound cannot be NULL"
  | noList => "expected a list of values"
  | nullOnText => "NULL markers are not supported on fulltext fields"
  | notDistance text => "expected \"lat,lon,km\", got \"" ++ text ++ "\""
  | language error => error.message

inductive Error where
  | unknownField (id : String)
  | missingLanguage (field : String)
  | incompatibleMode (mode : Keys.Mode) (fault : ModeFault)
  | unsupportedOperator (field : String) (type : DataType) (operator : Filter.Operator)
  | invalidOperand (field : String) (operator : Filter.Operator) (fault : OperandFault)
  | keys (error : Keys.SyntaxError)
deriving DecidableEq, Repr

def Error.message : Error → String
  | unknownField id => "unknown field: " ++ id
  | missingLanguage field =>
    "fulltext field '" ++ field ++ "' needs a language, but none is active"
  | incompatibleMode mode fault =>
    "keys cannot be compiled in " ++ mode.name ++ " parse mode: " ++ fault.message
  | unsupportedOperator field type operator =>
    "operator " ++ operator.symbol ++ " is not supported on " ++ type.name ++ " field '" ++ field ++ "'"
  | invalidOperand field operator fault =>
    "invalid value for " ++ operator.symbol ++ " on field '" ++ field ++ "': " ++ fault.message
  | keys error => error.display

/-- What is worth telling about a query that was compiled. -/
inductive Warning where
  /-- A condition on a location adds no filter. -/
  | locationSkipped (field : String) (operator : Filter.Operator)
  /-- A field that keys cannot be searched in was named for them. -/
  | notSearchable (field : String) (type : DataType)
deriving DecidableEq, Repr

def Warning.message : Warning → String
  | locationSkipped field operator =>
    "location condition skipped; enable a spatial builder to filter on it field=" ++ field ++
      " operator=" ++ operator.symbol
  | notSearchable field type =>
    "not a fulltext field, ignored for keys field=" ++ field ++ " data_type=" ++ type.name

end SearchCompiler.Compile
