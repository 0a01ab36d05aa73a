import SearchCompiler.Bounds
import SearchCompiler.Decimal.Binary
import SearchCompiler.Text.Hex
import SearchCompiler.Toml.Value

/-!
# Unquoted values

The values that are written without quotes or brackets: truth values, integers to four bases,
decimals, dates and times. Digits may be grouped by single underscores, each in front of a digit and
behind a digit or the sign. A number may be written in the right form and still have no value: it is
too large, or a group of its digits holds more than digits.
-/

namespace SearchCompiler.Toml

/-- Whether every underscore stands in front of a digit and behind another, of which the latest
character may be one. -/
def isGrouped (isDigit : Char → Bool) (behindDigit : Bool) : List Char → Bool
  | [] => true
  | c :: rest =>
    if c = '_' then behindDigit && (rest.head?.any isDigit) && isGrouped isDigit false rest
    else isGrouped isDigit (isDigit c) rest

/-- Drops the underscores between the groups of a number. -/
def joinGroups (cs : List Char) : List Char :=
  cs.filter (· != '_')

/-- An integer, if 128 bits can hold it. -/
def ofInteger (n : Int) : Toml :=
  if fits128 n then .integer n else .noValue

/-- Whether a number has a sign, whether that is a minus, and what follows it. -/
def takeSign : List Char → Bool × Bool × List Char
  | '-' :: rest => (true, true, rest)
  | '+' :: rest => (true, false, rest)
  | rest => (false, false, rest)

/-- Whether the digits of a number begin with a zero that does not stand alone. -/
def hasLeadingZero : List Char → Bool
  | '0' :: c :: _ => c.isDigit || c == '_'
  | _ => false

def isPowerMark (c : Char) : Bool :=
  c == 'e' || c == 'E'

/-- Reads the digits of an integer to a base, behind the mark of that base. -/
def based? (base : Nat) (cs : List Char) : Option Toml :=
  let isDigit := fun c => (Text.hexValue? c).any (· < base)
  if cs.all (fun c => isDigit c || c == '_') && isGrouped isDigit false cs then
    let digits := joinGroups cs
    some (if digits.isEmpty then .noValue
      else ofInteger (digits.foldl (fun n c => base * n + (Text.hexValue? c).getD 0) 0))
  else none

/-- Reads a decimal integer. What follows the first group of its digits is only told from a decimal
number and from digits that are grouped in the wrong way; when more than digits are left there is no
value. -/
def decimal? (cs : List Char) : Option Toml :=
  let (signed, negative, body) := takeSign cs
  let others := body.dropWhile Char.isDigit
  if body.isEmpty || hasLeadingZero body || others.head?.any (· != '_') ||
      others.any (fun c => c == ' ' || c == '.' || isPowerMark c) ||
      !isGrouped Text.isHexDigit signed body then none
  else
    let digits := joinGroups body
    if digits.all Char.isDigit then
      let n : Int := Decimal.digitsValue digits
      some (ofInteger (if negative then -n else n))
    else some .noValue

/-- Reads an integer. Only decimal ones may have a sign. -/
def integer? : List Char → Option Toml
  | '0' :: 'x' :: rest => based? 16 rest
  | '0' :: 'o' :: rest => based? 8 rest
  | '0' :: 'b' :: rest => based? 2 rest
  | cs => decimal? cs

/-- Decimal digits, of which there has to be one. -/
def digits? (cs : List Char) : Option (List Char) :=
  if cs.isEmpty || !cs.all Char.isDigit then none else some cs

/-- Reads a decimal number: a point or a power of ten or both behind a whole number. -/
def real? (cs : List Char) : Option Toml := do
  let (signed, negative, body) := takeSign cs
  let infinity := Float.ofBits
    (Decimal.Format.double.withSign negative Decimal.Format.double.infinity).toUInt64
  match body with
  | ['i', 'n', 'f'] => return .real infinity
  | ['n', 'a', 'n'] => return .real (0.0 / 0.0)
  | body =>
    if hasLeadingZero body || !isGrouped Char.isDigit signed body then none
    let number := joinGroups body
    let mantissa := number.takeWhile fun c => !isPowerMark c
    let power ← match number.dropWhile fun c => !isPowerMark c with
      | [] => some 0
      | _ :: rest =>
        let (_, negative, digits) := takeSign rest
        let n : Int := Decimal.digitsValue (← digits? digits)
        some (if negative then -n else n)
    let whole ← digits? (mantissa.takeWhile (· != '.'))
    let fraction ← match mantissa.dropWhile (· != '.') with
      | [] => some []
      | _ :: rest => digits? rest
    let value := Decimal.toDouble negative (Decimal.digitsValue (whole ++ fraction))
      (power - fraction.length)
    return if value.isFinite then .real value else .noValue

/-- Takes digits of a number of fixed length, and gives the number and what follows. -/
def fixedDigits? (count : Nat) (cs : List Char) : Option (Nat × List Char) :=
  let digits := cs.take count
  if digits.length = count ∧ digits.all Char.isDigit then
    some (Decimal.digitsValue digits, cs.drop count)
  else none

def expect? (c : Char) : List Char → Option (List Char)
  | d :: rest => if c = d then some rest else none
  | [] => none

/-- The number of days of a month of the proleptic Gregorian calendar. -/
def monthLength (year month : Nat) : Nat :=
  if month = 2 then
    if year % 4 = 0 ∧ (year % 100 ≠ 0 ∨ year % 400 = 0) then 29 else 28
  else if month = 4 ∨ month = 6 ∨ month = 9 ∨ month = 11 then 30
  else 31

def afterDate? (cs : List Char) : Option (List Char) := do
  let (year, cs) ← fixedDigits? 4 cs
  let cs ← expect? '-' cs
  let (month, cs) ← fixedDigits? 2 cs
  let cs ← expect? '-' cs
  let (day, cs) ← fixedDigits? 2 cs
  if 1 ≤ month ∧ month ≤ 12 ∧ 1 ≤ day ∧ day ≤ monthLength year month then some cs else none

def afterMinutes? (cs : List Char) : Option (List Char) := do
  let (hour, cs) ← fixedDigits? 2 cs
  let cs ← expect? ':' cs
  let (minute, cs) ← fixedDigits? 2 cs
  if hour ≤ 23 ∧ minute ≤ 59 then some cs else none

/-- What follows a time of day. Seconds and their fraction may be missing. -/
def afterTime? (cs : List Char) : Option (List Char) := do
  let cs ← afterMinutes? cs
  match cs with
  | ':' :: rest => do
    let (second, cs) ← fixedDigits? 2 rest
    if 60 < second then none
    match cs with
    | '.' :: rest =>
      if (rest.head?.map Char.isDigit).getD false then some (rest.dropWhile Char.isDigit) else none
    | cs => some cs
  | cs => some cs

/-- Whether a text is a distance from universal time, or empty. -/
def isOffset : List Char → Bool
  | [] => true
  | ['Z'] => true
  | ['z'] => true
  | '+' :: rest => afterMinutes? rest == some []
  | '-' :: rest => afterMinutes? rest == some []
  | _ => false

/-- Whether a text is a date, a time or both. -/
def isMoment (cs : List Char) : Bool :=
  match afterDate? cs with
  | some [] => true
  | some (mark :: rest) =>
    (mark == 'T' || mark == 't' || mark == ' ') &&
      (match afterTime? rest with
        | some offset => isOffset offset
        | none => false)
  | none => afterTime? cs == some []

def literal? (cs : List Char) : Option Toml :=
  match String.ofList cs with
  | "true" => some (.bool true)
  | "false" => some (.bool false)
  | _ =>
    match integer? cs with
    | some value => some value
    | none =>
      match real? cs with
      | some value => some value
      | none => if isMoment cs then some (.moment (String.ofList cs)) else none

end SearchCompiler.Toml
