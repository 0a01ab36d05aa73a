/-!
# Command line arguments

Arguments are options and words. An option has a long name and may have a letter; its value stands
behind an equals sign, behind the letter, or in the next argument, where it must not look like an
option. Behind `--` everything is a word. Reading ends at the first fault, or as soon as help is
asked for.
-/

namespace SearchCompiler.Cli

/-- Why arguments are not a command. -/
inductive Usage where
  /-- Help or the version is asked for. -/
  | asked
  /-- The arguments are refused. -/
  | refused
deriving DecidableEq, Repr

/-- What an option does. -/
inductive OptionKind where
  /-- It is there or not. -/
  | flag
  /-- It takes a value that passes a test. -/
  | value (accepts : String → Bool)
  /-- It asks for help. -/
  | help

structure CommandOption where
  name : String
  letter : Option Char
  kind : OptionKind
  /-- Whether it may be given more than once. -/
  many : Bool

/-- What the words of a command are. -/
inductive Words where
  /-- There are none. -/
  | none
  /-- There is one that passes a test. -/
  | one (accepts : String → Bool)
  /-- The first names a command, to which all that follows belongs. -/
  | command

structure Grammar where
  options : List CommandOption
  words : Words

/-- An argument after reading. A flag has an empty value. -/
inductive Argument where
  | option (name value : String)
  | word (text : String)
deriving DecidableEq, Repr

namespace Argument

def isOption (name : String) : Argument → Bool
  | .option n _ => n == name
  | .word _ => false

def word? : Argument → Option String
  | .option _ _ => none
  | .word text => some text

def values (name : String) (arguments : List Argument) : List String :=
  arguments.filterMap fun
    | .option n value => if n == name then some value else none
    | .word _ => none

def has (name : String) (arguments : List Argument) : Bool :=
  arguments.any (isOption name)

end Argument

def addOption (seen : List Argument) (o : CommandOption) (value : String) :
    Except Usage (List Argument) :=
  let accepted := match o.kind with
    | .value accepts => accepts value
    | _ => true
  if accepted && (o.many || !Argument.has o.name seen) then .ok (seen ++ [.option o.name value])
  else .error .refused

def addWord (g : Grammar) (seen : List Argument) (text : String) : Except Usage (List Argument) :=
  match g.words with
  | .one accepts =>
    if accepts text && (seen.filterMap Argument.word?).isEmpty then .ok (seen ++ [.word text])
    else .error .refused
  | _ => .error .refused

/-- Reads letters behind one hyphen. The last may be an option that waits for its value. -/
def readLetters (g : Grammar) (seen : List Argument) :
    List Char → Except Usage (List Argument × Option CommandOption)
  | [] => .ok (seen, none)
  | letter :: rest =>
    match g.options.find? fun o => o.letter == some letter with
    | none => .error .refused
    | some o =>
      match o.kind with
      | .help => .error .asked
      | .flag => do readLetters g (← addOption seen o "") rest
      | .value _ =>
        match rest with
        | [] => .ok (seen, some o)
        | '=' :: value => do return (← addOption seen o (String.ofList value), none)
        | value => do return (← addOption seen o (String.ofList value), none)

/-- Reads the name behind two hyphens, and the value behind an equals sign. -/
def readLong (g : Grammar) (seen : List Argument) (body : List Char) :
    Except Usage (List Argument × Option CommandOption) :=
  let name := String.ofList (body.takeWhile (· != '='))
  match g.options.find? fun o => o.name == name with
  | none => .error .refused
  | some o =>
    match o.kind, body.dropWhile (· != '=') with
    | .help, [] => .error .asked
    | .flag, [] => do return (← addOption seen o "", none)
    | .value _, [] => .ok (seen, some o)
    | .value _, _ :: value => do return (← addOption seen o (String.ofList value), none)
    | _, _ => .error .refused

/-- Whether an argument cannot be an option. -/
def isPlainArgument (text : String) : Bool :=
  match text.toList with
  | '-' :: _ :: _ => false
  | _ => true

/-- Reads arguments: what was read, and what belongs to a command that a word names. -/
def readArguments (g : Grammar) (seen : List Argument) :
    List String → Except Usage (List Argument × List String)
  | [] => .ok (seen, [])
  | argument :: rest =>
    match argument.toList with
    | ['-', '-'] => do return (← rest.foldlM (addWord g) seen, [])
    | '-' :: c :: body => do
      let (seen, waiting) ← if c = '-' then readLong g seen body else readLetters g seen (c :: body)
      match waiting, rest with
      | none, rest => readArguments g seen rest
      | some o, value :: rest =>
        if isPlainArgument value then do readArguments g (← addOption seen o value) rest
        else .error .refused
      | some _, [] => .error .refused
    | _ =>
      match g.words with
      | .command => .ok (seen, argument :: rest)
      | _ => do readArguments g (← addWord g seen argument) rest

end SearchCompiler.Cli
