import SearchCompiler.Cli.Arguments
import SearchCompiler.Field.DataType
import SearchCompiler.Field.Language
import SearchCompiler.Keys.Mode

/-!
# Commands

What can be asked for on the command line, and how it is written there.
-/

namespace SearchCompiler.Cli

inductive Command where
  /-- Make a new configuration file. -/
  | init (global force : Bool)
  /-- Tell what is worth telling about the settings. -/
  | check
  /-- Show the settings. -/
  | config
  /-- List the fields with their backend names. -/
  | fields (languages : List LanguageId) (json : Bool)
  /-- Name one field. -/
  | fieldName (id : String) (type : DataType) (multi : Bool) (language : Option LanguageId)
  /-- Encode a name. -/
  | encode (name : String)
  /-- Decode a name. -/
  | decode (name : String)
  /-- Compile keys. -/
  | keys (input : String) (mode : Option Keys.Mode) (or : Bool) (fields : List String)
    (explain : Bool)
  /-- Compile a query. -/
  | compile (input : String) (json geofilt : Bool)
deriving Repr

namespace Command

def names : List String :=
  ["init", "check", "config", "fields", "field-name", "encode", "decode", "keys", "compile"]

/-- An option without a value. -/
def flag (name : String) : CommandOption := ⟨name, none, .flag, false⟩

/-- The options that every command has. -/
def sharedOptions : List CommandOption :=
  [⟨"verbose", some 'v', .flag, true⟩, ⟨"help", some 'h', .help, false⟩]

/-- The arguments in front of a command. -/
def outerGrammar : Grammar :=
  ⟨⟨"version", some 'V', .help, false⟩ :: sharedOptions, .command⟩

def isLanguage (text : String) : Bool :=
  (LanguageId.parse text).isOk

def grammar (name : String) : Grammar :=
  let (options, words) : List CommandOption × Words :=
    match name with
    | "init" => ([flag "global", flag "force"], .none)
    | "fields" => ([⟨"lang", some 'l', .value isLanguage, true⟩, flag "json"], .none)
    | "field-name" =>
      ([⟨"type", some 't', .value fun t => (DataType.parse t).isOk, false⟩, flag "multi",
        ⟨"lang", some 'l', .value isLanguage, false⟩], .one fun _ => true)
    | "encode" | "decode" => ([], .one fun _ => true)
    | "keys" =>
      ([⟨"mode", some 'm', .value fun m => (Keys.Mode.parse m).isOk, false⟩, flag "or",
        ⟨"field", some 'f', .value fun _ => true, true⟩, flag "explain"], .one fun _ => true)
    | "compile" => ([flag "json", flag "geofilt"], .one fun path => !path.toList.isEmpty)
    | _ => ([], .none)
  ⟨options ++ sharedOptions, words⟩

/-- The command with a name and arguments that its grammar has read. -/
def ofArguments? (name : String) (arguments : List Argument) : Option Command :=
  let has := fun option => Argument.has option arguments
  let values := fun option => Argument.values option arguments
  let word := (arguments.filterMap Argument.word?).head?
  let languages := (values "lang").filterMap fun l => (LanguageId.parse l).toOption
  match name with
  | "init" => some (.init (has "global") (has "force"))
  | "check" => some .check
  | "config" => some .config
  | "fields" => some (.fields languages (has "json"))
  | "field-name" => do
    let type ← (values "type").head?
    return .fieldName (← word) (← (DataType.parse type).toOption) (has "multi") languages.head?
  | "encode" => word.map .encode
  | "decode" => word.map .decode
  | "keys" => do
    let mode := (values "mode").head?.bind fun m => (Keys.Mode.parse m).toOption
    return .keys (← word) mode (has "or") (values "field") (has "explain")
  | "compile" => do return .compile (← word) (has "json") (has "geofilt")
  | _ => none

/-- Whether help is asked for in the right way: of the program or of one command. -/
def isHelpTopic : List String → Bool
  | [] => true
  | [topic] => topic == "help" || names.contains topic
  | _ => false

def read (arguments : List String) : Except Usage Command := do
  let (_, rest) ← readArguments outerGrammar [] arguments
  match rest with
  | [] => .error .refused
  | name :: rest =>
    if name = "help" then .error (if isHelpTopic rest then .asked else .refused)
    else if names.contains name then
      let (arguments, _) ← readArguments (grammar name) [] rest
      match ofArguments? name arguments with
      | some command => .ok command
      | none => .error .refused
    else .error .refused

/-- Whether a command needs the settings of the working directory. -/
def needsConfig : Command → Bool
  | .config | .fields _ _ | .keys _ _ _ _ _ | .compile _ _ _ => true
  | _ => false

end Command

end SearchCompiler.Cli
