import SearchCompiler.Cli.Command
import SearchCompiler.Cli.Styled
import SearchCompiler.Cli.Table
import SearchCompiler.Config.Document
import SearchCompiler.Config.Source
import SearchCompiler.Config.Template
import SearchCompiler.Config.Warning
import SearchCompiler.Json.Reader
import SearchCompiler.Keys.Parser
import SearchCompiler.Request.Assemble

/-!
# Running commands

A command turns the files of a system and what is typed in into text and, for a new configuration
file, into changed files. Nothing else is looked at or changed.
-/

namespace SearchCompiler.Cli

open Files

/-- What a command may look at. -/
structure Environment where
  files : Tree
  /-- The working directory. -/
  directory : Path
  /-- The home directory, if there is one. -/
  home : Option Path
  /-- What is typed in. -/
  input : String

/-- What a command leaves. -/
structure Outcome where
  /-- Whether the command did what was asked for and found nothing to complain about. -/
  success : Bool
  output : String
  errors : String
  files : Tree
  warnings : List Compile.Warning

namespace Environment

def done (e : Environment) (lines : List String) : Outcome :=
  ⟨true, textOfLines lines, "", e.files, []⟩

/-- A command that fails with a message. -/
def failed (e : Environment) (message : String) : Outcome :=
  ⟨false, "", textOfLines ["error: " ++ message], e.files, []⟩

/-- A command that fails because of a text that is malformed inside: what is wrong is not told, and
the line of the message stays open. -/
def malformed (e : Environment) (message : String) : Outcome :=
  ⟨false, "", "error: " ++ message, e.files, []⟩

/-- A command that fails because settings cannot be loaded. -/
def unloadable (e : Environment) (context : String) : Config.LoadError → Outcome
  | .unreadable path reason => e.failed (context ++ (Config.LoadError.unreadable path reason).message)
  | .malformed path => e.malformed (context ++ (Config.LoadError.malformed path).message)

def startHint : List String :=
  ["", "Run " ++ bold "lucent init" ++ " to create a configuration file."]

/-- Makes a new configuration file, in the working directory or in the home directory. -/
def runInit (e : Environment) (global force : Bool) : Outcome :=
  let homeFile := e.home.map Config.fileIn
  let atHome := global || (homeFile.bind (·.parent?)).any (·.same e.directory)
  match if atHome then homeFile else some (Config.fileIn e.directory) with
  | none => e.failed "could not determine home directory"
  | some path =>
    if e.files.contains path && !force then
      { e.failed ("configuration file already exists: " ++ path.text) with
        errors := textOfLines ["error: configuration file already exists: " ++ path.text,
          "use --force to overwrite"] }
    else
      match e.files.write path (if atHome then Config.globalTemplate else Config.localTemplate) with
      | .error reason => e.failed ("failed to write " ++ path.text ++ ": " ++ reason.message)
      | .ok files =>
        { e.done ["Created " ++ path.text, "",
            "Uncomment the [field.<id>] sections and run " ++ bold "lucent check" ++
              " to verify them."] with files }

def sourceLine (s : Config.Source) : String :=
  let notes := (if s.kind = .global then ["global"] else []) ++ (if s.root then ["root"] else [])
  "   " ++ s.path.text ++
    if notes.isEmpty then "" else " " ++ dim ("(" ++ Text.joinTexts ", " notes ++ ")")

def indexLines (c : Config) : List String :=
  let schema := c.schema
  let languages := if c.search.languages.isEmpty then dim "(none)"
    else Text.joinTexts ", " (c.search.languages.map (·.text))
  [bold "Index:", "   index_id " ++ schema.scope.indexId, "   site hash " ++ schema.scope.siteHash] ++
    (if schema.foreign then ["   " ++ dim "(foreign schema: no scoping filters)"] else []) ++
    ["", bold "Fields:",
      "   " ++ toString c.fields.length ++ " defined, " ++ toString c.textFields.length ++
        " fulltext", "   languages " ++ languages, ""]

/-- The part of a report on what is worth telling. -/
def warningLines (warnings : List Config.Warning) : List String :=
  if warnings.isEmpty then ["No issues found."]
  else
    [bold ("Warnings (" ++ toString warnings.length ++ "):")] ++
      warnings.map (fun w => "   " ++ yellow w.message) ++ [""] ++
      (Config.hints warnings).map fun hint => dim ("Hint: " ++ hint)

/-- Reports on the settings. Warnings count as a failure. -/
def runCheck (e : Environment) : Outcome :=
  let sources := Config.discover e.files e.directory e.home
  if sources.isEmpty then e.done (dim "No configuration files found." :: startHint)
  else
    let report := [bold "Config files:"] ++ sources.map sourceLine ++ [""]
    match Config.loadFiles e.files (sources.map (·.path)) with
    | .error error => { e.unloadable "" error with output := textOfLines report }
    | .ok config =>
      { e.done (report ++ indexLines config ++ warningLines config.warnings) with
        success := config.warnings.isEmpty }

/-- A field with its backend names, each for a language. -/
structure FieldRow where
  field : Field
  names : List (LanguageId × String)

/-- The row of a field. Only text fields are named for languages. -/
def fieldRow (schema : Index.Schema) (languages : List LanguageId) (field : Field) : FieldRow :=
  let languages := if field.isText && !languages.isEmpty then languages else [.unspecified]
  ⟨field, languages.map fun l => (l, schema.special.fieldName field l)⟩

def FieldRow.toJson (r : FieldRow) : Json :=
  .object ([("id", .text r.field.id), ("type", .text r.field.type.name),
      ("multi", .bool (r.field.cardinality == .multi))] ++
    Json.member? "boost" .single r.field.boost ++
    [("names", .list (r.names.map fun (l, name) => Json.texts [l.text, name]))])

/-- The lines of a row in a table; only the first tells of the field. -/
def FieldRow.cells (r : FieldRow) : List (List String) :=
  let told := [r.field.id, r.field.type.name, if r.field.cardinality == .multi then "yes" else "",
    (r.field.boost.map Decimal.Style.plain.single).getD ""]
  match r.names with
  | [] => []
  | (l, name) :: rest =>
    (told ++ [l.text, name]) :: rest.map fun (l, name) => ["", "", "", "", l.text, name]

def runFields (e : Environment) (c : Config) (languages : List LanguageId) (json : Bool) : Outcome :=
  let schema := c.schema
  let rows := schema.fields.items.map
    (fieldRow schema (if languages.isEmpty then schema.languages else languages))
  if json then e.done [(Json.list (rows.map FieldRow.toJson)).pretty]
  else if rows.isEmpty then e.done (dim "No fields defined." :: startHint)
  else e.done (Table.lines ["Field", "Type", "Multi", "Boost", "Language", "Backend name"]
    (rows.flatMap FieldRow.cells))

/-- The query of keys, over fields that are given or else over those of the settings. -/
def keysQuery (c : Config) (keys : Keys.Expression) (mode : Keys.Mode) (fields : List String) :
    Except Compile.Error String :=
  if fields.isEmpty then
    let assembly : Request.Assembly := ⟨⟨.ofSchema c.schema, .skip⟩, c.search⟩
    let query := { Request.Query.empty with keys := some keys, mode := some mode, unscoped := true }
    (assembly.request query).outcome.map (·.query)
  else do
    let query ← (Keys.Flattening.mk (fields.map Target.ofText) mode).compile keys
    return (query.getD .everything).render

def runKeys (e : Environment) (c : Config) (input : String) (mode : Option Keys.Mode) (or : Bool)
    (fields : List String) (explain : Bool) : Outcome :=
  let mode := mode.getD c.search.mode
  match Keys.parse input mode (if or then .or else c.search.conjunction) with
  | .error error => e.failed error.display
  | .ok none => e.done [Clause.everything.render]
  | .ok (some keys) =>
    let told := if explain then
      [bold "Parsed keys:", keys.toJson.pretty, "", bold ("Query (" ++ mode.name ++ "):")] else []
    match keysQuery c keys mode fields with
    | .error error => { e.failed error.message with output := textOfLines told }
    | .ok query => e.done (told ++ [query])

/-- The text of a query: a file, or what is typed in. -/
def queryText (e : Environment) (argument : String) : Except AccessError String :=
  if (Path.ofText argument).same (.ofText "-") then .ok e.input
  else e.files.readFrom e.directory (.ofText argument)

def runCompile (e : Environment) (c : Config) (argument : String) (json geofilt : Bool) : Outcome :=
  match e.queryText argument with
  | .error reason => e.failed ("failed to read " ++ argument ++ ": " ++ reason.message)
  | .ok text =>
    match (Json.read? text).bind Request.Query.ofJson? with
    | none => e.malformed ("invalid query in " ++ argument)
    | some query =>
      let assembly : Request.Assembly :=
        ⟨⟨.ofSchema c.schema, if geofilt then .circles else .skip⟩, c.search⟩
      let result := assembly.request query
      let outcome := match result.outcome with
        | .error error => e.failed error.message
        | .ok request =>
          e.done (if json then [request.document]
            else request.parameters.map fun (name, value) => name ++ "=" ++ value)
      { outcome with warnings := result.warnings }

/-- Runs a command that needs no settings, or one with the settings it needs. -/
def runWith (e : Environment) (c : Config) : Command → Outcome
  | .init global force => e.runInit global force
  | .check => e.runCheck
  | .config => ⟨true, c.document, "", e.files, []⟩
  | .fields languages json => e.runFields c languages json
  | .fieldName id type multi language =>
    let field : Field := { Field.simple id type with cardinality := .ofMulti multi }
    e.done [Name.Special.standard.fieldName field (language.getD .unspecified)]
  | .encode name => e.done [Name.encode name]
  | .decode name => e.done [Name.decode name]
  | .keys input mode or fields explain => e.runKeys c input mode or fields explain
  | .compile argument json geofilt => e.runCompile c argument json geofilt

/-- Runs a command. Only commands that need the settings fail when these cannot be loaded. -/
def run (e : Environment) (command : Command) : Outcome :=
  if command.needsConfig then
    match Config.load e.files e.directory e.home with
    | .error error => e.unloadable "failed to load configuration: " error
    | .ok config => e.runWith config command
  else e.runWith .standard command

end Environment

end SearchCompiler.Cli
