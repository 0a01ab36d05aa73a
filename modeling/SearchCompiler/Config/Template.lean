/-!
# Templates

New configuration files: examples of all settings, every one of them commented out.
-/

namespace SearchCompiler.Config

/-- Comments out a line, unless it is blank or a comment already. -/
def commentLine (line : String) : String :=
  if line.toList.isEmpty || line.toList.head? == some '#' then line ++ "\n" else "# " ++ line ++ "\n"

def commented (lines : List String) : String :=
  String.join (lines.map commentLine)

/-- The lines of a file for a project. -/
def localLines : List String := [
  "# lucent configuration",
  "#",
  "# Settings in this file apply to the directory it lives in and all",
  "# directories below it. Closer files win over files further up the tree,",
  "# and all of them win over ~/.lucent.toml.",
  "",
  "# Stop looking for configuration in parent directories and ~/.lucent.toml.",
  "root = false",
  "",
  "[backend]",
  "# Site name the scoping hash is derived from.",
  "site_name = \"example.org\"",
  "# Index id every document is stored under.",
  "index_id = \"content\"",
  "# Set to true when querying a schema that was not created by lucent.",
  "# Index and site scoping and the language filter are then skipped.",
  "foreign_schema = false",
  "",
  "[search]",
  "# How user keys are parsed: terms, phrase, edismax or direct.",
  "parse_mode = \"terms\"",
  "# Conjunction between adjacent keys: AND or OR.",
  "conjunction = \"AND\"",
  "# Languages searched when a query names none.",
  "languages = [\"en\"]",
  "# Rows per request.",
  "limit = 10",
  "",
  "# One table per indexed field. Types: string, text, integer, decimal,",
  "# boolean, date, date_range, location.",
  "[field.title]",
  "type = \"text\"",
  "boost = 5.0",
  "",
  "[field.body]",
  "type = \"text\"",
  "",
  "[field.type]",
  "type = \"string\"",
  "datasource = \"entity:node\"",
  "",
  "[field.tags]",
  "type = \"integer\"",
  "multi = true",
  "",
  "[field.created]",
  "type = \"date\""]

/-- The lines of a file for the home directory. -/
def globalLines : List String := [
  "# Global lucent configuration (~/.lucent.toml)",
  "#",
  "# Lowest precedence: any .lucent.toml between the working directory and",
  "# the filesystem root overrides these values.",
  "",
  "[backend]",
  "# Backend field holding the item id.",
  "id_field = \"ss_search_api_id\"",
  "# Backend field holding the item language.",
  "language_field = \"ss_search_api_language\"",
  "",
  "[search]",
  "parse_mode = \"terms\"",
  "conjunction = \"AND\"",
  "languages = \"en\"",
  "limit = 10"]

def localTemplate : String := commented localLines

def globalTemplate : String := commented globalLines

end SearchCompiler.Config
