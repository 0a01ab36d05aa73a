/-!
# Styled text

Text for a terminal that knows the common codes for bold, dim and colored letters.
-/

namespace SearchCompiler.Cli

/-- A text between a code and the code that ends all styles. -/
def styled (code : String) (text : String) : String :=
  "\x1b[" ++ code ++ "m" ++ text ++ "\x1b[0m"

def bold (text : String) : String := styled "1" text

def dim (text : String) : String := styled "2" text

def yellow (text : String) : String := styled "33" text

/-- Lines, each ended by a line feed. -/
def textOfLines (lines : List String) : String :=
  String.join (lines.map (· ++ "\n"))

end SearchCompiler.Cli
