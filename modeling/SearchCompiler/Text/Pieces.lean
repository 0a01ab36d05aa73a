/-!
# Pieces of a text

Searching, cutting and joining lists of characters. Every function is structural, so that a text
can be followed character by character.
-/

namespace SearchCompiler.Text

def occursIn (piece : List Char) : List Char → Bool
  | [] => piece.isEmpty
  | c :: rest => piece.isPrefixOf (c :: rest) || occursIn piece rest

def mentions (text piece : String) : Bool :=
  occursIn piece.toList text.toList

/-- Cuts a text at every occurrence of `mark`; a text without it is one piece. -/
def cutAt (mark : Char) : List Char → List (List Char)
  | [] => [[]]
  | c :: rest =>
    if c = mark then [] :: cutAt mark rest
    else match cutAt mark rest with
      | [] => [[c]]
      | piece :: others => (c :: piece) :: others

def joinWith (mark : List Char) : List (List Char) → List Char
  | [] => []
  | [piece] => piece
  | piece :: others => piece ++ mark ++ joinWith mark others

def joinTexts (mark : String) (pieces : List String) : String :=
  String.ofList (joinWith mark.toList (pieces.map String.toList))

/-- The characters of a text, `n` blanks long. -/
def blanks (n : Nat) : String :=
  String.ofList (List.replicate n ' ')

/-- The lower-case form of the ASCII letters of a text; other characters stay. -/
def lowerAscii (s : String) : String :=
  String.ofList (s.toList.map Char.toLower)

end SearchCompiler.Text
