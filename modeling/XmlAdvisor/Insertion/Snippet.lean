/-!
# Texts to insert

**Pieces.**  A text to insert is made of pieces: markup, content, fields to fill in, and places
where the cursor may end up.  The same pieces can be written in two ways.

**Plain text** holds the default of each field and nothing for the cursor.

**Snippets** number the fields from one, in the order in which they stand, and mark the first place
of the cursor.  Characters that mean something in a snippet are escaped in contents and defaults;
markup stands as it is.
-/

namespace XmlAdvisor

/-- A piece of a text to insert. -/
inductive Piece
  | markup (s : String)
  | content (s : String)
  | field (default : String)
  | cursor
  deriving DecidableEq, Repr

/-- Whether a character means something in a snippet. -/
def isSnippetMark (c : Char) : Bool :=
  c == '$' || c == '\x7d' || c == '\\'

/-- Characters with a backslash before each that means something in a snippet. -/
def escapeSnippet : List Char → List Char
  | [] => []
  | c :: rest =>
    if isSnippetMark c then '\\' :: c :: escapeSnippet rest else c :: escapeSnippet rest

/-- A string as it is written inside a snippet. -/
def snippetEscaped (s : String) : String :=
  String.ofList (escapeSnippet s.toList)

/-- A piece as plain text. -/
def Piece.plainText : Piece → String
  | .markup s | .content s => s
  | .field default => default
  | .cursor => ""

/-- Pieces as plain text. -/
def plainText (pieces : List Piece) : String :=
  String.join (pieces.map Piece.plainText)

/-- The field with the given number, as it is written in a snippet. -/
def fieldText (number : Nat) (default : String) : String :=
  if default.isEmpty then "$" ++ toString number
  else "$\x7b" ++ toString number ++ ":" ++ snippetEscaped default ++ "\x7d"

/-- Pieces as the texts that make up a snippet, after `fields` fields. -/
def snippetTexts (fields : Nat) (cursorPlaced : Bool) : List Piece → List String
  | [] => []
  | .markup s :: rest => s :: snippetTexts fields cursorPlaced rest
  | .content s :: rest => snippetEscaped s :: snippetTexts fields cursorPlaced rest
  | .field default :: rest =>
    fieldText (fields + 1) default :: snippetTexts (fields + 1) cursorPlaced rest
  | .cursor :: rest =>
    if cursorPlaced then snippetTexts fields true rest
    else "$0" :: snippetTexts fields true rest

/-- Pieces as a snippet. -/
def snippetText (pieces : List Piece) : String :=
  String.join (snippetTexts 0 false pieces)

/-- Pieces as a snippet or as plain text. -/
def insertionText (asSnippet : Bool) (pieces : List Piece) : String :=
  if asSnippet then snippetText pieces else plainText pieces

end XmlAdvisor
