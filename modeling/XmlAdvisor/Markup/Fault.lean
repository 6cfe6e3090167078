import XmlAdvisor.Text.Lines

/-!
# What can be wrong with markup

**Faults** are recorded by cause: which construct was being read, where it began, and what was found
in it.  Places are kept as offsets; a message shows them as a row and a column counted from one,
where only line feeds end a row (`rowColumn`).

**Wording** is written in one place, `Fault.message`, and needs the text only to turn offsets into
rows and columns.
-/

namespace XmlAdvisor

/-- The constructs of markup that can be malformed. -/
inductive Construct
  | declaration
  | comment
  | instruction
  | doctype
  | entity
  | element
  | attribute
  | cdata
  | text
  deriving DecidableEq, Repr

/-- What can go wrong inside a construct.  Offsets say where. -/
inductive Cause
  | endOfText
  | badName
  | badChar (found : Char) (offset : Nat)
  | expectedChars (expected : List Char) (found : Char) (offset : Nat)
  | expectedQuote (found : Char) (offset : Nat)
  | expectedSpace (found : Char) (offset : Nat)
  | expectedText (expected : List String) (offset : Nat)
  | badExternalId
  | dashesInComment
  | dashAtCommentEnd
  | sectionEndInText
  deriving DecidableEq, Repr

/-- Why reading markup stopped. -/
inductive Fault
  | unknownToken (offset : Nat)
  | invalid (what : Construct) (offset : Nat) (cause : Cause)
  deriving DecidableEq, Repr

/-- Where the construct at fault begins. -/
def Fault.offset : Fault → Nat
  | .unknownToken o => o
  | .invalid _ o _ => o

/-! ## Rows and columns -/

/-- The row and the column reached by reading `cs` from a given row and column. -/
def advanceRowColumn : List Char → Nat × Nat → Nat × Nat
  | [], p => p
  | c :: cs, (row, column) =>
    advanceRowColumn cs (if c == '\n' then (row + 1, 1) else (row, column + 1))

/-- The row and the column of an offset, both from one; only a line feed ends a row. -/
def rowColumn (text : List Char) (offset : Nat) : Nat × Nat :=
  advanceRowColumn (text.take offset) (1, 1)

/-- The offset that a row and a column stand for when the rows are taken for the lines of
`lines`: a row past the last line means the last line, a column past the end of its line means the
end of that line, its break included. -/
def offsetOfRowColumn (text : List Char) (row column : Nat) : Nat :=
  let ls := lines text
  let line := min (row - 1) (ls.length - 1)
  lineStart text line + min (column - 1) ((ls[line]?.map List.length).getD 0)

/-! ## Wording -/

/-- A row and a column, separated by a colon. -/
def showPlace (text : List Char) (offset : Nat) : String :=
  let (row, column) := rowColumn text offset
  s!"{row}:{column}"

/-- A character as found in a text: one that takes several bytes is shown by the first of them,
read as a code point. -/
def leadByte (c : Char) : Char :=
  let n := c.toNat
  if n < 0x80 then c
  else if n < 0x800 then Char.ofNat (0xc0 + n / 0x40)
  else if n < 0x10000 then Char.ofNat (0xe0 + n / 0x1000)
  else Char.ofNat (0xf0 + n / 0x40000)

/-- The hexadecimal digits of a number, in lower case. -/
def hexDigits (n : Nat) : String :=
  String.ofList (Nat.toDigits 16 n)

/-- A character that no document may contain, written with an escape. -/
def escapedChar (c : Char) : String :=
  if c.toNat = 0 then "\\0" else "\\u\x7b" ++ hexDigits c.toNat ++ "\x7d"

/-- A text between single quotes. -/
def quoted (s : String) : String :=
  "'" ++ s ++ "'"

def Construct.label : Construct → String
  | .declaration => "XML declaration"
  | .comment => "comment"
  | .instruction => "processing instruction"
  | .doctype => "DTD"
  | .entity => "DTD entity"
  | .element => "element"
  | .attribute => "attribute"
  | .cdata => "CDATA"
  | .text => "character data"

/-- The wording of a cause. -/
def Cause.message (text : List Char) : Cause → String
  | .endOfText => "unexpected end of stream"
  | .badName => "invalid name token"
  | .badChar c o =>
    "a non-XML character " ++ quoted (escapedChar c) ++ " found at " ++ showPlace text o
  | .expectedChars expected c o =>
    "expected " ++ ", ".intercalate (expected.map fun e => quoted e.toString) ++ " not "
      ++ quoted (leadByte c).toString ++ " at " ++ showPlace text o
  | .expectedQuote c o =>
    "expected quote mark not " ++ quoted (leadByte c).toString ++ " at " ++ showPlace text o
  | .expectedSpace c o =>
    "expected space not " ++ quoted (leadByte c).toString ++ " at " ++ showPlace text o
  | .expectedText expected o =>
    "expected " ++ ", ".intercalate (expected.map quoted) ++ " at " ++ showPlace text o
  | .badExternalId => "invalid ExternalID"
  | .dashesInComment => "'--' is not allowed in comments"
  | .dashAtCommentEnd => "comment cannot end with '-'"
  | .sectionEndInText => "']]>' is not allowed inside a character data"

/-- The wording of a fault. -/
def Fault.message (text : List Char) : Fault → String
  | .unknownToken o => "unknown token at " ++ showPlace text o
  | .invalid what o cause =>
    "invalid " ++ what.label ++ " at " ++ showPlace text o ++ " cause " ++ cause.message text

end XmlAdvisor
