import XmlAdvisor.Location.Url
import XmlAdvisor.Text.Lines
import XmlAdvisor.Tree.Build
import XmlAdvisor.Tree.Lookup

/-!
# Documents

A document is the tree of one version of a text, together with where it lives and the unit in which
its reader counts columns.  Places that an editor names are found here, and so are the positions
that are reported to it.
-/

namespace XmlAdvisor

/-- The name by which a column unit is agreed on. -/
def ColumnUnit.name : ColumnUnit → String
  | .utf8 => "utf-8"
  | .utf16 => "utf-16"
  | .utf32 => "utf-32"

/-- The column unit with the given name. -/
def ColumnUnit.named? (s : String) : Option ColumnUnit :=
  [.utf8, .utf16, .utf32].find? fun u => u.name = s

/-- One version of a document. -/
structure Document extends Tree where
  url : Url
  version : Int
  unit : ColumnUnit
  deriving Repr

namespace Document

/-- The document with the given text. -/
def parse (url : Url) (version : Int) (unit : ColumnUnit) (text : List Char) : Document :=
  { Tree.parse text with url, version, unit }

/-- The position of an offset. -/
def positionAt (d : Document) (offset : Nat) : Except PlaceError Position :=
  match positionOf d.unit d.text offset with
  | some p => .ok p
  | none => .error (.offset offset d.length)

/-- The offset of a position. -/
def offsetAt (d : Document) (p : Position) : Except PlaceError Nat :=
  match offsetOf d.unit d.text p with
  | some o => .ok o
  | none => .error (.line p.line (lines d.text).length)

/-- The range of a span.  Its start is looked at first. -/
def rangeAt (d : Document) (s : Span) : Except PlaceError Range := do
  return ⟨← d.positionAt s.start, ← d.positionAt s.stop⟩

/-- The span of a range.  Its start is looked at first. -/
def spanAt (d : Document) (r : Range) : Except PlaceError Span := do
  return ⟨← d.offsetAt r.start, ← d.offsetAt r.stop⟩

end Document

end XmlAdvisor
