/-!
# Lines, columns and offsets

**Offsets** count characters from the start of a text.  **Positions** are what an editor speaks:
a line and a column, both from zero, where a column counts units of a chosen size.

**Breaks.**  A line ends after a line feed, a vertical tab, a form feed, a carriage return (which
takes a following line feed with it), U+0085, U+2028 or U+2029.  `lines` cuts a text after each
break, so that the lines joined again are the text, and a text with `n` breaks has `n + 1` lines.

**Two directions.**  `positionOf` finds the line that an offset falls into and counts the units
before it there; `offsetOf` walks along a line until the asked column is reached, and stays before
the last character of the break when the column lies past the end of the line.
-/

namespace XmlAdvisor

/-- The unit in which columns are counted. -/
inductive ColumnUnit
  | utf8
  | utf16
  | utf32
  deriving DecidableEq, Repr, Inhabited

/-- The number of units a character takes. -/
def ColumnUnit.width : ColumnUnit → Char → Nat
  | .utf8, c => c.utf8Size
  | .utf16, c => if c.toNat < 0x10000 then 1 else 2
  | .utf32, _ => 1

/-- The number of units a run of characters takes. -/
def ColumnUnit.measure (unit : ColumnUnit) (cs : List Char) : Nat :=
  (cs.map unit.width).foldr (· + ·) 0

/-- A place in a text as a line and a column on it, both counted from zero. -/
structure Position where
  line : Nat
  column : Nat
  deriving DecidableEq, Repr, Inhabited

/-- A stretch of a text between two positions. -/
structure Range where
  start : Position
  stop : Position
  deriving DecidableEq, Repr, Inhabited

/-- A stretch of a text between two offsets; the character at `stop` is not part of it. -/
structure Span where
  start : Nat
  stop : Nat
  deriving DecidableEq, Repr, Inhabited

/-- Positions are ordered by line, then by column. -/
def Position.before (p q : Position) : Bool :=
  p.line < q.line || (p.line == q.line && p.column < q.column)

/-! ## Cutting a text into lines -/

/-- The characters that end a line. -/
def isLineBreak (c : Char) : Bool :=
  c == '\n' || c == '\x0b' || c == '\x0c' || c == '\r' || c == '\u0085' || c == '\u2028'
    || c == '\u2029'

/-- The lines of a text, each with its break.  There is always at least one. -/
def lines : List Char → List (List Char)
  | [] => [[]]
  | '\r' :: '\n' :: rest => ['\r', '\n'] :: lines rest
  | c :: rest =>
    if isLineBreak c then
      [c] :: lines rest
    else
      match lines rest with
      | [] => [[c]]
      | line :: more => (c :: line) :: more

/-- Nothing is lost by cutting: the lines joined are the text. -/
theorem flatten_lines (text : List Char) : (lines text).flatten = text := by
  fun_induction lines text <;> simp_all

/-- A text has at least one line. -/
theorem lines_ne_nil (text : List Char) : lines text ≠ [] := by
  fun_induction lines text <;> simp_all

/-- The offset at which line `n` starts. -/
def lineStart (text : List Char) (n : Nat) : Nat :=
  (((lines text).take n).map List.length).foldr (· + ·) 0

/-! ## From offsets to positions -/

/-- The position of an offset among lines of which the first has number `line`.  An offset at the
end of a line belongs to the next line, if there is one. -/
def positionAmong (unit : ColumnUnit) : Nat → List (List Char) → Nat → Option Position
  | _, [], _ => none
  | line, [last], offset =>
    if offset ≤ last.length then some ⟨line, unit.measure (last.take offset)⟩ else none
  | line, head :: more, offset =>
    if offset < head.length then some ⟨line, unit.measure (head.take offset)⟩
    else positionAmong unit (line + 1) more (offset - head.length)

/-- The position of an offset, if the offset is not past the end of the text. -/
def positionOf (unit : ColumnUnit) (text : List Char) (offset : Nat) : Option Position :=
  positionAmong unit 0 (lines text) offset

/-! ## From positions to offsets -/

/-- The characters of a line that a column may stand before or after: all but the last character
of its break. -/
def addressable (line : List Char) : List Char :=
  match line.getLast? with
  | some c => if isLineBreak c then line.dropLast else line
  | none => line

/-- How many characters lie before the first place on the line whose column is at least `target`. -/
def ColumnUnit.reach (unit : ColumnUnit) : List Char → Nat → Nat
  | [], _ => 0
  | c :: cs, target => if target = 0 then 0 else 1 + unit.reach cs (target - unit.width c)

/-- The offset of a position, if its line exists. -/
def offsetOf (unit : ColumnUnit) (text : List Char) (p : Position) : Option Nat :=
  (lines text)[p.line]?.map fun line =>
    lineStart text p.line + unit.reach (addressable line) p.column

/-! ## Places outside a text -/

/-- Why a place cannot be found in a text. -/
inductive PlaceError
  | offset (offset length : Nat)
  | line (line lines : Nat)
  deriving DecidableEq, Repr

/-- The wording of a place error. -/
def PlaceError.message : PlaceError → String
  | .offset o n => s!"offset {o} is outside the document (length {n})"
  | .line l n => s!"line {l} is outside the document ({n} lines)"

/-- The characters between two offsets, whichever of them comes first. -/
def sliceChars (text : List Char) (a b : Nat) : List Char :=
  (text.drop (min a b)).take (max a b - min a b)

/-- The text between two offsets, in either order.  The first offset is looked at first. -/
def slice (text : List Char) (a b : Nat) : Except PlaceError String :=
  if a > text.length then .error (.offset a text.length)
  else if b > text.length then .error (.offset b text.length)
  else .ok (String.ofList (sliceChars text a b))

/-- The text that a span covers. -/
def Span.slice (span : Span) (text : List Char) : String :=
  String.ofList (sliceChars text span.start span.stop)

end XmlAdvisor
