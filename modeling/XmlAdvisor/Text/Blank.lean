/-!
# Blank characters

**Two sets.**  Markup knows four blank characters (`isXmlSpace`), and they are what separates names,
attributes and declarations.  Values read out of a document are trimmed of every character with the
Unicode property `White_Space` (`isBlank`), which is a larger set.

**Trimming** keeps the inside of a text as it is and drops blanks at its two ends.
-/

namespace XmlAdvisor

/-- The blank characters of XML markup: space, tab, carriage return and line feed. -/
def isXmlSpace (c : Char) : Bool :=
  c == ' ' || c == '\t' || c == '\r' || c == '\n'

/-- The characters with the Unicode property `White_Space`. -/
def isBlank (c : Char) : Bool :=
  let n := c.toNat
  (0x09 ≤ n && n ≤ 0x0d) || n == 0x20 || n == 0x85 || n == 0xa0 || n == 0x1680
    || (0x2000 ≤ n && n ≤ 0x200a) || n == 0x2028 || n == 0x2029 || n == 0x202f || n == 0x205f
    || n == 0x3000

/-- A text without the blanks at its start. -/
def trimStart (cs : List Char) : List Char :=
  cs.dropWhile isBlank

/-- A text without the blanks at its end. -/
def trimEnd (cs : List Char) : List Char :=
  (cs.reverse.dropWhile isBlank).reverse

/-- A text without the blanks at its two ends. -/
def trim (cs : List Char) : List Char :=
  trimEnd (trimStart cs)

/-- A string without the blanks at its two ends. -/
def trimmed (s : String) : String :=
  String.ofList (trim s.toList)

/-- Whether a string holds nothing but the blank characters of markup. -/
def isAllXmlSpace (s : String) : Bool :=
  s.toList.all isXmlSpace

/-! ## How the two sets relate -/

/-- What separates markup is blank. -/
theorem isBlank_of_isXmlSpace {c : Char} (h : isXmlSpace c = true) : isBlank c = true := by
  simp only [isXmlSpace, Bool.or_eq_true, beq_iff_eq] at h
  rcases h with ((rfl | rfl) | rfl) | rfl <;> rfl

end XmlAdvisor
