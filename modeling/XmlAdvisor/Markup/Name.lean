import XmlAdvisor.Text.Codes

/-!
# Names in markup

**Characters.**  A name begins with a character of `isNameStart` and goes on with characters of
`isNameChar`; both sets are tables of code point ranges.

**Qualified names** have an optional qualifier before a colon.  An empty qualifier counts as none,
so a name that is written with a leading colon is the name after it.
-/

namespace XmlAdvisor

/-- Where a name may begin: letters, the underscore, the colon and the letter blocks of Unicode. -/
def nameStartRanges : CodeRanges :=
  [(0x3a, 0x3a), (0x41, 0x5a), (0x5f, 0x5f), (0x61, 0x7a), (0xc0, 0xd6), (0xd8, 0xf6),
    (0xf8, 0x2ff), (0x370, 0x37d), (0x37f, 0x1fff), (0x200c, 0x200d), (0x2070, 0x218f),
    (0x2c00, 0x2fef), (0x3001, 0xd7ff), (0xf900, 0xfdcf), (0xfdf0, 0xfffd), (0x10000, 0xeffff)]

/-- What a name may contain besides the characters it may begin with. -/
def nameExtraRanges : CodeRanges :=
  [(0x2d, 0x2e), (0x30, 0x39), (0xb7, 0xb7), (0x300, 0x36f), (0x203f, 0x2040)]

/-- Whether a name may begin with this character. -/
def isNameStart (c : Char) : Bool :=
  inRanges nameStartRanges c

/-- Whether a name may contain this character. -/
def isNameChar (c : Char) : Bool :=
  isNameStart c || inRanges nameExtraRanges c

/-- The characters a document may contain: of those below the space only the blank ones, and
neither U+FFFE nor U+FFFF. -/
def isDocumentChar (c : Char) : Bool :=
  if c.toNat < 0x20 then c == '\t' || c == '\n' || c == '\r'
  else c.toNat != 0xfffe && c.toNat != 0xffff

/-- A name with an optional qualifier. -/
structure QualifiedName where
  qualifier : Option String
  localName : String
  deriving DecidableEq, Repr, Inhabited

/-- The qualifier that a text before the colon stands for: none if it is empty. -/
def qualifierOf (s : String) : Option String :=
  if s.isEmpty then none else some s

/-- A name as it is written. -/
def QualifiedName.text (n : QualifiedName) : String :=
  match n.qualifier with
  | some q => q ++ ":" ++ n.localName
  | none => n.localName

/-- The characters before and after the first colon; none without a colon. -/
def splitAtColon (cs : List Char) : Option (List Char × List Char) :=
  match cs.dropWhile (· != ':') with
  | [] => none
  | _ :: after => some (cs.takeWhile (· != ':'), after)

/-- The two parts of a written name around its first colon, the first of which may be empty. -/
def splitName (name : String) : Option (String × String) :=
  (splitAtColon name.toList).map fun (q, l) => (String.ofList q, String.ofList l)

/-- The part of a written name after its first colon, or all of it. -/
def localPart (name : String) : String :=
  match splitName name with
  | some (_, l) => l
  | none => name

/-- The part of a written name before its first colon. -/
def qualifierPart (name : String) : Option String :=
  (splitName name).map (·.1)

/-- The namespace that the qualifier `xml` always stands for. -/
def xmlNamespace : String :=
  "http://www.w3.org/XML/1998/namespace"

/-! ## How the two character sets relate -/

/-- A name may go on with whatever it may begin with. -/
theorem isNameChar_of_isNameStart {c : Char} (h : isNameStart c = true) : isNameChar c = true := by
  simp [isNameChar, h]

end XmlAdvisor
