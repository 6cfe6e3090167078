import Mathlib.Computability.Language
import Mathlib.Tactic.Lemma
import Mathlib.Tactic.SplitIfs
import XmlAdvisor.Dtd.Read
import XmlAdvisor.Markup.Name

/-!
# How a document type definition is written

The grammar of element and attribute list declarations, as languages over characters.  Each function
below is a production: to a part of a declaration it gives the texts that the part may be written
with, with white space of any kind and length wherever there may or must be some.

* `Spelling` — fixed texts, white space, names, quoted values, and lists with bars.
* `Particle.spellings`, `ContentSpec.spellings`, `DtdAttribute.spellings` — parts of a declaration.
* `DtdPiece.spellings`, `definitionSpellings` — declarations, and definitions made of them.

**Names** are names of markup without white space in them.  The only character that could stand in
a name and is white space at the same time is U+1680.
-/

namespace XmlAdvisor

open scoped Computability

/-! ## Parts of any declaration -/

namespace Spelling

/-- A fixed text. -/
def text (s : String) : Language Char :=
  {s.toList}

/-- White space that may be missing. -/
def blanks : Language Char :=
  {w | ∀ c ∈ w, isXmlSpace c = true}

/-- White space that must be there. -/
def someBlanks : Language Char :=
  {w | w ≠ [] ∧ ∀ c ∈ w, isXmlSpace c = true}

/-- Whether characters are a name token: some characters of names, and no white space. -/
def isNameToken (cs : List Char) : Bool :=
  !cs.isEmpty && cs.all fun c => isNameChar c && !isBlank c

/-- A name token, which may begin with any character of names. -/
def nameToken (n : String) : Language Char :=
  {w | w = n.toList ∧ isNameToken w = true}

/-- A name. -/
def fullName (n : String) : Language Char :=
  {w | w ∈ nameToken n ∧ w.head?.all isNameStart = true}

/-- A value between quotation marks of either kind, which does not hold its own mark. -/
def quotedValue (value : String) : Language Char :=
  {w | ∃ mark, (mark = '"' ∨ mark = '\'') ∧ mark ∉ value.toList ∧
    w = mark :: (value.toList ++ [mark])}

/-- Names with bars between them, and the closing parenthesis. -/
def barred (item : String → Language Char) : List String → Language Char
  | [] => 0
  | [n] => blanks * (item n * (blanks * text ")"))
  | n :: more => blanks * (item n * (blanks * (text "|" * barred item more)))

/-- Names with a bar before each of them, the closing parenthesis, and what stands behind it. -/
def afterBars (ending : Language Char) : List String → Language Char
  | [] => blanks * (text ")" * ending)
  | n :: more => blanks * (text "|" * (blanks * (fullName n * afterBars ending more)))

end Spelling

open Spelling

/-! ## The content of an element -/

def Occurrence.spelling : Occurrence → Language Char
  | .once => 1
  | .optional => text "?"
  | .zeroOrMore => text "*"
  | .oneOrMore => text "+"

namespace Particle

mutual
/-- How a particle is written.  A sequence has members, and a choice has two at least. -/
def spellings : Particle → Language Char
  | .name n o => fullName n * o.spelling
  | .sequence members o => text "(" * (groupSpellings "," members * o.spelling)
  | .choice members o =>
    if 2 ≤ members.length then text "(" * (groupSpellings "|" members * o.spelling) else 0

/-- How the members of a group are written, with the closing parenthesis. -/
def groupSpellings (sep : String) : List Particle → Language Char
  | [] => 0
  | p :: more => (blanks * spellings p) * moreSpellings sep more

/-- How the members after the first are written, with the closing parenthesis. -/
def moreSpellings (sep : String) : List Particle → Language Char
  | [] => blanks * text ")"
  | p :: more => blanks * (text sep * ((blanks * spellings p) * moreSpellings sep more))
end

end Particle

/-- How the content of an element is written.  Content of elements alone is a group. -/
def ContentSpec.spellings : ContentSpec → Language Char
  | .empty => text "EMPTY"
  | .any => text "ANY"
  | .mixed names =>
    -- without names, the star may be missing
    let star := if names.isEmpty then text "*" + 1 else text "*"
    text "(" * (blanks * (text "#PCDATA" * afterBars star names))
  | .children (.name ..) => 0
  | .children p => p.spellings

/-! ## Attributes -/

def AttributeType.spellings : AttributeType → Language Char
  | .cdata => text "CDATA"
  | .id => text "ID"
  | .idref => text "IDREF"
  | .idrefs => text "IDREFS"
  | .entity => text "ENTITY"
  | .entities => text "ENTITIES"
  | .nmtoken => text "NMTOKEN"
  | .nmtokens => text "NMTOKENS"
  | .notations names => text "NOTATION" * (someBlanks * (text "(" * barred fullName names))
  | .enumeration tokens => text "(" * barred nameToken tokens

def DefaultDecl.spellings : DefaultDecl → Language Char
  | .required => text "#REQUIRED"
  | .implied => text "#IMPLIED"
  | .fixed v => text "#FIXED" * (someBlanks * quotedValue v)
  | .value v => quotedValue v

/-- How an attribute is written, with the white space before it. -/
def DtdAttribute.spellings (a : DtdAttribute) : Language Char :=
  someBlanks *
    (fullName a.name * (someBlanks * (a.type.spellings * (someBlanks * a.default.spellings))))

/-- How attributes are written, with the end of their list. -/
def attributesSpellings : List DtdAttribute → Language Char
  | [] => blanks * text ">"
  | a :: more => a.spellings * attributesSpellings more

/-! ## Definitions -/

/-- How a declaration is written.  The other pieces are no declarations of elements or
attributes. -/
def DtdPiece.spellings : DtdPiece → Language Char
  | .element n content =>
    text "<!ELEMENT" *
      (someBlanks * (fullName n * (someBlanks * (content.spellings * (blanks * text ">")))))
  | .attributes n as =>
    text "<!ATTLIST" * (someBlanks * (fullName n * attributesSpellings as))
  | .comment _ | .passing | .breaking => 0

/-- How declarations are written one after another. -/
def definitionSpellings : List DtdPiece → Language Char
  | [] => blanks
  | p :: more => blanks * (p.spellings * definitionSpellings more)

end XmlAdvisor
