import XmlAdvisor.Editor.Encode
import XmlAdvisor.Request.Grammars
import XmlAdvisor.Text.Blank

/-!
# What a name means

Over the name of an element or of an attribute in a start tag, each grammar that declares it tells
about it in a section: its name, its documentation, the values of an attribute, and where the
grammar is.
-/

namespace XmlAdvisor

/-- A text about a range of a document. -/
structure Hover where
  markdown : String
  range : Range
  deriving DecidableEq, Repr, Inhabited

/-- A text in the exchange format. -/
def markdownJson (text : String) : Json :=
  .object [("kind", .string "markdown"), ("value", .string text)]

/-- A hover in the exchange format. -/
def Hover.toJson (h : Hover) : Json :=
  .object [("contents", markdownJson h.markdown), ("range", h.range.toJson)]

/-- What a name in a start tag is the name of. -/
inductive NameTarget
  | element
  | attribute (name : String)
  deriving DecidableEq, Repr

/-- Whether an offset touches a span. -/
def Span.touches (s : Span) (offset : Nat) : Bool :=
  s.start ≤ offset && offset ≤ s.stop

/-- The name of the element in its start tag. -/
def ElementNode.tagNameSpan (e : ElementNode) : Span :=
  ⟨e.nameSpan.start + 1, e.nameSpan.stop⟩

/-- The name in the start tag of an element that an offset touches, and its span. -/
def ElementNode.nameAt? (e : ElementNode) (offset : Nat) : Option (NameTarget × Span) :=
  if e.tagNameSpan.touches offset then some (.element, e.tagNameSpan)
  else
    (e.element.attributes.find? (·.nameSpan.touches offset)).map fun a =>
      (.attribute a.name, a.nameSpan)

/-- The declared attribute that a written name stands for. -/
def Declaration.attributeNamed? (d : Declaration) (name : String) : Option AttributeDeclaration :=
  (d.attribute? name).or (d.attribute? (localPart name))

/-- The documentation of an attribute and its values. -/
def AttributeDeclaration.explanation (a : AttributeDeclaration) : Option String :=
  if a.values.isEmpty then a.documentation
  else
    let line := "Allowed values: " ++ ", ".intercalate (a.values.map fun v => "\x60" ++ v ++ "\x60")
    match a.documentation with
    | some doc => some (doc ++ "\n\n" ++ line)
    | none => some line

/-- The declared name that a target has and what the declaration says about it. -/
def Declaration.explain? (d : Declaration) : NameTarget → Option (String × Option String)
  | .element => some (d.localName, d.documentation)
  | .attribute name => (d.attributeNamed? name).map fun a => (a.name, a.explanation)

/-- The last segment of the path of a location or, if there is none, the location. -/
def Url.fileName (u : Url) : String :=
  match u.path with
  | .segments parts =>
    match parts.getLast? with
    | some last => if last.isEmpty then u.text else last
    | none => u.text
  | .opaquePath _ => u.text

/-- The section that a grammar contributes. -/
def Grammar.hoverSection? (g : Grammar) (t : Tree) (e : ElementNode) (target : NameTarget) :
    Option String := do
  let (title, explanation) ← (← g.declarationOf? t e).explain? target
  let body := match explanation with
    | some text => "\n\n" ++ trimmed text
    | none => ""
  return "**" ++ title ++ "**" ++ body ++ "\n\nSource: [" ++ g.uri.fileName ++ "]("
    ++ g.uri.text ++ ")"

/-- What stands between two sections. -/
def sectionDivider : String :=
  "\n\n___\n\n"

/-- What is told about the name at a position of a document. -/
def Bindings.hover (b : Bindings) (d : Document) (p : Position) : Request (Option Hover) := do
  let offset ← Request.ofPlace (d.offsetAt p)
  match d.elementAt? offset with
  | none => return none
  | some e =>
    match e.nameAt? offset with
    | none => return none
    | some (target, span) =>
      let grammars ← b.applicable d
      let sections ← Request.flatMapM (fun g => do
        Request.check
        return (g.hoverSection? d.toTree e target).toList) grammars
      if sections.isEmpty then return none
      let range ← Request.ofPlace (d.rangeAt span)
      return some ⟨sectionDivider.intercalate sections, range⟩

end XmlAdvisor
