import XmlAdvisor.Markup.Fault
import XmlAdvisor.Markup.Name
import XmlAdvisor.Text.Blank
import XmlAdvisor.Text.Lines

/-!
# The tree of a document

**Nodes** are numbered in the order in which they begin in the text, and name their parent and
their children by number.  A tree exists for every text: what follows the first fault is missing,
elements that are never closed end where their parent does, and stray end tags leave no trace.

**Elements** keep what is needed to edit them: where the start tag closes, where the end tag opens,
and where each attribute stands.  Attributes keep the order in which they are written; when one is
written twice, the later one takes the place of the earlier.
-/

namespace XmlAdvisor

/-- An attribute of an element. -/
structure Attribute where
  /-- The name as it is written. -/
  name : String
  value : String
  nameSpan : Span
  /-- The value without its quotation marks. -/
  valueSpan : Span
  deriving DecidableEq, Repr, Inhabited

/-- The part of the name after the colon. -/
def Attribute.localName (a : Attribute) : String :=
  localPart a.name

/-- The part of the name before the colon. -/
def Attribute.qualifier (a : Attribute) : Option String :=
  qualifierPart a.name

/-- Whether a written attribute name declares a namespace. -/
def declaresNamespace (name : String) : Bool :=
  name == "xmlns" || "xmlns:".toList.isPrefixOf name.toList

/-- Whether the attribute declares a namespace. -/
def Attribute.isNamespaceDeclaration (a : Attribute) : Bool :=
  declaresNamespace a.name

/-- Puts an attribute at the place of the one with its name, or else last. -/
def putAttribute (a : Attribute) : List Attribute → List Attribute
  | [] => [a]
  | b :: rest => if b.name = a.name then a :: rest else b :: putAttribute a rest

/-- What belongs to an element alone. -/
structure Element where
  name : QualifiedName
  namespaceUri : Option String
  attributes : List Attribute
  children : List Nat
  /-- The offset of the `>` that closes the start tag. -/
  startTagClose : Option Nat
  /-- The offset of the `<` that opens the end tag. -/
  endTagOpen : Option Nat
  selfClosed : Bool
  deriving DecidableEq, Repr, Inhabited

/-- The name of the element as it is written. -/
def Element.tagName (e : Element) : String :=
  e.name.text

/-- The name of the element without its qualifier. -/
def Element.localName (e : Element) : String :=
  e.name.localName

/-- The attribute with the given written name. -/
def Element.attribute? (e : Element) (name : String) : Option Attribute :=
  e.attributes.find? (·.name = name)

/-- The span between the two tags of an element that has both. -/
def Element.contentSpan (e : Element) : Option Span := do
  return ⟨(← e.startTagClose) + 1, ← e.endTagOpen⟩

/-- The declaration of the document type. -/
structure DocumentType where
  name : String
  publicId : Option String
  systemId : Option String
  internalSubset : Option String
  deriving DecidableEq, Repr, Inhabited

/-- What a node is. -/
inductive NodeKind
  | element (e : Element)
  | text (content : String)
  | cdata (content : String)
  | comment (content : String)
  | instruction (target : String) (data : Option String)
  | doctype (d : DocumentType)
  deriving DecidableEq, Repr

/-- A node and where it stands. -/
structure Node where
  parent : Option Nat
  span : Span
  kind : NodeKind
  deriving DecidableEq, Repr

/-- The element that a node is. -/
def Node.element? (n : Node) : Option Element :=
  match n.kind with
  | .element e => some e
  | _ => none

/-- The children of a node; only elements have any. -/
def Node.children (n : Node) : List Nat :=
  match n.kind with
  | .element e => e.children
  | _ => []

/-- The character data that a node is. -/
def Node.characterData? (n : Node) : Option String :=
  match n.kind with
  | .text content | .cdata content => some content
  | _ => none

/-- The tree of a text. -/
structure Tree where
  text : List Char
  nodes : Array Node
  topLevel : List Nat
  /-- The number of the document type's node. -/
  doctypeNode : Option Nat
  fault : Option Fault
  deriving Repr

/-- An element together with its number and its place in the tree. -/
structure ElementNode where
  id : Nat
  parent : Option Nat
  span : Span
  element : Element
  deriving DecidableEq, Repr

/-- The span of the `<` and the name in the start tag. -/
def ElementNode.nameSpan (e : ElementNode) : Span :=
  ⟨e.span.start, e.span.start + 1 + e.element.tagName.length⟩

namespace Tree

/-- The element with the given number. -/
def element? (t : Tree) (id : Nat) : Option ElementNode := do
  let node ← t.nodes[id]?
  let element ← node.element?
  return ⟨id, node.parent, node.span, element⟩

/-- The numbers of all nodes. -/
def ids (t : Tree) : List Nat :=
  List.range t.nodes.size

/-- The elements in the order in which they begin. -/
def elements (t : Tree) : List ElementNode :=
  t.ids.filterMap t.element?

/-- The document element. -/
def root? (t : Tree) : Option ElementNode :=
  t.topLevel.findSome? t.element?

/-- The child elements of an element. -/
def childElements (t : Tree) (e : ElementNode) : List ElementNode :=
  e.element.children.filterMap t.element?

/-- The child nodes of an element. -/
def childNodes (t : Tree) (e : ElementNode) : List Node :=
  e.element.children.filterMap (t.nodes[·]?)

/-- The character data directly inside an element. -/
def textContent (t : Tree) (e : ElementNode) : String :=
  String.join ((t.childNodes e).filterMap Node.characterData?)

/-- Whether an element directly holds character data that is not blank. -/
def hasText (t : Tree) (e : ElementNode) : Bool :=
  (t.childNodes e).any fun n => n.characterData?.any fun s => !isAllXmlSpace s

/-- The parent of an element, which is an element. -/
def parentElement? (t : Tree) (e : ElementNode) : Option ElementNode := do
  t.element? (← e.parent)

/-- The declaration of the document type, if there is one. -/
def doctype? (t : Tree) : Option DocumentType := do
  match (← t.nodes[← t.doctypeNode]?).kind with
  | .doctype d => some d
  | _ => none

/-- The processing instructions outside the document element: targets and data. -/
def instructions (t : Tree) : List (String × Option String) :=
  t.topLevel.filterMap fun id => do
    match (← t.nodes[id]?).kind with
    | .instruction target data => some (target, data)
    | _ => none

/-- The number of characters of the text. -/
def length (t : Tree) : Nat :=
  t.text.length

/-- The offset that the fault is recorded at: the row and the column of the place where the
construct begins, looked up among the lines of the text. -/
def faultOffset? (t : Tree) : Option Nat :=
  t.fault.map fun f =>
    let (row, column) := rowColumn t.text f.offset
    offsetOfRowColumn t.text row column

/-- The wording of the fault. -/
def faultMessage? (t : Tree) : Option String :=
  t.fault.map (·.message t.text)

end Tree

end XmlAdvisor
