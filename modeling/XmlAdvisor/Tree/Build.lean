import XmlAdvisor.Markup.Scanner
import XmlAdvisor.Tree.Basic

/-!
# From tokens to a tree

**The builder** takes one token at a time.  It knows the elements that are open, innermost first,
the namespaces bound in their start tags, and the element whose start tag is being read.

**Scopes.**  Each open element remembers the bindings in force around it, so leaving the element is
putting that scope back.  The namespace of an element is settled when its start tag ends, after all
of its attributes were seen.

**Recovery.**  An end tag closes the innermost open element of its name and ends the elements
inside that one at the end tag; without such an element it is dropped.  What is open at the end of
the text ends there.
-/

namespace XmlAdvisor

/-- A qualifier, or the absence of one, and the namespace bound to it. -/
structure Binding where
  qualifier : Option String
  uri : String
  deriving DecidableEq, Repr

/-- The namespace of names with the given qualifier, where the innermost binding comes first.  An
empty one takes a binding back. -/
def namespaceIn (scope : List Binding) (qualifier : Option String) : Option String :=
  if qualifier = some "xml" then some xmlNamespace
  else
    match scope.find? (·.qualifier = qualifier) with
    | some b => if b.uri.isEmpty then none else some b.uri
    | none => none

/-- The binding that an attribute makes, if it makes one. -/
def bindingOf (name : QualifiedName) (value : String) : Option Binding :=
  match name.qualifier with
  | none => if name.localName = "xmlns" then some ⟨none, value⟩ else none
  | some q => if q = "xmlns" then some ⟨some name.localName, value⟩ else none

/-- An element whose end has not been reached. -/
structure OpenElement where
  id : Nat
  tag : String
  /-- The bindings in force around the element. -/
  outer : List Binding
  deriving Repr

/-- What is known of a tree after some of its tokens. -/
structure Builder where
  nodes : Array Node
  topLevel : List Nat
  /-- The elements whose start tags are complete, innermost first. -/
  opened : List OpenElement
  /-- The bindings in force, innermost first. -/
  scope : List Binding
  /-- The element whose start tag is being read. -/
  pending : Option OpenElement
  doctypeNode : Option Nat
  /-- Where the internal subset begins, until its end is seen. -/
  subsetStart : Option Nat
  deriving Repr

namespace Builder

/-- Before the first token. -/
def empty : Builder :=
  ⟨#[], [], [], [], none, none, none⟩

/-- Changes the node with the given number. -/
def onNode (b : Builder) (id : Nat) (f : Node → Node) : Builder :=
  { b with nodes := b.nodes.modify id f }

/-- Ends a node at the given offset. -/
def endAt (b : Builder) (id : Nat) (stop : Nat) : Builder :=
  b.onNode id fun n => { n with span.stop := stop }

/-- Changes the element with the given number. -/
def onElement (b : Builder) (id : Nat) (f : Element → Element) : Builder :=
  b.onNode id fun n =>
    match n.kind with
    | .element e => { n with kind := .element (f e) }
    | _ => n

/-- Adds a node inside the innermost open element. -/
def push (b : Builder) (kind : NodeKind) (span : Span) : Builder :=
  let id := b.nodes.size
  match b.opened with
  | [] => { b with nodes := b.nodes.push ⟨none, span, kind⟩, topLevel := b.topLevel ++ [id] }
  | parent :: _ =>
    { b with nodes := b.nodes.push ⟨some parent.id, span, kind⟩ }.onElement parent.id fun e =>
      { e with children := e.children ++ [id] }

/-- Settles the namespace of an element from the bindings in force. -/
def resolve (b : Builder) (id : Nat) : Builder :=
  b.onElement id fun e => { e with namespaceUri := namespaceIn b.scope e.name.qualifier }

/-- Begins an element. -/
def openTag (b : Builder) (name : QualifiedName) (span : Span) : Builder :=
  let opening : OpenElement := ⟨b.nodes.size, name.text, b.scope⟩
  { b.push (.element ⟨name, none, [], [], none, none, false⟩) span with pending := some opening }

/-- Adds an attribute to the element whose start tag is being read. -/
def addAttribute (b : Builder) (name : QualifiedName) (value : String)
    (nameSpan valueSpan span : Span) : Builder :=
  match b.pending with
  | none => b
  | some p =>
    let attr : Attribute := ⟨name.text, value, nameSpan, valueSpan⟩
    let b := { b with scope := (bindingOf name value).toList ++ b.scope }
    let b := b.onNode p.id fun n => { n with span.stop := max n.span.stop span.stop }
    b.onElement p.id fun e => { e with attributes := putAttribute attr e.attributes }

/-- Ends a start tag that has content after it. -/
def closeTag (b : Builder) (span : Span) : Builder :=
  match b.pending with
  | none => b
  | some p =>
    let b := (b.resolve p.id).endAt p.id span.stop
    let b := b.onElement p.id fun e => { e with startTagClose := some span.start }
    { b with pending := none, opened := p :: b.opened }

/-- Ends the tag of an element without content. -/
def selfCloseTag (b : Builder) (span : Span) : Builder :=
  match b.pending with
  | none => b
  | some p =>
    let b := (b.resolve p.id).endAt p.id span.stop
    let b := b.onElement p.id fun e =>
      { e with startTagClose := some (span.stop - 1), selfClosed := true }
    { b with pending := none, scope := p.outer }

/-- Ends the given elements at an offset. -/
def endAll (b : Builder) (unclosed : List OpenElement) (stop : Nat) : Builder :=
  unclosed.foldl (fun b o => b.endAt o.id stop) b

/-- Closes the innermost open element with the tag's name, and with it all elements inside. -/
def endTag (b : Builder) (name : QualifiedName) (span : Span) : Builder :=
  match b.opened.dropWhile (·.tag != name.text) with
  | [] => b
  | closed :: outside =>
    let b := b.endAll (b.opened.takeWhile (·.tag != name.text)) span.start
    let b := b.endAt closed.id span.stop
    let b := b.onElement closed.id fun e => { e with endTagOpen := some span.start }
    { b with opened := outside, scope := closed.outer }

/-- Adds the document type. -/
def addDoctype (b : Builder) (name : String) (external : Option ExternalId) (subset : Bool)
    (span : Span) : Builder :=
  let declared : DocumentType :=
    ⟨name, external.bind (·.publicId), external.map (·.systemId), none⟩
  let id := b.nodes.size
  let b := { b.push (.doctype declared) span with doctypeNode := some id }
  if subset then { b with subsetStart := some span.stop } else b

/-- Ends the document type after its internal subset, whose text it records. -/
def endSubset (b : Builder) (text : List Char) (span : Span) : Builder :=
  match b.doctypeNode with
  | none => b
  | some id =>
    let subset := b.subsetStart.map fun start => Span.slice ⟨start, span.start⟩ text
    let b := { b with subsetStart := none }.endAt id span.stop
    b.onNode id fun n =>
      match n.kind with
      | .doctype d => { n with kind := .doctype { d with internalSubset := subset } }
      | _ => n

/-- Takes one token of the text. -/
def step (text : List Char) (b : Builder) : Token → Builder
  | .doctype name external subset span => b.addDoctype name external subset span
  | .subsetEnd span => b.endSubset text span
  | .comment content span => b.push (.comment content) span
  | .instruction target data span => b.push (.instruction target data) span
  | .cdata content span => b.push (.cdata content) span
  | .text content span => b.push (.text content) span
  | .tagOpen name span => b.openTag name span
  | .attribute name value nameSpan valueSpan span =>
    b.addAttribute name value nameSpan valueSpan span
  | .tagClose span => b.closeTag span
  | .tagSelfClose span => b.selfCloseTag span
  | .endTag name span => b.endTag name span

/-- Ends all that is open at the end of the text. -/
def finish (b : Builder) (length : Nat) : Builder :=
  let b := match b.pending with
    | none => b
    | some p => (b.resolve p.id).endAt p.id length
  b.endAll b.opened length

end Builder

/-- The tree of a text. -/
def Tree.parse (text : List Char) : Tree :=
  let (tokens, fault) := scanAll text
  let b := (tokens.foldl (Builder.step text) .empty).finish text.length
  ⟨text, b.nodes, b.topLevel, b.doctypeNode, fault⟩

end XmlAdvisor
