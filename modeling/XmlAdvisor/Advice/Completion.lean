import XmlAdvisor.Advice.Hover
import XmlAdvisor.Insertion.Outline
import XmlAdvisor.Settings.Basic

/-!
# What can be typed at a position

**The site** of an offset decides what is proposed: the values of an attribute inside its quotation
marks, attributes inside a start tag, children inside content, and document elements where there is
no element yet.  The end of a child is also a place in its parent's content, so the site is looked
for from the innermost element outwards.

**Items** come from all grammars that apply, in order; of items with one label the first is kept.
-/

namespace XmlAdvisor

/-- Where an offset is. -/
inductive CompletionSite
  | topLevel
  | content (e : ElementNode)
  | startTag (e : ElementNode)
  | attributeValue (e : ElementNode) (name : String)
  deriving DecidableEq, Repr

/-- The kinds of things that are proposed. -/
inductive CompletionKind
  | element
  | attribute
  | value
  deriving DecidableEq, Repr, Inhabited

/-- A text to insert at the position. -/
structure InsertText where
  text : String
  isSnippet : Bool
  deriving DecidableEq, Repr, Inhabited

/-- Something that can be typed. -/
structure CompletionItem where
  label : String
  kind : CompletionKind
  detail : Option String := none
  documentation : Option String := none
  insert : Option InsertText := none
  deriving DecidableEq, Repr, Inhabited

/-! ## Sites -/

namespace ElementNode

/-- Whether an offset is in the start tag, after the name. -/
def inStartTag (e : ElementNode) (offset : Nat) : Bool :=
  e.nameSpan.stop < offset && e.element.startTagClose.all (offset ≤ ·)

/-- The span of the content; without an end tag it goes to the end of the element. -/
def openContentSpan (e : ElementNode) : Option Span :=
  match e.element.contentSpan with
  | some span => some span
  | none =>
    if e.element.selfClosed then none
    else e.element.startTagClose.map fun close => ⟨close + 1, e.span.stop⟩

/-- The site of an offset, as far as the element itself tells. -/
def siteAt? (e : ElementNode) (offset : Nat) : Option CompletionSite :=
  if e.inStartTag offset then
    match e.element.attributes.find? (·.valueSpan.touches offset) with
    | some a => some (.attributeValue e a.name)
    | none => some (.startTag e)
  else if e.openContentSpan.any (·.touches offset) then some (.content e)
  else none

end ElementNode

/-- The site of an offset in a tree. -/
def Tree.siteAt? (t : Tree) (offset : Nat) : Option CompletionSite :=
  match t.root? with
  | none => some .topLevel
  | some root =>
    match t.enclosingElement? offset with
    | some e => (t.elementsOutwards e.id).findSome? (·.siteAt? offset)
    | none => if offset ≤ root.span.start then some .topLevel else none

/-! ## Items -/

/-- How items are made up. -/
structure CompletionForm where
  layout : Layout
  asSnippet : Bool
  /-- Whether the bracket that opens a tag has been typed already. -/
  bracketTyped : Bool

/-- The item for an element. -/
def Declaration.completion (form : CompletionForm) (d : Declaration) : CompletionItem where
  label := d.localName
  kind := .element
  documentation := d.documentation.map trimmed
  insert :=
    let text := d.insertion form.layout {} 0 none form.asSnippet
    some ⟨if form.bracketTyped then (text.drop 1).toString else text, form.asSnippet⟩

/-- What is inserted for an attribute: its name and a place for its value. -/
def AttributeDeclaration.insertion (asSnippet : Bool) (a : AttributeDeclaration) : String :=
  let place :=
    if !asSnippet then ""
    else if a.values.isEmpty then "$1"
    else "$\x7b1|" ++ ",".intercalate a.values ++ "|\x7d"
  a.name ++ "=\"" ++ place ++ "\""

/-- The item for an attribute. -/
def AttributeDeclaration.completion (asSnippet : Bool) (a : AttributeDeclaration) :
    CompletionItem where
  label := a.name
  kind := .attribute
  detail := if a.required then some "required" else none
  documentation := a.documentation.map trimmed
  insert := some ⟨a.insertion asSnippet, asSnippet⟩

/-- The item for a value. -/
def valueCompletion (value : String) : CompletionItem where
  label := value
  kind := .value

/-- The items that a grammar contributes at a site. -/
def Grammar.completionsAt (g : Grammar) (t : Tree) (form : CompletionForm) :
    CompletionSite → List CompletionItem
  | .topLevel => g.topLevel.map (Declaration.completion form)
  | .content e =>
    match g.declarationOf? t e with
    | some decl => decl.children.map (Declaration.completion form)
    | none => []
  | .startTag e =>
    match g.declarationOf? t e with
    | some decl =>
      (decl.attributes.filter fun a => (e.element.attribute? a.name).isNone).map
        (AttributeDeclaration.completion form.asSnippet)
    | none => []
  | .attributeValue e name =>
    match (g.declarationOf? t e).bind (·.attribute? name) with
    | some a => a.values.map valueCompletion
    | none => []

/-- What can be typed at a position of a document. -/
def Bindings.completions (b : Bindings) (settings : Settings) (d : Document) (p : Position) :
    Request (List CompletionItem) := do
  let offset ← Request.ofPlace (d.offsetAt p)
  match d.siteAt? offset with
  | none => return []
  | some site =>
    let form : CompletionForm := {
      layout := settings.layout
      asSnippet := settings.completion.snippetSupport
      bracketTyped := offset > 0 && d.text[offset - 1]? == some '<' }
    let grammars ← b.applicable d
    let items ← Request.flatMapM (fun g => do
      Request.check
      return g.completionsAt d.toTree form site) grammars
    return distinctBy CompletionItem.label items

/-! ## The exchange format -/

/-- The number of a kind in the exchange format. -/
def CompletionKind.number : CompletionKind → Nat
  | .element => 10
  | .attribute => 11
  | .value => 12

/-- An item in the exchange format. -/
def CompletionItem.toJson (i : CompletionItem) : Json :=
  Json.objectOf [("label", some (.string i.label)), ("kind", some (.integer i.kind.number)),
    ("detail", i.detail.map .string), ("documentation", i.documentation.map markdownJson),
    ("insertText", i.insert.map fun t => .string t.text),
    ("insertTextFormat", i.insert.map fun t => .integer (if t.isSnippet then 2 else 1))]

/-- All items of a position in the exchange format. -/
def completionListJson (items : List CompletionItem) : Json :=
  .object [("isIncomplete", .bool false), ("items", .ofList CompletionItem.toJson items)]

end XmlAdvisor
