import XmlAdvisor.Dtd.Basic
import XmlAdvisor.Schema.Reach
import XmlAdvisor.Schema.Residual
import XmlAdvisor.Tree.Basic

/-!
# Declarations

**One view of two kinds of grammar.**  A declaration says how an element may look: its name, its
attributes, and what may and what must stand inside it.  In a schema it is an element pattern, and
the same name can be declared differently in different places; in a document type definition there
is one declaration for a name.

**Checking content** goes through the children from left to right.  A child that cannot stand where
it does is reported and left out of what follows.  Against a schema, each child moves the content
model on to what is left of it; against a definition, only undeclared children and missing
necessary ones are seen.

**Alternatives** are the elements of which one has to come next in incomplete content.  Only
schemas know them.
-/

namespace XmlAdvisor

/-- A declared attribute. -/
structure AttributeDeclaration where
  /-- The name as it is declared. -/
  name : String
  required : Bool
  default : Option String
  /-- The values that are allowed; empty if all are. -/
  values : List String
  documentation : Option String
  deriving DecidableEq, Repr, Inhabited

/-- A child that is not allowed where it stands. -/
structure UnexpectedChild where
  node : Nat
  /-- The names that are allowed there. -/
  expected : List String
  deriving DecidableEq, Repr

/-- What was found about the children of an element. -/
structure ContentCheck where
  unexpected : List UnexpectedChild
  /-- Whether the content ends too early. -/
  incomplete : Bool
  /-- The names that can go on with incomplete content. -/
  expected : List String
  deriving DecidableEq, Repr

/-- Whether nothing is wrong. -/
def ContentCheck.isValid (c : ContentCheck) : Bool :=
  c.unexpected.isEmpty && !c.incomplete

/-- Items of a list, each key once, where the first item with a key stays. -/
def distinctBy {α κ : Type} [DecidableEq κ] (key : α → κ) (items : List α) : List α :=
  items.foldl (fun kept a => if kept.any (key · = key a) then kept else kept ++ [a]) []

/-! ## Content against a schema -/

namespace Schema

/-- The labels of element patterns, each once. -/
def labels (s : Schema) (ids : List Nat) : List String :=
  distinctBy id (ids.filterMap fun p => (s.elementName? p).map NameClass.label)

/-- What is left of a residual after a child, whose namespace is empty if it has none. -/
def derivativeBy (s : Schema) (r : Residual) (child : ElementNode) : Residual :=
  s.derivative r (child.element.namespaceUri.getD "") child.element.localName

/-- What is left of a residual after children, and the children that it did not allow. -/
def foldChildren (s : Schema) : Residual → List ElementNode → Residual × List UnexpectedChild
  | r, [] => (r, [])
  | r, child :: more =>
    let next := s.derivativeBy r child
    if next = .notAllowed then
      let (last, unexpected) := s.foldChildren r more
      (last, ⟨child.id, s.labels (s.first r)⟩ :: unexpected)
    else s.foldChildren next more

/-- What the children of an element leave of the content of its pattern. -/
def residualOf (s : Schema) (id : Nat) (children : List ElementNode) :
    Residual × List UnexpectedChild :=
  match s.elementContent? id with
  | some content => s.foldChildren (.pattern content) children
  | none => (.notAllowed, [])

/-- Checks the children of an element against its pattern. -/
def checkContent (s : Schema) (id : Nat) (children : List ElementNode) : ContentCheck :=
  let (residual, unexpected) := s.residualOf id children
  let incomplete := !s.nullable residual
  ⟨unexpected, incomplete, if incomplete then s.labels (s.first residual) else []⟩

/-- The element patterns with one name each of which one has to come next. -/
def alternatives (s : Schema) (id : Nat) (children : List ElementNode) : List Nat :=
  let (residual, _) := s.residualOf id children
  if s.nullable residual then []
  else
    distinctBy (fun p => (s.elementName? p).bind NameClass.simple?)
      ((s.requiredFirst residual).filter fun p =>
        ((s.elementName? p).bind NameClass.simple?).isSome)

/-- The attributes of a content that are written with one name. -/
def attributeDeclarations (s : Schema) (content : Nat) : List AttributeDeclaration :=
  (s.attributePatterns content).filterMap fun (id, required) =>
    match s.pattern id with
    | .attribute name value documentation default =>
      name.simple?.map fun (_, localName) =>
        ⟨localName, required, default, s.enumeratedValues value, documentation⟩
    | _ => none

end Schema

/-! ## Content against a definition -/

/-- A declared attribute of a definition, seen as any other. -/
def DtdAttribute.declaration (a : DtdAttribute) : AttributeDeclaration :=
  let values := match a.type with
    | .enumeration names | .notations names => names
    | _ => []
  let default := match a.default with
    | .fixed v | .value v => some v
    | .required | .implied => none
  ⟨a.name, a.default = .required, default, values, none⟩

/-- Checks the children of an element against its declaration. -/
def Dtd.checkContent (d : Dtd) (e : DtdElement) (children : List ElementNode) : ContentCheck :=
  let allowed := d.allowedNames e
  let names := children.map (·.element.tagName)
  let unexpected := children.filterMap fun c =>
    if allowed.contains c.element.tagName then none else some ⟨c.id, allowed⟩
  let missing := e.mandatoryNames.filter fun n => !(allowed.contains n && names.contains n)
  ⟨unexpected, !missing.isEmpty, missing⟩

/-! ## Declarations -/

/-- A declared element. -/
inductive Declaration
  | pattern (schema : Schema) (id : Nat)
  | dtd (dtd : Dtd) (element : DtdElement)
  deriving Repr

namespace Declaration

/-- The name of the element without its namespace; a star if it may have several. -/
def localName : Declaration → String
  | .pattern s id => ((s.elementName? id).map NameClass.label).getD "*"
  | .dtd _ e => e.name

/-- The namespace of the element. -/
def namespaceUri : Declaration → Option String
  | .pattern s id => do
    let (ns, _) ← (← s.elementName? id).simple?
    if ns.isEmpty then none else some ns
  | .dtd _ _ => none

/-- What the grammar says about the element. -/
def documentation : Declaration → Option String
  | .pattern s id =>
    match s.pattern id with
    | .element _ _ documentation => documentation
    | _ => none
  | .dtd _ e => e.documentation

/-- The attributes that are declared by name. -/
def attributes : Declaration → List AttributeDeclaration
  | .pattern s id =>
    match s.elementContent? id with
    | some content => s.attributeDeclarations content
    | none => []
  | .dtd _ e => e.attributes.map DtdAttribute.declaration

/-- The declared attribute with the given name. -/
def attribute? (d : Declaration) (name : String) : Option AttributeDeclaration :=
  d.attributes.find? (·.name = name)

/-- Whether other attributes than the declared ones are allowed. -/
def acceptsAnyAttribute : Declaration → Bool
  | .pattern s id => (s.elementContent? id).any s.hasWildcardAttribute
  | .dtd _ _ => false

/-- The elements that may stand inside the element. -/
def children : Declaration → List Declaration
  | .pattern s id =>
    match s.elementContent? id with
    | some content => (s.elementPatterns content).map (.pattern s)
    | none => []
  | .dtd d e => (d.allowedNames e).filterMap fun name => (d.element? name).map (.dtd d)

/-- The elements that must stand inside the element and have one name, in order. -/
def requiredChildren : Declaration → List Declaration
  | .pattern s id =>
    match s.elementContent? id with
    | some content =>
      ((s.requiredElementPatterns content).filter fun p =>
        ((s.elementName? p).bind NameClass.simple?).isSome).map (.pattern s)
    | none => []
  | .dtd d e => e.mandatoryNames.filterMap fun name => (d.element? name).map (.dtd d)

/-- Whether nothing may stand inside the element. -/
def isEmptyContent : Declaration → Bool
  | .pattern s id =>
    match (s.elementContent? id).bind s.resolve with
    | some content => s.pattern content == .empty
    | none => false
  | .dtd _ e =>
    match e.content with
    | .empty => true
    | _ => false

/-- Whether the declaration is one for the given element. -/
def describes : Declaration → ElementNode → Bool
  | .pattern s id, e =>
    (s.elementName? id).any fun name =>
      name.contains (e.element.namespaceUri.getD "") e.element.localName
  | .dtd _ d, e => e.element.tagName = d.name

/-- The declaration of a child that stands inside the element. -/
def child? : Declaration → ElementNode → Option Declaration
  | .pattern s id, e => (Declaration.pattern s id).children.find? (·.describes e)
  | .dtd d p, e =>
    let name := e.element.tagName
    if (d.allowedNames p).contains name then (d.element? name).map (.dtd d) else none

/-- Checks the children of an element. -/
def checkContent : Declaration → List ElementNode → ContentCheck
  | .pattern s id, children => s.checkContent id children
  | .dtd d e, children => d.checkContent e children

/-- The elements of which one has to come next after the given children. -/
def alternatives : Declaration → List ElementNode → List Declaration
  | .pattern s id, children => (s.alternatives id children).map (.pattern s)
  | .dtd _ _, _ => []

/-- The name with its namespace in braces. -/
def qualifiedName (d : Declaration) : String :=
  match d.namespaceUri with
  | some ns => "\x7b" ++ ns ++ "\x7d" ++ d.localName
  | none => d.localName

end Declaration

end XmlAdvisor
