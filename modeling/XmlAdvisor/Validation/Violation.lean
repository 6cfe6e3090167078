import XmlAdvisor.Editor.Diagnostic
import XmlAdvisor.Grammar.Basic
import XmlAdvisor.Text.Blank

/-!
# What is wrong with an element

**Violations** are what an element does against its declaration.  Each has a span in the text of the
document and a wording, and some carry data from which the violation can be repaired later.

**Attributes.**  Required attributes must be there, attributes that are there must be declared, and
a value must be one of those that are listed, if any are.  An attribute goes by its written name or
by its local name.  Namespace declarations and attributes of reserved qualifiers are left alone.

**Children** must be allowed where they stand, and the content must not end too early.  When it
does, the violation names the elements of which one has to come, if these can be told.
-/

namespace XmlAdvisor

/-- Something that an element does against its declaration. -/
structure Violation where
  span : Span
  problem : ProblemCode
  message : String
  data : Option Json := none
  deriving Repr, BEq

/-- Names in quotation marks, divided by commas. -/
def quoteNames (names : List String) : String :=
  ", ".intercalate (names.map fun n => "'" ++ n ++ "'")

/-! ## Attributes -/

/-- Whether an attribute goes by a declared name. -/
def Attribute.goesBy (a : Attribute) (name : String) : Bool :=
  a.name = name || a.localName = name

/-- Whether attributes with a qualifier are checked against no grammar. -/
def isReservedQualifier (q : String) : Bool :=
  q = "xml" || q = "xsi"

/-- Whether an attribute is checked against grammars. -/
def Attribute.isChecked (a : Attribute) : Bool :=
  !(a.isNamespaceDeclaration || a.qualifier.any isReservedQualifier)

/-- The declaration of an attribute that is there. -/
def Declaration.attributeFor? (d : Declaration) (a : Attribute) : Option AttributeDeclaration :=
  (d.attribute? a.name).or (d.attribute? a.localName)

/-- The violations by required attributes that are missing. -/
def missingAttributes (d : Declaration) (e : ElementNode) : List Violation :=
  (d.attributes.filter (·.required)).filterMap fun a =>
    if e.element.attributes.any (·.goesBy a.name) then none
    else some {
      span := e.nameSpan
      problem := .requiredAttributeMissing
      message := "Attribute '" ++ a.name ++ "' is required on element '" ++
      e.element.tagName ++ "'."
      data := some (.object [("attributeName", .string a.name)]) }

/-- The violation by an attribute that is there. -/
def attributeViolation? (d : Declaration) (e : ElementNode) (a : Attribute) : Option Violation :=
  match d.attributeFor? a with
  | none =>
    if d.acceptsAnyAttribute then none
    else some {
      span := a.nameSpan
      problem := .attributeNotAllowed
      message := "Attribute '" ++ a.name ++ "' is not allowed on element '" ++ e.element.tagName
        ++ "'." }
  | some decl =>
    if decl.values.isEmpty || decl.values.contains (trimmed a.value) then none
    else some {
      span := a.valueSpan
      problem := .attributeValueInvalid
      message := "Value '" ++ a.value ++ "' is not valid for attribute '" ++ a.name
        ++ "'. Expected one of: " ++ quoteNames decl.values ++ "." }

/-- The violations by the attributes of an element. -/
def attributeViolations (d : Declaration) (e : ElementNode) : List Violation :=
  missingAttributes d e ++
    (e.element.attributes.filter Attribute.isChecked).filterMap (attributeViolation? d e)

/-! ## Children -/

/-- The violation by a child that is not allowed where it stands. -/
def unexpectedViolation (e child : ElementNode) (expected : List String) : Violation where
  span := child.nameSpan
  problem := .elementNotAllowed
  message :=
    let start := "Element '" ++ child.element.tagName ++ "' is not allowed here"
    if expected.isEmpty then
      start ++ ": '" ++ e.element.tagName ++ "' expects no more child elements."
    else start ++ ". Expected: " ++ quoteNames expected ++ "."

/-- The violation by content that ends too early, where one of the given alternatives has to come
next. -/
def incompleteViolation (grammarUri : String) (e : ElementNode) (expected : List String)
    (alternatives : List Declaration) : Violation :=
  let tag := e.element.tagName
  let parent := ("parentLocalName", Json.string e.element.localName)
  let grammar := ("grammarUri", Json.string grammarUri)
  match alternatives with
  | [] => {
      span := e.nameSpan
      problem := .incompleteContent
      message :=
        let start := "Content of element '" ++ tag ++ "' is incomplete."
        if expected.isEmpty then start else start ++ " Expected: " ++ quoteNames expected ++ "." }
  | [only] => {
      span := e.nameSpan
      problem := .requiredElementMissing
      message := "Element '" ++ tag ++ "' is missing required child element '" ++ only.localName
        ++ "'."
      data := some (.object [("elementLocalName", .string only.localName), grammar, parent]) }
  | many => {
      span := e.nameSpan
      problem := .requiredElementsMissing
      message := "Element '" ++ tag ++ "' is missing a required child element. Expected one of: "
        ++ quoteNames (many.map Declaration.localName) ++ "."
      data := some (.object [grammar, parent]) }

/-- The violations by the children of an element. -/
def childViolations (t : Tree) (grammarUri : String) (d : Declaration) (e : ElementNode) :
    List Violation :=
  let children := t.childElements e
  let check := d.checkContent children
  let unexpected := check.unexpected.filterMap fun u =>
    (t.element? u.node).map fun child => unexpectedViolation e child u.expected
  if check.incomplete then
    unexpected ++ [incompleteViolation grammarUri e check.expected (d.alternatives children)]
  else unexpected

/-- The violations by an element. -/
def violations (t : Tree) (grammarUri : String) (d : Declaration) (e : ElementNode) :
    List Violation :=
  attributeViolations d e ++ childViolations t grammarUri d e

/-- The violation by a document element that is not declared. -/
def undeclaredViolation (grammarUri : String) (root : ElementNode) : Violation where
  span := root.nameSpan
  problem := .elementUndeclared
  message := "Element '" ++ root.element.tagName ++ "' is not declared in " ++ grammarUri ++ "."

end XmlAdvisor
