import XmlAdvisor.Schema.NameClass
import XmlAdvisor.Text.Blank
import XmlAdvisor.Tree.Build
import XmlAdvisor.Tree.Lookup

/-!
# Schemas as they are written

**Reading.**  A schema document is first read into the patterns it is written with (`SourcePattern`)
and the starts and definitions of its grammar (`SourcePart`).  All that can be wrong with the
document shows here; what is read always compiles, but for references to nothing.

**Names.**  A qualified name stands for the namespace bound to its qualifier where it is written.
An unqualified name takes the namespace of the nearest `ns` attribute outwards, but the `name` of an
attribute pattern is in no namespace then.

**Foreign markup** is skipped, except for documentation and default values in the annotations
namespace.
-/

namespace XmlAdvisor

/-- The namespace of schema documents. -/
def schemaNamespace : String :=
  "http://relaxng.org/ns/structure/1.0"

/-- The namespace of documentation and default values. -/
def annotationsNamespace : String :=
  "http://relaxng.org/ns/compatibility/annotations/1.0"

/-- A pattern as it is written.  Several patterns in one place stand for their sequence. -/
inductive SourcePattern
  | element (name : NameClass) (content : List SourcePattern) (documentation : Option String)
  | attribute (name : NameClass) (value : List SourcePattern) (documentation : Option String)
    (default : Option String)
  | empty
  | text
  | notAllowed
  | data (datatype : String)
  | value (literal : String)
  | list (body : List SourcePattern)
  | group (members : List SourcePattern)
  | interleave (members : List SourcePattern)
  | choice (members : List SourcePattern)
  | optional (body : List SourcePattern)
  | zeroOrMore (body : List SourcePattern)
  | oneOrMore (body : List SourcePattern)
  | mixed (body : List SourcePattern)
  | ref (name : String)
  deriving Repr, Inhabited

/-- How a repeated start or definition is joined to the one before. -/
inductive Combine
  | choice
  | interleave
  deriving DecidableEq, Repr

/-- A start or a definition of a grammar. -/
inductive SourcePart
  | start (combine : Option Combine) (body : List SourcePattern)
  | define (name : String) (combine : Option Combine) (body : List SourcePattern)
  deriving Repr

/-- A schema document: a grammar, or one pattern. -/
inductive SourceSchema
  | grammar (parts : List SourcePart)
  | pattern (p : SourcePattern)
  deriving Repr

/-- What can be wrong with a schema document. -/
inductive SchemaError
  | malformed (offset : Nat) (message : String)
  | noRoot
  | noStart
  | notAPattern (tag : String)
  | unknownPattern (name : String)
  | unsupportedReference
  | nestedGrammar
  | unexpectedPart (name : String)
  | missingAttribute (element attr : String)
  | badCombine (text : String)
  | namelessElement
  | namelessAttribute
  | unknownNameClass (name : String)
  | emptyNameChoice
  | unboundQualifier (qualifier name : String)
  | undefinedReference (name : String)
  | tooDeep
  deriving DecidableEq, Repr

/-- The wording of a schema error. -/
def SchemaError.message : SchemaError → String
  | .malformed o m => s!"malformed XML at offset {o}: {m}"
  | .noRoot => "no document element"
  | .noStart => "grammar has no start"
  | .notAPattern tag => s!"'{tag}' is not a RELAX NG pattern"
  | .unknownPattern name => s!"unknown pattern '{name}'"
  | .unsupportedReference => "externalRef is not supported"
  | .nestedGrammar => "nested grammar is not supported"
  | .unexpectedPart name => s!"unexpected '{name}' in grammar"
  | .missingAttribute element attr => s!"<{element}> requires a '{attr}' attribute"
  | .badCombine text => s!"invalid combine value '{text}'"
  | .namelessElement => "element without a name"
  | .namelessAttribute => "attribute without a name"
  | .unknownNameClass name => s!"unknown name class '{name}'"
  | .emptyNameChoice => "empty name class choice"
  | .unboundQualifier qualifier name => s!"unbound prefix '{qualifier}' in '{name}'"
  | .undefinedReference name => s!"reference to undefined pattern '{name}'"
  | .tooDeep => "nested too deeply"

/-- What reading a part of a schema document gives. -/
abbrev SchemaResult := Except SchemaError

namespace Tree

/-! ## Parts of a schema document -/

/-- Whether an element belongs to the schema language. -/
def isSchemaElement (e : ElementNode) : Bool :=
  e.element.namespaceUri = some schemaNamespace

/-- The child elements that belong to the schema language. -/
def schemaChildren (t : Tree) (e : ElementNode) : List ElementNode :=
  (t.childElements e).filter isSchemaElement

/-- The value of an attribute of an element. -/
def attributeValue? (e : ElementNode) (name : String) : Option String :=
  (e.element.attribute? name).map (·.value)

/-- The namespace of unqualified names at an element inside one where it is `outer`. -/
def inheritedNs (e : ElementNode) (outer : String) : String :=
  (attributeValue? e "ns").getD outer

/-- The trimmed value of an attribute that an element must have. -/
def requiredAttribute (e : ElementNode) (name : String) : SchemaResult String :=
  match attributeValue? e name with
  | some v => .ok (trimmed v)
  | none => .error (.missingAttribute e.element.localName name)

/-- The documentation of a pattern: its paragraphs, with an empty line between them. -/
def schemaDocumentation (t : Tree) (e : ElementNode) : Option String :=
  let parts := (t.childElements e).filterMap fun c =>
    if c.element.namespaceUri = some annotationsNamespace && c.element.localName = "documentation"
    then
      let paragraph := trimmed (t.textContent c)
      if paragraph.isEmpty then none else some paragraph
    else none
  if parts.isEmpty then none else some ("\n\n".intercalate parts)

/-- The default value that is noted on an attribute pattern. -/
def notedDefault (t : Tree) (e : ElementNode) : Option String :=
  (e.element.attributes.find? fun a =>
    a.localName = "defaultValue" &&
      t.lookupNamespace e a.qualifier = some annotationsNamespace).map (·.value)

/-! ## Name classes -/

/-- The name that a qualified name stands for at an element; `ns` is the namespace of an
unqualified one. -/
def resolveName (t : Tree) (e : ElementNode) (written ns : String) : SchemaResult NameClass :=
  let name := trimmed written
  match splitName name with
  | some (q, l) =>
    match t.lookupNamespace e (some q) with
    | some uri => .ok (.name uri l)
    | none => .error (.unboundQualifier q name)
  | none => .ok (.name ns name)

/-- The union of the classes that children stand for. -/
def readClasses (read : ElementNode → String → SchemaResult NameClass) (t : Tree)
    (e : ElementNode) (ns : String) : SchemaResult (Option NameClass) := do
  let classes ← (t.schemaChildren e).mapM fun c => read c (inheritedNs c ns)
  return NameClass.union? classes

/-- The name class that an element stands for, at most `depth` elements deep. -/
def readNameClass (t : Tree) : (depth : Nat) → ElementNode → (ns : String) → SchemaResult NameClass
  | 0, _, _ => .error .tooDeep
  | depth + 1, e, ns =>
    let exceptions : SchemaResult NameClass :=
      match (t.schemaChildren e).find? (·.element.localName = "except") with
      | some c => do return (← t.readClasses (t.readNameClass depth) c ns).getD .nothing
      | none => .ok .nothing
    match e.element.localName with
    | "name" => t.resolveName e (t.textContent e) ns
    | "anyName" => do return .anyName (← exceptions)
    | "nsName" => do return .nsName ns (← exceptions)
    | "choice" => do
      match ← t.readClasses (t.readNameClass depth) e ns with
      | some c => return c
      | none => .error .emptyNameChoice
    | other => .error (.unknownNameClass other)

/-- The name class of an element or attribute pattern and the children that are not part of it.
`own` is the namespace of an unqualified `name` attribute. -/
def readPatternName (t : Tree) (e : ElementNode) (own ns : String) (nameless : SchemaError) :
    SchemaResult (NameClass × List ElementNode) := do
  match attributeValue? e "name" with
  | some written => return (← t.resolveName e written own, t.schemaChildren e)
  | none =>
    match t.schemaChildren e with
    | [] => .error nameless
    | first :: rest =>
      return (← t.readNameClass t.nodes.size first (inheritedNs first ns), rest)

/-! ## Patterns -/

/-- The pattern that an element stands for, at most `depth` elements deep. -/
def readPattern (t : Tree) : (depth : Nat) → ElementNode → (ns : String) →
    SchemaResult SourcePattern
  | 0, _, _ => .error .tooDeep
  | depth + 1, e, ns =>
    let readAll (children : List ElementNode) : SchemaResult (List SourcePattern) :=
      children.mapM fun c => t.readPattern depth c (inheritedNs c ns)
    let body : SchemaResult (List SourcePattern) := readAll (t.schemaChildren e)
    if !isSchemaElement e then .error (.notAPattern e.element.tagName)
    else
      match e.element.localName with
      | "element" => do
        let (name, children) ← t.readPatternName e ns ns .namelessElement
        return .element name (← readAll children) (t.schemaDocumentation e)
      | "attribute" => do
        let (name, children) ← t.readPatternName e "" ns .namelessAttribute
        return .attribute name (← readAll children) (t.schemaDocumentation e) (t.notedDefault e)
      | "empty" => .ok .empty
      | "text" => .ok .text
      | "notAllowed" => .ok .notAllowed
      | "data" => .ok (.data (trimmed ((attributeValue? e "type").getD "string")))
      | "value" => .ok (.value (t.textContent e))
      | "list" => body.map .list
      | "group" => body.map .group
      | "interleave" => body.map .interleave
      | "choice" => body.map .choice
      | "optional" => body.map .optional
      | "zeroOrMore" => body.map .zeroOrMore
      | "oneOrMore" => body.map .oneOrMore
      | "mixed" => body.map .mixed
      | "ref" => (requiredAttribute e "name").map .ref
      | "parentRef" => (requiredAttribute e "name").map .ref
      | "externalRef" => .error .unsupportedReference
      | "grammar" => .error .nestedGrammar
      | other => .error (.unknownPattern other)

/-- The patterns inside an element. -/
def readBody (t : Tree) (e : ElementNode) (ns : String) : SchemaResult (List SourcePattern) :=
  (t.schemaChildren e).mapM fun c => t.readPattern t.nodes.size c (inheritedNs c ns)

/-! ## Grammars -/

/-- How an element is joined to an earlier one of its kind. -/
def readCombine (e : ElementNode) : SchemaResult (Option Combine) :=
  match (attributeValue? e "combine").map trimmed with
  | none => .ok none
  | some "choice" => .ok (some .choice)
  | some "interleave" => .ok (some .interleave)
  | some other => .error (.badCombine other)

/-- The starts and definitions inside an element, at most `depth` elements deep. -/
def readParts (t : Tree) : (depth : Nat) → ElementNode → (ns : String) →
    SchemaResult (List SourcePart)
  | 0, _, _ => .error .tooDeep
  | depth + 1, e, ns => do
    let parts ← (t.schemaChildren e).mapM fun c => do
      let ns := inheritedNs c ns
      match c.element.localName with
      | "start" =>
        let body ← t.readBody c ns
        return [SourcePart.start (← readCombine c) body]
      | "define" =>
        let name ← requiredAttribute c "name"
        let body ← t.readBody c ns
        return [SourcePart.define name (← readCombine c) body]
      | "div" => t.readParts depth c ns
      | "include" => return []
      | other => .error (.unexpectedPart other)
    return parts.flatten

/-- The schema that a document is written with. -/
def readSchema (t : Tree) : SchemaResult SourceSchema := do
  match t.faultOffset?, t.faultMessage? with
  | some o, some m => .error (.malformed o m)
  | _, _ =>
    match t.root? with
    | none => .error .noRoot
    | some root =>
      let ns := inheritedNs root ""
      if isSchemaElement root && root.element.localName = "grammar" then
        return .grammar (← t.readParts t.nodes.size root ns)
      else return .pattern (← t.readPattern t.nodes.size root ns)

end Tree

end XmlAdvisor
