import XmlAdvisor.Advice.Action

/-!
# Inserting an element that is missing

An element whose content ends too early can be repaired by inserting one of the alternatives.  An
action is listed for each, by name.  Resolving it finds the element and the alternative again in the
document as it is then, and puts what the alternative asks for in place of the element's content.
-/

namespace XmlAdvisor

/-- The problems that inserting an element repairs. -/
def missingElementProblems : List ProblemCode :=
  [.requiredElementsMissing, .requiredElementMissing]

/-- The elements of which one has to come next in an element, as a grammar tells. -/
def Grammar.alternativesIn (g : Grammar) (t : Tree) (e : ElementNode) : List Declaration :=
  match g.declarationOf? t e with
  | some decl => decl.alternatives (t.childElements e)
  | none => []

/-! ## Listing -/

/-- The names of the alternatives in an element, from the grammar at a location or from all grammars
that apply. -/
def alternativeNames (cx : ActionContext) (e : ElementNode) (grammarUri : Option String) :
    Request (List String) := do
  let grammars ← cx.bindings.applicable cx.document
  let names ← Request.flatMapM (fun g => do
    Request.check
    if grammarUri.all (· = g.uri.text) then
      return (g.alternativesIn cx.document.toTree e).map Declaration.localName
    else return []) grammars
  return distinctBy id names

/-- The names that actions for a diagnostic insert: the one it names, or all alternatives in the
element it was reported on, if that element still has the given name. -/
def namesToInsert (cx : ActionContext) (diagnostic : Diagnostic) (parent : String) :
    Request (List String) :=
  match diagnostic.dataText? "elementLocalName" with
  | some name => pure [name]
  | none => do
    match ← Request.ofExcept (cx.document.elementOf diagnostic) with
    | none => return []
    | some e =>
      if e.element.localName = parent then
        alternativeNames cx e (diagnostic.dataText? "grammarUri")
      else return []

/-- The action that inserts an element of the given name, still without its edit. -/
def insertElementAction (uri parent : String) (problem : ProblemCode) (diagnostic : Diagnostic)
    (isOnly : Bool) (name : String) : CodeAction where
  title := "Insert expected element '" ++ name ++ "'"
  kind := some quickFixKind
  diagnostics := some [diagnostic]
  isPreferred := if isOnly then some true else none
  data := some (ActionPayload.mk problem.name uri parent name).toJson

/-- Lists the actions that insert a missing element. -/
def listInsertions (cx : ActionContext) (diagnostic : Diagnostic) : Request (List CodeAction) :=
  match diagnostic.problem?, diagnostic.dataText? "parentLocalName" with
  | some problem, some parent => do
    let names ← namesToInsert cx diagnostic parent
    return names.map
      (insertElementAction cx.document.url.text parent problem diagnostic (names.length == 1))
  | _, _ => pure []

/-- The participant that lists insertions of missing elements. -/
def insertElementParticipant : Participant :=
  ⟨missingElementProblems, listInsertions⟩

/-! ## Resolving -/

/-- The alternative with the given name in an element, as a grammar tells. -/
def Grammar.alternativeNamed? (g : Grammar) (t : Tree) (e : ElementNode) (name : String) :
    Option Declaration :=
  (g.alternativesIn t e).find? (·.localName = name)

/-- The alternative with the given name from the grammar that the policy prefers; `found` is the one
from the grammars before. -/
def chooseAlternative (policy : DuplicatePolicy) (t : Tree) (e : ElementNode) (name : String)
    (found : Option Declaration) : List Grammar → Request (Option Declaration)
  | [] => pure found
  | g :: more => do
    Request.check
    match g.alternativeNamed? t e name with
    | none => chooseAlternative policy t e name found more
    | some decl =>
      match policy with
      | .firstMatch => return some decl
      | .lastMatch => chooseAlternative policy t e name (some decl) more

/-- The element whose content an action replaces, and the span of that content: the element its
diagnostic was reported on, if the action belongs to the document, the element still has its name,
and both its tags are there. -/
def insertionPlace (d : Document) (a : CodeAction) :
    Except RequestError (Option (ElementNode × Span × ActionPayload)) := do
  let payload ← a.payload
  match a.firstDiagnostic? with
  | none => throw (.malformedPayload "code action has no diagnostic")
  | some diagnostic =>
    if payload.uri ≠ d.url.text then return none
    match ← d.elementOf diagnostic with
    | none => return none
    | some e =>
      if e.element.localName ≠ payload.parentLocalName then return none
      return e.element.contentSpan.map fun span => (e, span, payload)

/-- Works out the edit that inserts a missing element. -/
def resolveInsertion : Resolver := fun cx a => do
  match ← Request.ofExcept (insertionPlace cx.document a) with
  | none => return none
  | some (e, span, payload) =>
    let range ← Request.ofPlace (cx.document.rangeAt span)
    let grammars ← cx.bindings.applicable cx.document
    match ← chooseAlternative cx.settings.codeAction.duplicateAlternative cx.document.toTree e
        payload.elementLocalName none grammars with
    | none => return none
    | some decl =>
      Request.check
      let text := decl.insertion cx.settings.layout {} 1 none cx.settings.codeAction.snippetEdits
      some <$> Request.ofExcept (cx.document.replacing range text)

end XmlAdvisor
