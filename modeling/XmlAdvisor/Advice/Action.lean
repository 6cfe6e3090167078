import XmlAdvisor.Editor.Action
import XmlAdvisor.Json.Record
import XmlAdvisor.Request.Grammars
import XmlAdvisor.Settings.Basic

/-!
# Listing and resolving actions

**Two phases.**  Listing an action is cheap and may leave its edit open; resolving the action later
works the edit out against the document as it is then.  What resolving needs to know travels in the
data of the action (`ActionPayload`).

**Participants** list actions for the problems they know, **resolvers** work out edits; both are
values, so that others can stand beside the built-in ones.  A participant or resolver that fails
leaves its action out or as it was, unless the request has been given up.
-/

namespace XmlAdvisor

/-- What actions are worked out from. -/
structure ActionContext where
  document : Document
  bindings : Bindings
  settings : Settings

/-! ## The data of an action -/

/-- What is needed to work out the edit of a listed action. -/
structure ActionPayload where
  /-- The name of the problem that the action repairs. -/
  code : String
  /-- The document that the action was listed for. -/
  uri : String
  /-- The local name of the element whose content is incomplete. -/
  parentLocalName : String
  /-- The local name of the element to insert. -/
  elementLocalName : String
  deriving DecidableEq, Repr, Inhabited

namespace ActionPayload

/-- The payload as a value. -/
def toJson (p : ActionPayload) : Json :=
  .object [("code", .string p.code), ("elementLocalName", .string p.elementLocalName),
    ("parentLocalName", .string p.parentLocalName), ("uri", .string p.uri)]

/-- The payload that a value stands for. -/
def ofJson? (j : Json) : Option ActionPayload := do
  let r ← Json.record? ["code", "uri", "parentLocalName", "elementLocalName"] j
  return ⟨← r.needed "code" Json.string?, ← r.needed "uri" Json.string?,
    ← r.needed "parentLocalName" Json.string?, ← r.needed "elementLocalName" Json.string?⟩

/-- Reading gives back what was written. -/
theorem ofJson?_toJson (p : ActionPayload) : ofJson? p.toJson = some p := rfl

end ActionPayload

/-- The payload of an action. -/
def CodeAction.payload (a : CodeAction) : Except RequestError ActionPayload :=
  match a.data with
  | none => .error (.malformedPayload "code action has no data")
  | some data =>
    match ActionPayload.ofJson? data with
    | some p => .ok p
    | none => .error .json

/-- The element that a diagnostic was reported on.  Its range begins at the start of a tag, and one
character further is inside the element. -/
def Document.elementOf (d : Document) (diagnostic : Diagnostic) :
    Except RequestError (Option ElementNode) := do
  let offset ← orBadLocation (d.offsetAt diagnostic.range.start)
  return d.elementAt? (offset + 1)

/-! ## Participants -/

/-- Lists actions for diagnostics about certain problems. -/
structure Participant where
  problems : List ProblemCode
  list : ActionContext → Diagnostic → Request (List CodeAction)

/-- What a participant lists for a diagnostic about a problem; nothing if it fails or does not know
the problem. -/
def Participant.offer (p : Participant) (cx : ActionContext) (problem : ProblemCode)
    (diagnostic : Diagnostic) : Request (List CodeAction) :=
  if p.problems.contains problem then (p.list cx diagnostic).orElseValue [] else pure []

/-- What participants list for diagnostics. -/
def listActions (participants : List Participant) (cx : ActionContext)
    (diagnostics : List Diagnostic) : Request (List CodeAction) :=
  Request.flatMapM (fun diagnostic => do
    Request.check
    match diagnostic.problem? with
    | some problem => Request.flatMapM (·.offer cx problem diagnostic) participants
    | none => return []) diagnostics

/-! ## Resolvers -/

/-- Works out the edit of an action; none if the action does not apply any more. -/
abbrev Resolver : Type :=
  ActionContext → CodeAction → Request (Option WorkspaceEdit)

/-- Resolvers by the problem that actions repair. -/
abbrev Registry : Type :=
  List (ProblemCode × Resolver)

/-- Puts a resolver in place of the one for its problem. -/
def Registry.register (r : Registry) (problem : ProblemCode) (resolver : Resolver) : Registry :=
  (problem, resolver) :: r.filter (·.1 ≠ problem)

/-- The problem that an action repairs: that of its first diagnostic or, without a diagnostic, the
one its payload names. -/
def CodeAction.problem? (a : CodeAction) : Option ProblemCode :=
  match a.firstDiagnostic? with
  | some diagnostic => diagnostic.problem?
  | none => a.payload.toOption.bind fun p => ProblemCode.named? p.code

/-- The action with its edit, or as it was if no edit can be worked out. -/
def Registry.resolve (r : Registry) (cx : ActionContext) (a : CodeAction) : Request CodeAction :=
  match a.problem?.bind fun problem => List.lookup problem r with
  | none => pure a
  | some resolver => do
    match ← (resolver cx a).orElseValue none with
    | some edit => return { a with edit := some edit }
    | none => return a

end XmlAdvisor
