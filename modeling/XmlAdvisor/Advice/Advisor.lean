import XmlAdvisor.Advice.Completion
import XmlAdvisor.Advice.Diagnose
import XmlAdvisor.Advice.RequiredAttribute
import XmlAdvisor.Advice.RequiredElement

/-!
# The advisor

An advisor answers requests about documents: diagnostics, actions, hovers and completions.  It holds
the settings, the grammars that documents can be bound to, and the participants and resolvers that
actions come from.  It holds no documents; each request gets the version that it is about.
-/

namespace XmlAdvisor

/-- Answers requests about documents. -/
structure Advisor where
  settings : Settings
  bindings : Bindings
  participants : List Participant
  registry : Registry

namespace Advisor

/-- The built-in participants. -/
def defaultParticipants : List Participant :=
  [insertElementParticipant, insertAttributeParticipant]

/-- The built-in resolvers. -/
def defaultRegistry : Registry :=
  missingElementProblems.map fun problem => (problem, resolveInsertion)

/-- The advisor with other settings.  Every pattern of a file association has to be well formed. -/
def withSettings (a : Advisor) (settings : Settings) : Except Glob.PatternError Advisor := do
  let associations ← settings.fileAssociations.mapM FileAssociation.association
  return { a with settings, bindings := { a.bindings with associations } }

/-- The advisor with the built-in participants and resolvers. -/
def ofSettings (supply : Supply) (settings : Settings) : Except Glob.PatternError Advisor :=
  withSettings ⟨{}, ⟨supply, []⟩, defaultParticipants, defaultRegistry⟩ settings

/-- The advisor with one more resolver, in place of the one for its problem. -/
def register (a : Advisor) (problem : ProblemCode) (resolver : Resolver) : Advisor :=
  { a with registry := a.registry.register problem resolver }

/-- The advisor with one more participant. -/
def addParticipant (a : Advisor) (p : Participant) : Advisor :=
  { a with participants := a.participants ++ [p] }

/-- What actions of a document are worked out from. -/
def context (a : Advisor) (d : Document) : ActionContext :=
  ⟨d, a.bindings, a.settings⟩

/-! ## Requests -/

/-- The diagnostics of a document. -/
def diagnostics (a : Advisor) (d : Document) : Request (List Diagnostic) :=
  a.bindings.diagnostics a.settings.validation d

/-- The action with its edit, if it still applies to the document. -/
def resolveAction (a : Advisor) (d : Document) (action : CodeAction) : Request CodeAction :=
  a.registry.resolve (a.context d) action

/-- The actions for diagnostics of a document.  An editor that cannot ask for edits later gets the
actions resolved. -/
def codeActions (a : Advisor) (d : Document) (diagnostics : List Diagnostic) :
    Request (List CodeAction) := do
  let actions ← listActions a.participants (a.context d) diagnostics
  if a.settings.codeAction.resolveSupport then return actions
  else actions.mapM (a.resolveAction d)

/-- What is told about the name at a position. -/
def hover (a : Advisor) (d : Document) (p : Position) : Request (Option Hover) :=
  a.bindings.hover d p

/-- What can be typed at a position. -/
def completions (a : Advisor) (d : Document) (p : Position) : Request (List CompletionItem) :=
  a.bindings.completions a.settings d p

end Advisor

end XmlAdvisor
