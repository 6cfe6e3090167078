import XmlAdvisor.Advice.Advisor

/-!
# Repairing a whole document

For each diagnostic at most one action is taken: the one that inserts the element asked for, or else
the preferred one, or else the first.  The edits of these actions are applied together; an edit that
overlaps one ahead of it is left out.
-/

namespace XmlAdvisor

/-- Whether an action inserts an element with the given name. -/
def CodeAction.inserts (a : CodeAction) (element : String) : Bool :=
  match a.payload with
  | .ok p => p.elementLocalName = element
  | .error _ => false

/-- The action that is taken for a diagnostic. -/
def chooseAction? (actions : List CodeAction) (diagnostic : Diagnostic) (element : Option String) :
    Option CodeAction :=
  let candidates := actions.filter fun a => a.firstDiagnostic? == some diagnostic
  let asked := element.bind fun name => candidates.find? (·.inserts name)
  asked.or ((candidates.find? (·.isPreferred = some true)).or candidates.head?)

/-- The edits of the action that is taken for a diagnostic. -/
def Advisor.fixEdits (a : Advisor) (d : Document) (actions : List CodeAction)
    (element : Option String) (diagnostic : Diagnostic) : Request (List TextEdit) :=
  match chooseAction? actions diagnostic element with
  | none => pure []
  | some action => do
    let resolved ← a.resolveAction d action
    return (resolved.edit.map fun w => w.editsFor d).getD []

/-- The text of a document with everything repaired that can be, if anything can be. -/
def Advisor.fix (a : Advisor) (d : Document) (element : Option String) :
    Request (Option String) := do
  let diagnostics ← a.diagnostics d
  let actions ← a.codeActions d diagnostics
  let edits ← Request.flatMapM (a.fixEdits d actions element) diagnostics
  match withoutOverlaps edits with
  | [] => return none
  | kept => some <$> Request.ofExcept (d.applyEdits kept)

end XmlAdvisor
