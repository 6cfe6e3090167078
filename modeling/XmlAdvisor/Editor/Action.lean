import XmlAdvisor.Editor.Diagnostic
import XmlAdvisor.Editor.Edit

/-!
# Actions

An action is something an editor can do about diagnostics: an edit, a command, or both.  An action
can be listed without its edit; what is needed to find the edit later is kept in its data.
-/

namespace XmlAdvisor

/-- A command of the editor. -/
structure EditorCommand where
  title : String
  command : String
  arguments : Option (List Json)
  deriving Repr, BEq

/-- Something that can be done about diagnostics. -/
structure CodeAction where
  title : String
  kind : Option String := none
  diagnostics : Option (List Diagnostic) := none
  edit : Option WorkspaceEdit := none
  command : Option EditorCommand := none
  isPreferred : Option Bool := none
  /-- Why the action cannot be used now. -/
  disabled : Option String := none
  data : Option Json := none
  deriving Repr, BEq

/-- The first diagnostic that an action is about. -/
def CodeAction.firstDiagnostic? (a : CodeAction) : Option Diagnostic := do
  (← a.diagnostics).head?

/-- The kind of the actions that repair something. -/
def quickFixKind : String :=
  "quickfix"

end XmlAdvisor
