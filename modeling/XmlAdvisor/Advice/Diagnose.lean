import XmlAdvisor.Validation.Validate

/-!
# The diagnostics of a document

The place where the markup is broken comes first.  Then the document is validated against every
grammar that applies; when there is none, the document element gets a diagnostic that says so, as
bad as the settings want it.
-/

namespace XmlAdvisor

/-- The diagnostic of the fault in the markup of a document. -/
def Document.faultDiagnostic? (d : Document) : Option Diagnostic :=
  match d.faultOffset?, d.faultMessage? with
  | some offset, some message =>
    (d.positionAt offset).toOption.map fun p =>
      .ofProblem ⟨p, p⟩ .error .xmlSyntaxError message none
  | _, _ => none

/-- The wording of the diagnostic of a document without grammars. -/
def noGrammarMessage : String :=
  "No grammar constraints (DTD or RELAX NG) are bound to this document."

/-- The diagnostics of a document without grammars. -/
def Document.noGrammarDiagnostics (d : Document) (choice : NoGrammarSeverity) :
    Except RequestError (List Diagnostic) := do
  match choice.severity?, d.root? with
  | some severity, some root =>
    let range ← orBadLocation (d.rangeAt root.nameSpan)
    return [.ofProblem range severity .noGrammar noGrammarMessage none]
  | _, _ => return []

/-- The diagnostics of a document. -/
def Bindings.diagnostics (b : Bindings) (settings : ValidationSettings) (d : Document) :
    Request (List Diagnostic) := do
  if !settings.enabled then return []
  let fault := d.faultDiagnostic?.toList
  let grammars ← b.applicable d
  if grammars.isEmpty then
    return fault ++ (← Request.ofExcept (d.noGrammarDiagnostics settings.noGrammar))
  else
    return fault ++ (← Request.flatMapM (·.validate d) grammars)

end XmlAdvisor
