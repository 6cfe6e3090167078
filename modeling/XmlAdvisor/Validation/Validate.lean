import XmlAdvisor.Document
import XmlAdvisor.Request.Grammars
import XmlAdvisor.Validation.Violation
import XmlAdvisor.Validation.Visit

/-!
# Validating documents

A document is validated against a grammar element by element; the request looks for its cancellation
before each.  Violations are reported as diagnostics in the positions of the document, and one whose
span has no position would not be reported.
-/

namespace XmlAdvisor

/-- The diagnostic of a violation, if its span has a range. -/
def Violation.diagnostic? (v : Violation) (d : Document) : Option Diagnostic :=
  match d.rangeAt v.span with
  | .ok range => some (.ofProblem range .error v.problem v.message v.data)
  | .error _ => none

/-- The diagnostics of violations. -/
def Document.report (d : Document) (vs : List Violation) : List Diagnostic :=
  vs.filterMap fun v => v.diagnostic? d

/-- What is wrong with one of the elements that are validated. -/
def Grammar.Visit.diagnostics (v : Grammar.Visit) (g : Grammar) (d : Document) : List Diagnostic :=
  d.report (violations d.toTree g.uri.text v.declaration v.element)

/-- Validates a document against a grammar. -/
def Grammar.validate (g : Grammar) (d : Document) : Request (List Diagnostic) :=
  match d.root? with
  | none => pure []
  | some root =>
    match g.declarationOf? d.toTree root with
    | none => pure (d.report [undeclaredViolation g.uri.text root])
    | some decl =>
      Request.flatMapM (fun v => do
        Request.check
        return v.diagnostics g d) (g.visits d.toTree root decl)

/-- Validates a document against all grammars that apply to it. -/
def Bindings.validate (b : Bindings) (d : Document) : Request (List Diagnostic) := do
  let grammars ← b.applicable d
  Request.flatMapM (·.validate d) grammars

end XmlAdvisor
