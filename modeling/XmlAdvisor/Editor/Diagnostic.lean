import XmlAdvisor.Json.Basic
import XmlAdvisor.Text.Lines

/-!
# Diagnostics

A diagnostic tells about a problem in a range of a document.  Diagnostics travel to an editor and
come back from it, so all members of the exchange format are kept.  The problems that this library
reports have codes of their own (`ProblemCode`); a diagnostic that came back may carry any code.
-/

namespace XmlAdvisor

/-- The problems that are reported. -/
inductive ProblemCode
  | requiredElementsMissing
  | requiredElementMissing
  | incompleteContent
  | elementNotAllowed
  | elementUndeclared
  | requiredAttributeMissing
  | attributeNotAllowed
  | attributeValueInvalid
  | noGrammar
  | xmlSyntaxError
  deriving DecidableEq, Repr, Inhabited

namespace ProblemCode

/-- The problems, in order. -/
def all : List ProblemCode :=
  [.requiredElementsMissing, .requiredElementMissing, .incompleteContent, .elementNotAllowed,
    .elementUndeclared, .requiredAttributeMissing, .attributeNotAllowed, .attributeValueInvalid,
    .noGrammar, .xmlSyntaxError]

/-- The name of a problem. -/
def name : ProblemCode → String
  | .requiredElementsMissing => "required-elements-missing"
  | .requiredElementMissing => "required-element-missing"
  | .incompleteContent => "incomplete-content"
  | .elementNotAllowed => "element-not-allowed"
  | .elementUndeclared => "element-undeclared"
  | .requiredAttributeMissing => "required-attribute-missing"
  | .attributeNotAllowed => "attribute-not-allowed"
  | .attributeValueInvalid => "attribute-value-invalid"
  | .noGrammar => "no-grammar"
  | .xmlSyntaxError => "xml-syntax-error"

/-- The problem with the given name. -/
def named? (s : String) : Option ProblemCode :=
  all.find? (·.name = s)

/-- Names tell problems apart. -/
theorem named?_name (p : ProblemCode) : named? p.name = some p := by
  cases p <;> decide

end ProblemCode

/-- The code of a diagnostic. -/
inductive DiagnosticCode
  | text (s : String)
  | number (n : Int)
  deriving DecidableEq, Repr, Inhabited

/-- How bad a problem is; smaller numbers are worse. -/
structure Severity where
  level : Int
  deriving DecidableEq, Repr, Inhabited

namespace Severity

/-- The document is wrong. -/
def error : Severity := ⟨1⟩

/-- The document may be wrong. -/
def warning : Severity := ⟨2⟩

/-- Something to know. -/
def information : Severity := ⟨3⟩

/-- Something that can be done. -/
def hint : Severity := ⟨4⟩

end Severity

/-- Another place that has to do with a problem. -/
structure RelatedPlace where
  uri : String
  range : Range
  message : String
  deriving DecidableEq, Repr, Inhabited

/-- A problem in a range of a document. -/
structure Diagnostic where
  range : Range
  severity : Option Severity := none
  code : Option DiagnosticCode := none
  /-- Where the code is described. -/
  codeDescription : Option String := none
  source : Option String := none
  message : String
  related : Option (List RelatedPlace) := none
  tags : Option (List Int) := none
  data : Option Json := none
  deriving DecidableEq, Repr

namespace Diagnostic

/-- What the diagnostics of this library name as their source. -/
def ownSource : String :=
  "xml"

/-- A diagnostic of this library. -/
def ofProblem (range : Range) (severity : Severity) (problem : ProblemCode) (message : String)
    (data : Option Json) : Diagnostic :=
  { range, severity := some severity, code := some (.text problem.name),
    source := some ownSource, message, data }

/-- The problem that a diagnostic is about, if it is one of this library's. -/
def problem? (d : Diagnostic) : Option ProblemCode :=
  match d.code with
  | some (.text s) => ProblemCode.named? s
  | _ => none

/-- The text that is a member of the data of a diagnostic. -/
def dataText? (d : Diagnostic) (key : String) : Option String := do
  (← (← d.data).get? key).string?

end Diagnostic

end XmlAdvisor
