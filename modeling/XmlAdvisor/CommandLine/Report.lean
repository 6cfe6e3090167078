import XmlAdvisor.Editor.Encode

/-!
# Reporting diagnostics

A diagnostic is reported on one line: as a text that begins with the place, with lines and columns
counted from one, or as a JSON object.  Object members stand in the order of their names.
-/

namespace XmlAdvisor

/-- The word for a severity; an unknown one counts as an error. -/
def severityLabel (s : Option Severity) : String :=
  if s = some .warning then "warning"
  else if s = some .information then "info"
  else if s = some .hint then "hint"
  else "error"

/-- A diagnostic as a line of text. -/
def Diagnostic.textLine (d : Diagnostic) (path : String) : String :=
  let code := match d.code with
    | some (.text s) => " [" ++ s ++ "]"
    | some (.number n) => " [" ++ toString n ++ "]"
    | none => ""
  path ++ ":" ++ toString (d.range.start.line + 1) ++ ":" ++ toString (d.range.start.column + 1)
    ++ ": " ++ severityLabel d.severity ++ code ++ " " ++ d.message

/-- A diagnostic as a line of JSON. -/
def Diagnostic.jsonLine (d : Diagnostic) (path : String) : String :=
  (Json.object [("path", .string path), ("diagnostic", d.toJson)]).settled.render

/-- Whether a diagnostic counts as an error: it is one, or nothing is said about how bad it is. -/
def Diagnostic.isError (d : Diagnostic) : Bool :=
  d.severity.all (· = .error)

end XmlAdvisor
