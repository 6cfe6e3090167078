import XmlAdvisor.Editor.Diagnostic
import XmlAdvisor.Insertion.Outline

/-!
# Settings

What a user can choose.  Every setting has a default, so that settings can be written down by naming
only those that differ.
-/

namespace XmlAdvisor

/-- How bad it is that a document has no grammar. -/
inductive NoGrammarSeverity
  | ignore
  | hint
  | info
  | warning
  | error
  deriving DecidableEq, Repr, Inhabited

namespace NoGrammarSeverity

/-- The choices, in order. -/
def all : List NoGrammarSeverity :=
  [.ignore, .hint, .info, .warning, .error]

/-- The name of a choice. -/
def name : NoGrammarSeverity → String
  | .ignore => "ignore"
  | .hint => "hint"
  | .info => "info"
  | .warning => "warning"
  | .error => "error"

/-- The severity of the diagnostic; none if there is to be no diagnostic. -/
def severity? : NoGrammarSeverity → Option Severity
  | .ignore => none
  | .hint => some .hint
  | .info => some .information
  | .warning => some .warning
  | .error => some .error

end NoGrammarSeverity

/-- Which grammar decides when several offer an alternative with the same name. -/
inductive DuplicatePolicy
  | firstMatch
  | lastMatch
  deriving DecidableEq, Repr, Inhabited

namespace DuplicatePolicy

/-- The policies, in order. -/
def all : List DuplicatePolicy :=
  [.firstMatch, .lastMatch]

/-- The name of a policy. -/
def name : DuplicatePolicy → String
  | .firstMatch => "firstMatch"
  | .lastMatch => "lastMatch"

end DuplicatePolicy

/-- What is validated. -/
structure ValidationSettings where
  enabled : Bool := true
  noGrammar : NoGrammarSeverity := .hint
  deriving DecidableEq, Repr, Inhabited

/-- A grammar for all documents whose path matches a pattern. -/
structure FileAssociation where
  pattern : String
  systemId : String
  deriving DecidableEq, Repr, Inhabited

/-- How actions are offered. -/
structure ActionSettings where
  /-- Whether the editor asks for the edit of an action later. -/
  resolveSupport : Bool := true
  /-- Whether generated elements are snippets. -/
  snippetEdits : Bool := false
  duplicateAlternative : DuplicatePolicy := .firstMatch
  deriving DecidableEq, Repr, Inhabited

/-- How completions are offered. -/
structure CompletionSettings where
  /-- Whether completions are snippets. -/
  snippetSupport : Bool := true
  deriving DecidableEq, Repr, Inhabited

/-- All settings. -/
structure Settings where
  validation : ValidationSettings := {}
  fileAssociations : List FileAssociation := []
  codeAction : ActionSettings := {}
  completion : CompletionSettings := {}
  format : Indentation := {}
  deriving DecidableEq, Repr, Inhabited

/-- The layout of generated text. -/
def Settings.layout (s : Settings) : Layout :=
  { indentation := s.format }

end XmlAdvisor
