import XmlAdvisor.Json.Read
import XmlAdvisor.Json.Record
import XmlAdvisor.Settings.Basic

/-!
# Reading and writing settings

Settings are records, and so are their parts; what is missing has its default.  Nothing may be
`null`.  A choice is written by its name, or as an object whose one member has that name and no
value.
-/

namespace XmlAdvisor

open Json (record? list? uint32? objectOf)

/-- The one of the given choices that a value names. -/
def readChoice? {α : Type} (name : α → String) (choices : List α) : Json → Option α
  | .string s => choices.find? (name · = s)
  | .object [(s, .null)] => choices.find? (name · = s)
  | _ => none

/-- The validation settings that a value stands for. -/
def ValidationSettings.ofJson? (j : Json) : Option ValidationSettings := do
  let r ← record? ["enabled", "noGrammar"] j
  let default : ValidationSettings := {}
  return {
    enabled := ← r.orElse "enabled" default.enabled Json.bool?
    noGrammar := ← r.orElse "noGrammar" default.noGrammar
      (readChoice? NoGrammarSeverity.name NoGrammarSeverity.all) }

/-- The file association that a value stands for, which has no defaults. -/
def FileAssociation.ofJson? (j : Json) : Option FileAssociation := do
  let r ← record? ["pattern", "systemId"] j
  return ⟨← r.needed "pattern" Json.string?, ← r.needed "systemId" Json.string?⟩

/-- The action settings that a value stands for. -/
def ActionSettings.ofJson? (j : Json) : Option ActionSettings := do
  let r ← record? ["resolveSupport", "snippetEdits", "duplicateAlternative"] j
  let default : ActionSettings := {}
  return {
    resolveSupport := ← r.orElse "resolveSupport" default.resolveSupport Json.bool?
    snippetEdits := ← r.orElse "snippetEdits" default.snippetEdits Json.bool?
    duplicateAlternative := ← r.orElse "duplicateAlternative" default.duplicateAlternative
      (readChoice? DuplicatePolicy.name DuplicatePolicy.all) }

/-- The completion settings that a value stands for. -/
def CompletionSettings.ofJson? (j : Json) : Option CompletionSettings := do
  let r ← record? ["snippetSupport"] j
  let default : CompletionSettings := {}
  return { snippetSupport := ← r.orElse "snippetSupport" default.snippetSupport Json.bool? }

/-- The indentation that a value stands for. -/
def Indentation.ofJson? (j : Json) : Option Indentation := do
  let r ← record? ["tabSize", "insertSpaces"] j
  let default : Indentation := {}
  return {
    tabSize := ← r.orElse "tabSize" default.tabSize uint32?
    insertSpaces := ← r.orElse "insertSpaces" default.insertSpaces Json.bool? }

/-- The settings that a value stands for. -/
def Settings.ofJson? (j : Json) : Option Settings := do
  let r ← record? ["validation", "fileAssociations", "codeAction", "completion", "format"] j
  return {
    validation := ← r.orElse "validation" {} ValidationSettings.ofJson?
    fileAssociations := ← r.orElse "fileAssociations" [] (list? FileAssociation.ofJson?)
    codeAction := ← r.orElse "codeAction" {} ActionSettings.ofJson?
    completion := ← r.orElse "completion" {} CompletionSettings.ofJson?
    format := ← r.orElse "format" {} Indentation.ofJson? }

/-- The settings that a text stands for. -/
def Settings.read? (text : String) : Option Settings := do
  Settings.ofJson? (← Json.read? text)

/-! ## Writing -/

/-- A file association as a value. -/
def FileAssociation.toJson (a : FileAssociation) : Json :=
  .object [("pattern", .string a.pattern), ("systemId", .string a.systemId)]

/-- Settings as a value that names all of them. -/
def Settings.toJson (s : Settings) : Json :=
  .object [
    ("validation", .object [("enabled", .bool s.validation.enabled),
      ("noGrammar", .string s.validation.noGrammar.name)]),
    ("fileAssociations", .array (s.fileAssociations.map FileAssociation.toJson)),
    ("codeAction", .object [("resolveSupport", .bool s.codeAction.resolveSupport),
      ("snippetEdits", .bool s.codeAction.snippetEdits),
      ("duplicateAlternative", .string s.codeAction.duplicateAlternative.name)]),
    ("completion", .object [("snippetSupport", .bool s.completion.snippetSupport)]),
    ("format", .object [("tabSize", .integer s.format.tabSize),
      ("insertSpaces", .bool s.format.insertSpaces)])]

end XmlAdvisor
