import XmlAdvisor.Editor.Action
import XmlAdvisor.Json.Record

/-!
# Reading editor values

A value is read when all its required members are there and every member that is there has the right
type; other members are passed over.  Identifiers of documents have to be well formed.  Where a
format leaves open which of two shapes a value has, the shapes are tried in turn.  A record of one
of several kinds names its kind in a member, or lists it first.
-/

namespace XmlAdvisor

open Json (record? list? table? int32? uint32?)

/-- The identifier that a value is. -/
def readUri? (j : Json) : Option String :=
  j.string?.filter isReference

/-- The position that a value stands for. -/
def Position.ofJson? (j : Json) : Option Position := do
  let r ← record? ["line", "character"] j
  return ⟨← r.needed "line" uint32?, ← r.needed "character" uint32?⟩

/-- The range that a value stands for. -/
def Range.ofJson? (j : Json) : Option Range := do
  let r ← record? ["start", "end"] j
  return ⟨← r.needed "start" Position.ofJson?, ← r.needed "end" Position.ofJson?⟩

/-- The code that a value stands for. -/
def DiagnosticCode.ofJson? : Json → Option DiagnosticCode
  | .string s => some (.text s)
  | j => (int32? j).map .number

/-- The related place that a value stands for. -/
def RelatedPlace.ofJson? (j : Json) : Option RelatedPlace := do
  let r ← record? ["location", "message"] j
  let location ← r.needed "location" (record? ["uri", "range"])
  return ⟨← location.needed "uri" readUri?, ← location.needed "range" Range.ofJson?,
    ← r.needed "message" Json.string?⟩

/-- The diagnostic that a value stands for. -/
def Diagnostic.ofJson? (j : Json) : Option Diagnostic := do
  let r ← record? ["range", "severity", "code", "codeDescription", "source", "message",
    "relatedInformation", "tags", "data"] j
  return {
    range := ← r.needed "range" Range.ofJson?
    severity := ← r.optional "severity" fun v => (int32? v).map Severity.mk
    code := ← r.optional "code" DiagnosticCode.ofJson?
    codeDescription := ← r.optional "codeDescription" fun v => do
      (← record? ["href"] v).needed "href" readUri?
    source := ← r.optional "source" Json.string?
    message := ← r.needed "message" Json.string?
    related := ← r.optional "relatedInformation" (list? RelatedPlace.ofJson?)
    tags := ← r.optional "tags" (list? int32?)
    data := ← r.optional "data" some }

/-- The text edit that a value stands for. -/
def TextEdit.ofJson? (j : Json) : Option TextEdit := do
  let r ← record? ["range", "newText"] j
  return ⟨← r.needed "range" Range.ofJson?, ← r.needed "newText" Json.string?⟩

/-- The edits of a document that a value stands for. -/
def DocumentEdit.ofJson? (j : Json) : Option DocumentEdit := do
  let r ← record? ["textDocument", "edits"] j
  let document ← r.needed "textDocument" (record? ["uri", "version"])
  return ⟨← document.needed "uri" readUri?, ← document.optional "version" int32?,
    ← r.needed "edits" (list? TextEdit.ofJson?)⟩

/-- The file options that a value stands for. -/
def FileOptions.ofJson? (j : Json) : Option FileOptions := do
  let r ← record? ["overwrite", "ignoreIfExists"] j
  return ⟨← r.optional "overwrite" Json.bool?, ← r.optional "ignoreIfExists" Json.bool?⟩

/-- The delete options that a value stands for. -/
def DeleteOptions.ofJson? (j : Json) : Option DeleteOptions := do
  let r ← record? ["recursive", "ignoreIfNotExists", "annotationId"] j
  return ⟨← r.optional "recursive" Json.bool?, ← r.optional "ignoreIfNotExists" Json.bool?,
    ← r.optional "annotationId" Json.string?⟩

/-- What can be done to a file. -/
inductive FileAction
  | create
  | rename
  | delete
  deriving DecidableEq, Repr, Inhabited

/-- The action that a value names, by its name or by its place among the actions. -/
def FileAction.ofJson? : Json → Option FileAction
  | .string "create" | .integer 0 => some .create
  | .string "rename" | .integer 1 => some .rename
  | .string "delete" | .integer 2 => some .delete
  | _ => none

/-- The action on a file that a value begins with, and the record of the other members. -/
def FileAction.split? : Json → Option (FileAction × Json)
  | .object members => do
    let action ← ofJson? (← Json.lookup? members "kind")
    return (action, .object members)
  | .array (first :: rest) => (ofJson? first).map fun action => (action, .array rest)
  | _ => none

/-- The operation on a file that a value stands for. -/
def WorkspaceChange.fileOperation? (j : Json) : Option WorkspaceChange := do
  let (action, rest) ← FileAction.split? j
  match action with
  | .create =>
    let r ← record? ["uri", "options", "annotationId"] rest
    return .create (← r.needed "uri" readUri?) (← r.optional "options" FileOptions.ofJson?)
      (← r.optional "annotationId" Json.string?)
  | .rename =>
    let r ← record? ["oldUri", "newUri", "options", "annotationId"] rest
    return .rename (← r.needed "oldUri" readUri?) (← r.needed "newUri" readUri?)
      (← r.optional "options" FileOptions.ofJson?) (← r.optional "annotationId" Json.string?)
  | .delete =>
    let r ← record? ["uri", "options"] rest
    return .delete (← r.needed "uri" readUri?) (← r.optional "options" DeleteOptions.ofJson?)

/-- The change of a workspace that a value stands for. -/
def WorkspaceChange.ofJson? (j : Json) : Option WorkspaceChange :=
  (fileOperation? j).or ((DocumentEdit.ofJson? j).map .edit)

/-- The changes of a workspace that a value stands for. -/
def DocumentChanges.ofJson? (j : Json) : Option DocumentChanges :=
  ((list? DocumentEdit.ofJson? j).map .edits).or
    ((list? WorkspaceChange.ofJson? j).map .operations)

/-- The remark that a value stands for. -/
def ChangeRemark.ofJson? (j : Json) : Option ChangeRemark := do
  let r ← record? ["label", "needsConfirmation", "description"] j
  return ⟨← r.needed "label" Json.string?, ← r.optional "needsConfirmation" Json.bool?,
    ← r.optional "description" Json.string?⟩

/-- The text edits by document that a value stands for. -/
def readChanges? (j : Json) : Option (List (String × List TextEdit)) := do
  let changes ← table? (list? TextEdit.ofJson?) j
  if changes.all fun (uri, _) => isReference uri then some changes else none

/-- The workspace edit that a value stands for. -/
def WorkspaceEdit.ofJson? (j : Json) : Option WorkspaceEdit := do
  let r ← record? ["changes", "documentChanges", "changeAnnotations"] j
  return {
    changes := ← r.optional "changes" readChanges?
    documentChanges := ← r.optional "documentChanges" DocumentChanges.ofJson?
    remarks := ← r.optional "changeAnnotations" (table? ChangeRemark.ofJson?) }

/-- The command that a value stands for. -/
def EditorCommand.ofJson? (j : Json) : Option EditorCommand := do
  let r ← record? ["title", "command", "arguments"] j
  return ⟨← r.needed "title" Json.string?, ← r.needed "command" Json.string?,
    ← r.optional "arguments" Json.items?⟩

/-- The action that a value stands for. -/
def CodeAction.ofJson? (j : Json) : Option CodeAction := do
  let r ← record? ["title", "kind", "diagnostics", "edit", "command", "isPreferred", "disabled",
    "data"] j
  return {
    title := ← r.needed "title" Json.string?
    kind := ← r.optional "kind" Json.string?
    diagnostics := ← r.optional "diagnostics" (list? Diagnostic.ofJson?)
    edit := ← r.optional "edit" WorkspaceEdit.ofJson?
    command := ← r.optional "command" EditorCommand.ofJson?
    isPreferred := ← r.optional "isPreferred" Json.bool?
    disabled := ← r.optional "disabled" fun v => do
      (← record? ["reason"] v).needed "reason" Json.string?
    data := ← r.optional "data" some }

end XmlAdvisor
