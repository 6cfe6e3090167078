import XmlAdvisor.Editor.Action

/-!
# Editor values in the exchange format

Each value becomes an object of the members it has; a member that is absent is left out, except for
the version of a document, which is `null` then.
-/

namespace XmlAdvisor

open Json (objectOf)

/-- An array of what items become. -/
def Json.ofList {α : Type} (write : α → Json) (items : List α) : Json :=
  .array (items.map write)

/-- A position in the exchange format. -/
def Position.toJson (p : Position) : Json :=
  .object [("line", .integer p.line), ("character", .integer p.column)]

/-- A range in the exchange format. -/
def Range.toJson (r : Range) : Json :=
  .object [("start", r.start.toJson), ("end", r.stop.toJson)]

/-- The code of a diagnostic in the exchange format. -/
def DiagnosticCode.toJson : DiagnosticCode → Json
  | .text s => .string s
  | .number n => .integer n

/-- A related place in the exchange format. -/
def RelatedPlace.toJson (p : RelatedPlace) : Json :=
  .object [("location", .object [("uri", .string p.uri), ("range", p.range.toJson)]),
    ("message", .string p.message)]

/-- A diagnostic in the exchange format. -/
def Diagnostic.toJson (d : Diagnostic) : Json :=
  objectOf [("range", some d.range.toJson),
    ("severity", d.severity.map fun s => .integer s.level),
    ("code", d.code.map DiagnosticCode.toJson),
    ("codeDescription", d.codeDescription.map fun href => .object [("href", .string href)]),
    ("source", d.source.map .string), ("message", some (.string d.message)),
    ("relatedInformation", d.related.map (.ofList RelatedPlace.toJson)),
    ("tags", d.tags.map (.ofList .integer)), ("data", d.data)]

/-- A text edit in the exchange format. -/
def TextEdit.toJson (e : TextEdit) : Json :=
  .object [("range", e.range.toJson), ("newText", .string e.newText)]

/-- The edits of a document in the exchange format. -/
def DocumentEdit.toJson (e : DocumentEdit) : Json :=
  .object [("textDocument", .object [("uri", .string e.uri),
      ("version", .ofOption (e.version.map .integer))]),
    ("edits", .ofList TextEdit.toJson e.edits)]

/-- File options in the exchange format. -/
def FileOptions.toJson (o : FileOptions) : Json :=
  objectOf [("overwrite", o.overwrite.map .bool), ("ignoreIfExists", o.ignore.map .bool)]

/-- Delete options in the exchange format. -/
def DeleteOptions.toJson (o : DeleteOptions) : Json :=
  objectOf [("recursive", o.recursive.map .bool), ("ignoreIfNotExists", o.ignore.map .bool),
    ("annotationId", o.remark.map .string)]

/-- A change of a workspace in the exchange format. -/
def WorkspaceChange.toJson : WorkspaceChange → Json
  | .create uri options remark =>
    objectOf [("kind", some (.string "create")), ("uri", some (.string uri)),
      ("options", options.map FileOptions.toJson), ("annotationId", remark.map .string)]
  | .rename source target options remark =>
    objectOf [("kind", some (.string "rename")), ("oldUri", some (.string source)),
      ("newUri", some (.string target)), ("options", options.map FileOptions.toJson),
      ("annotationId", remark.map .string)]
  | .delete uri options =>
    objectOf [("kind", some (.string "delete")), ("uri", some (.string uri)),
      ("options", options.map DeleteOptions.toJson)]
  | .edit e => e.toJson

/-- The changes of a workspace in the exchange format. -/
def DocumentChanges.toJson : DocumentChanges → Json
  | .edits es => .ofList DocumentEdit.toJson es
  | .operations ops => .ofList WorkspaceChange.toJson ops

/-- A remark in the exchange format. -/
def ChangeRemark.toJson (a : ChangeRemark) : Json :=
  objectOf [("label", some (.string a.label)),
    ("needsConfirmation", a.needsConfirmation.map .bool),
      ("description", a.description.map .string)]

/-- A workspace edit in the exchange format. -/
def WorkspaceEdit.toJson (w : WorkspaceEdit) : Json :=
  objectOf [
    ("changes", w.changes.map fun cs =>
      .object (cs.map fun (uri, edits) => (uri, .ofList TextEdit.toJson edits))),
    ("documentChanges", w.documentChanges.map DocumentChanges.toJson),
    ("changeAnnotations", w.remarks.map fun as =>
      .object (as.map fun (key, a) => (key, a.toJson)))]

/-- A command in the exchange format. -/
def EditorCommand.toJson (c : EditorCommand) : Json :=
  objectOf [("title", some (.string c.title)), ("command", some (.string c.command)),
    ("arguments", c.arguments.map .array)]

/-- An action in the exchange format. -/
def CodeAction.toJson (a : CodeAction) : Json :=
  objectOf [("title", some (.string a.title)), ("kind", a.kind.map .string),
    ("diagnostics", a.diagnostics.map (.ofList Diagnostic.toJson)),
    ("edit", a.edit.map WorkspaceEdit.toJson), ("command", a.command.map EditorCommand.toJson),
    ("isPreferred", a.isPreferred.map .bool),
    ("disabled", a.disabled.map fun reason => .object [("reason", .string reason)]),
    ("data", a.data)]

end XmlAdvisor
