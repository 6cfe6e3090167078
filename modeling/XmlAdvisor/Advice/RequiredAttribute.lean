import XmlAdvisor.Advice.Action

/-!
# Inserting an attribute that is missing

The edit is small, so the action is listed with it: the attribute is put right after the name of the
element, with an empty value.
-/

namespace XmlAdvisor

/-- The action that inserts an attribute, with its edit. -/
def insertAttributeAction (name : String) (diagnostic : Diagnostic) (edit : WorkspaceEdit) :
    CodeAction where
  title := "Insert required attribute '" ++ name ++ "'"
  kind := some quickFixKind
  diagnostics := some [diagnostic]
  edit := some edit
  isPreferred := some true

/-- The action that inserts the attribute that a diagnostic names into the element it was reported
on, unless the attribute is there. -/
def attributeInsertions (d : Document) (diagnostic : Diagnostic) :
    Except RequestError (List CodeAction) := do
  match diagnostic.dataText? "attributeName" with
  | none => return []
  | some name =>
    match ← d.elementOf diagnostic with
    | none => return []
    | some e =>
      if (e.element.attribute? name).isSome then return []
      let position ← orBadLocation (d.positionAt e.nameSpan.stop)
      let edit ← d.replacing ⟨position, position⟩ (" " ++ name ++ "=\"\"")
      return [insertAttributeAction name diagnostic edit]

/-- The participant that lists insertions of missing attributes. -/
def insertAttributeParticipant : Participant where
  problems := [.requiredAttributeMissing]
  list cx diagnostic := Request.ofExcept (attributeInsertions cx.document diagnostic)

end XmlAdvisor
