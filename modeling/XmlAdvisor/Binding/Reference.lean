import XmlAdvisor.Document
import XmlAdvisor.Grammar.Basic
import XmlAdvisor.Location.FilePath
import XmlAdvisor.Location.Glob
import XmlAdvisor.Settings.Basic
import XmlAdvisor.Tree.Instruction

/-!
# Which grammars a document is bound to

**Four ways** bind a document to a grammar, and they count in this order: `xml-model` instructions,
the internal subset of the document type, its system identifier, and associations of file patterns.

**References** say where a grammar is and how it is to be read.  What cannot be resolved or has no
known kind is passed over, and so is a location that is there already; only the internal subset is
always a reference of its own.
-/

namespace XmlAdvisor

/-- How a document is bound to a grammar. -/
inductive ReferenceOrigin
  | xmlModel
  | internalSubset
  | docType
  | fileAssociation
  deriving DecidableEq, Repr, Inhabited

/-- Where the text of a grammar is. -/
inductive GrammarSource
  | external (uri : Url)
  /-- In the document itself. -/
  | inline (uri : Url) (text : String)
  deriving DecidableEq, Repr

/-- The location of a grammar. -/
def GrammarSource.uri : GrammarSource → Url
  | .external uri | .inline uri _ => uri

/-- A grammar that a document is bound to. -/
structure GrammarReference where
  source : GrammarSource
  kind : GrammarKind
  origin : ReferenceOrigin
  /-- The only document element that is allowed. -/
  root : Option String
  deriving DecidableEq, Repr

/-- The location of the grammar in the internal subset of a document. -/
def internalSubsetUri (document : Url) : Url :=
  document.withFragment "internal-subset"

/-- Where a system identifier in a document leads, without the blanks around it. -/
def resolveSystemId? (document : Url) (systemId : String) : Option Url :=
  document.resolve? (trim systemId.toList)

/-- The kind that an `xml-model` instruction tells: by the namespace of the schema language or else
by the media type. -/
def kindOfHints? (schemaLanguage mediaType : Option String) : Option GrammarKind :=
  match schemaLanguage with
  | some ns => if trimmed ns = schemaNamespace then some .relaxNg else none
  | none =>
    match mediaType.map trimmed with
    | some "application/relax-ng+xml" | some "application/x-relax-ng+xml" => some .relaxNg
    | some "application/xml-dtd" => some .dtd
    | _ => none

/-- A reference to a location whose kind is known or told by its extension. -/
def externalReference? (uri : Url) (kind : Option GrammarKind) (origin : ReferenceOrigin)
    (root : Option String) : Option GrammarReference :=
  (kind.or (GrammarKind.ofExtension? uri)).map fun kind => ⟨.external uri, kind, origin, root⟩

/-- The reference that an `xml-model` instruction with the given data makes. -/
def instructionReference? (document : Url) (data : Option String) : Option GrammarReference := do
  let uri ← resolveSystemId? document (← pseudoValue? data "href")
  let kind := kindOfHints? (pseudoValue? data "schematypens") (pseudoValue? data "type")
  externalReference? uri kind .xmlModel none

/-- The document element that a document type asks for. -/
def DocumentType.root? (t : DocumentType) : Option String :=
  if t.name.isEmpty then none else some t.name

/-- The reference that an internal subset makes. -/
def subsetReference? (document : Url) (t : DocumentType) : Option GrammarReference := do
  let text ← t.internalSubset
  if (trimmed text).isEmpty then none
  else some ⟨.inline (internalSubsetUri document) text, .dtd, .internalSubset, t.root?⟩

/-- The reference that the system identifier of a document type makes. -/
def systemReference? (document : Url) (t : DocumentType) : Option GrammarReference := do
  externalReference? (← resolveSystemId? document (← t.systemId)) (some .dtd) .docType t.root?

/-! ## Associations -/

/-- A file association whose pattern has been read. -/
structure Association where
  pattern : List Glob.Token
  systemId : String
  deriving Repr

/-- The association that a setting stands for. -/
def FileAssociation.association (a : FileAssociation) : Except Glob.PatternError Association := do
  return ⟨← Glob.read a.pattern, a.systemId⟩

/-- The bytes that file patterns are matched against: the file path, or else the path as it is
written. -/
def Url.patternPath (u : Url) : List UInt8 :=
  u.filePath?.getD u.pathText.toUTF8.toList

/-- The reference that an association makes for a document. -/
def associationReference? (document : Url) (a : Association) : Option GrammarReference :=
  if Glob.isMatch a.pattern document.patternPath then do
    externalReference? (← resolveSystemId? document a.systemId) none .fileAssociation none
  else none

/-! ## All references of a document -/

/-- Adds a reference, unless it is to a location that is there already. -/
def addReference (refs : List GrammarReference) (r : GrammarReference) : List GrammarReference :=
  match r.source with
  | .inline _ _ => refs ++ [r]
  | .external uri => if refs.any (·.source.uri = uri) then refs else refs ++ [r]

/-- The references of a document before locations that occur again are passed over. -/
def Document.candidateReferences (d : Document) (associations : List Association) :
    List GrammarReference :=
  let instructions := d.instructions.filterMap fun (target, data) =>
    if target = "xml-model" then instructionReference? d.url data else none
  let doctype := d.doctype?.toList.flatMap fun t =>
    (subsetReference? d.url t).toList ++ (systemReference? d.url t).toList
  instructions ++ doctype ++ associations.filterMap (associationReference? d.url)

/-- The grammars that a document is bound to. -/
def Document.references (d : Document) (associations : List Association) : List GrammarReference :=
  (d.candidateReferences associations).foldl addReference []

end XmlAdvisor
